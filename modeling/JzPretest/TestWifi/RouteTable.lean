import JzPretest.Semantics.Tokens

set_option relaxedAutoImplicit false
set_option autoImplicit false

/-!
# The table of routes

`ifc_remove_host_routes` and `ifc_get_default_route` read the table of routes of the kernel with
`fscanf`, one row after the other, until a row cannot be converted.

## Main definitions

* `JzPretest.Netcfg.Route`, `JzPretest.Netcfg.routeRow` — a row, and the call of `fscanf` for it.
* `JzPretest.Netcfg.scan` — the rows that a loop reads.
* `JzPretest.Netcfg.IsTable` — the text of a table.

## Main results

* `JzPretest.Netcfg.exists_isTable` — any rows make a table.
* `JzPretest.Netcfg.scan_table` — the rows of a table are read as they are.
-/

namespace JzPretest.Netcfg

open Reader

/-- What is read of a row. -/
structure Route where
  name : List UInt8
  dest : UInt32
  gway : UInt32
  flags : UInt32
  refcnt : Int32
  uses : Int32
  metric : Int32
  mask : UInt32
  mtu : Int32
  win : Int32
  irtt : Int32
  deriving DecidableEq, Repr

/-- `RTF_UP`. -/
def rtfUp : UInt32 := 1

/-- `RTF_GATEWAY`. -/
def rtfGateway : UInt32 := 2

/-- `RTF_HOST`. -/
def rtfHost : UInt32 := 4

/-- The header line, which `fscanf` skips; `none` at the end of the file. -/
def skipHeader : List UInt8 → Option (List UInt8)
  | [] => none
  | c :: s =>
    if c = 10 then some (c :: s) else some (((c :: s).dropWhile (· ≠ 10)).dropWhile isSpace)

/-- `fscanf`, for a row. -/
def routeRow : Reader Route := do
  let name ← skipping (wordMax 63)
  let dest ← skipping hexInt
  let gway ← skipping hexInt
  let flags ← skipping hexInt
  let refcnt ← skipping decInt
  let uses ← skipping decInt
  let metric ← skipping decInt
  let mask ← skipping hexInt
  let mtu ← skipping decInt
  let win ← skipping decInt
  let irtt ← skipping decInt
  let _ ← skipSpace
  return ⟨name, dest, gway, flags, refcnt, uses, metric, mask, mtu, win, irtt⟩

/-- There is less behind a row.

**Proof sketch.** The name takes at least one character, and no other conversion puts any back. -/
private lemma length_lt_of_routeRow {s rest : List UInt8} {r : Route}
    (h : routeRow s = .ok (some (r, rest))) : rest.length < s.length := by
  obtain ⟨name, mid, hname, hrest⟩ := bind_eq_some.mp h
  have hmid : mid.length < s.length :=
    Nat.lt_of_lt_of_le (length_lt_of_wordMax hname) (List.dropWhile_suffix isSpace).length_le
  refine Nat.lt_of_le_of_lt (Within.bind within_hexInt.skipping (fun dest => ?_) _ _ _ hrest) hmid
  refine within_hexInt.skipping.bind fun gway => ?_
  refine within_hexInt.skipping.bind fun flags => ?_
  refine within_decInt.skipping.bind fun refcnt => ?_
  refine within_decInt.skipping.bind fun uses => ?_
  refine within_decInt.skipping.bind fun metric => ?_
  refine within_hexInt.skipping.bind fun mask => ?_
  refine within_decInt.skipping.bind fun mtu => ?_
  refine within_decInt.skipping.bind fun win => ?_
  refine within_decInt.skipping.bind fun irtt => ?_
  exact within_skipSpace.bind fun _ => Within.pure _

/-- The rows that are read, and what is undefined after them, if anything is. -/
structure Scan where
  rows : List Route
  undefined : Option Undefined
  deriving DecidableEq, Repr

/-- The loop that reads the rows. -/
def scan (s : List UInt8) : Scan :=
  match _h : routeRow s with
  | .error e => ⟨[], some e⟩
  | .ok none => ⟨[], none⟩
  | .ok (some (r, rest)) =>
    let t := scan rest
    ⟨r :: t.rows, t.undefined⟩
termination_by s.length
decreasing_by exact length_lt_of_routeRow _h

/-- A row is read, and then the others. -/
private lemma scan_row {s rest : List UInt8} {r : Route} (h : routeRow s = .ok (some (r, rest))) :
    scan s = ⟨r :: (scan rest).rows, (scan rest).undefined⟩ := by
  rw [scan]
  split <;> simp_all

/-- Nothing is read behind the last row. -/
private lemma scan_end {s : List UInt8} (h : routeRow s = .ok none) : scan s = ⟨[], none⟩ := by
  rw [scan]
  split <;> simp_all

/-! ## Tables -/

/-- The words of a row: a name of at most 63 bytes, and numbers. -/
inductive Route.Words (r : Route) : List (List UInt8) → Prop
  | mk {dest gway flags refcnt uses metric mask mtu win irtt : List UInt8}
      (hname : IsWord r.name) (hlen : r.name.length ≤ 63) (hdest : IsHex dest r.dest)
      (hgway : IsHex gway r.gway) (hflags : IsHex flags r.flags) (hrefcnt : IsDec refcnt r.refcnt)
      (huses : IsDec uses r.uses) (hmetric : IsDec metric r.metric) (hmask : IsHex mask r.mask)
      (hmtu : IsDec mtu r.mtu) (hwin : IsDec win r.win) (hirtt : IsDec irtt r.irtt) :
      Words r [r.name, dest, gway, flags, refcnt, uses, metric, mask, mtu, win, irtt]

/-- The words of some rows. -/
inductive RowWords : List Route → List (List UInt8) → Prop
  | nil : RowWords [] []
  | cons {r : Route} {rs : List Route} {ws ws' : List (List UInt8)} (hr : r.Words ws)
      (h : RowWords rs ws') : RowWords (r :: rs) (ws ++ ws')

/-- **The text of a table**: a header line, and the words of the rows, with any white space behind
each of them. -/
def IsTable (rows : List Route) (s : List UInt8) : Prop :=
  ∃ header body ws, header ≠ [] ∧ 10 ∉ header ∧ s = header ++ 10 :: body ∧ Rest ws body ∧
    RowWords rows ws

/-- The words of a row are words. -/
lemma Route.Words.isWord {r : Route} {ws : List (List UInt8)} (h : r.Words ws) :
    ∀ w ∈ ws, IsWord w := by
  have hhex : ∀ {w n}, IsHex w n → IsWord w := fun h => Numeral.isWord (Nat.le_refl 16) h
  cases h with
  | mk hname hlen hdest hgway hflags hrefcnt huses hmetric hmask hmtu hwin hirtt =>
    simp only [List.forall_mem_cons]
    exact ⟨hname, hhex hdest, hhex hgway, hhex hflags, hrefcnt.isWord, huses.isWord,
      hmetric.isWord, hhex hmask, hmtu.isWord, hwin.isWord, hirtt.isWord, fun _ h => by cases h⟩

/-- A row has words, if its name is a word that is short enough. -/
lemma Route.exists_words {r : Route} (hname : IsWord r.name) (hlen : r.name.length ≤ 63) :
    ∃ ws, r.Words ws := by
  obtain ⟨dest, hdest⟩ := exists_isHex r.dest
  obtain ⟨gway, hgway⟩ := exists_isHex r.gway
  obtain ⟨flags, hflags⟩ := exists_isHex r.flags
  obtain ⟨refcnt, hrefcnt⟩ := exists_isDec r.refcnt
  obtain ⟨uses, huses⟩ := exists_isDec r.uses
  obtain ⟨metric, hmetric⟩ := exists_isDec r.metric
  obtain ⟨mask, hmask⟩ := exists_isHex r.mask
  obtain ⟨mtu, hmtu⟩ := exists_isDec r.mtu
  obtain ⟨win, hwin⟩ := exists_isDec r.win
  obtain ⟨irtt, hirtt⟩ := exists_isDec r.irtt
  exact ⟨_, .mk hname hlen hdest hgway hflags hrefcnt huses hmetric hmask hmtu hwin hirtt⟩

/-- **Any rows make a table**, if their names are words that are short enough.

**Proof sketch.** The words of the rows are laid out with blanks, below a header of one byte. -/
theorem exists_isTable {rows : List Route}
    (h : ∀ r ∈ rows, IsWord r.name ∧ r.name.length ≤ 63) : ∃ s, IsTable rows s := by
  have hwords : ∃ ws, RowWords rows ws ∧ ∀ w ∈ ws, IsWord w := by
    induction rows with
    | nil => exact ⟨[], .nil, by simp⟩
    | cons r rows ih =>
      obtain ⟨⟨hname, hlen⟩, hrows⟩ := List.forall_mem_cons.mp h
      obtain ⟨ws, hws⟩ := Route.exists_words hname hlen
      obtain ⟨ws', hws', hwords⟩ := ih hrows
      refine ⟨ws ++ ws', .cons hws hws', fun w hw => ?_⟩
      rcases List.mem_append.mp hw with hw | hw
      · exact hws.isWord w hw
      · exact hwords w hw
  obtain ⟨ws, hrows, hwords⟩ := hwords
  exact ⟨_, [73], ws.flatMap fun w => w ++ [32], ws, List.cons_ne_nil _ _, by decide, rfl,
    (spaced_blank hwords).rest, hrows⟩

/-- A row is read.

**Proof sketch.** The conversions one after another, each of which takes the next word. -/
private lemma routeRow_words {r : Route} {ws ws' : List (List UInt8)} (hr : r.Words ws)
    {s : List UInt8} (hs : Rest (ws ++ ws') s) :
    ∃ rest, Rest ws' rest ∧ routeRow s = .ok (some (r, rest)) := by
  cases hr with
  | mk hname hlen hdest hgway hflags hrefcnt huses hmetric hmask hmtu hwin hirtt =>
    obtain ⟨s₁, h₁, e₁⟩ := (takes_wordMax hname hlen).bind hs
    obtain ⟨s₂, h₂, e₂⟩ := (takes_hexInt hdest).bind h₁
    obtain ⟨s₃, h₃, e₃⟩ := (takes_hexInt hgway).bind h₂
    obtain ⟨s₄, h₄, e₄⟩ := (takes_hexInt hflags).bind h₃
    obtain ⟨s₅, h₅, e₅⟩ := (takes_decInt hrefcnt).bind h₄
    obtain ⟨s₆, h₆, e₆⟩ := (takes_decInt huses).bind h₅
    obtain ⟨s₇, h₇, e₇⟩ := (takes_decInt hmetric).bind h₆
    obtain ⟨s₈, h₈, e₈⟩ := (takes_hexInt hmask).bind h₇
    obtain ⟨s₉, h₉, e₉⟩ := (takes_decInt hmtu).bind h₈
    obtain ⟨s₁₀, h₁₀, e₁₀⟩ := (takes_decInt hwin).bind h₉
    obtain ⟨s₁₁, h₁₁, e₁₁⟩ := (takes_decInt hirtt).bind h₁₀
    obtain ⟨s₁₂, h₁₂, e₁₂⟩ := skipSpace_bind h₁₁
    refine ⟨s₁₂, h₁₂.rest, ?_⟩
    rw [routeRow, e₁, e₂, e₃, e₄, e₅, e₆, e₇, e₈, e₉, e₁₀, e₁₁, e₁₂]
    rfl

/-- Nothing but white space is no row. -/
private lemma routeRow_gap {s : List UInt8} (hs : Rest [] s) : routeRow s = .ok none := by
  obtain ⟨gap, s', hgap, hspaced, rfl⟩ := hs
  have hskip := dropWhile_isSpace hgap hspaced
  cases hspaced with
  | nil =>
    refine bind_of_none ?_ _
    rw [skipping, hskip]
    rfl

/-- The rows are read as they are, by induction on the rows. -/
private lemma scan_words {rows : List Route} {ws : List (List UInt8)} (h : RowWords rows ws)
    {s : List UInt8} (hs : Rest ws s) : scan s = ⟨rows, none⟩ := by
  induction h generalizing s with
  | nil => exact scan_end (routeRow_gap hs)
  | cons hr h ih =>
    obtain ⟨rest, hrest, hrow⟩ := routeRow_words hr hs
    rw [scan_row hrow, ih hrest]

/-- **A table is read** as it is.

**Proof sketch.** The header ends where its line does, and the rows are read from the words behind
it (`scan_words`). -/
theorem scan_table {rows : List Route} {s : List UInt8} (h : IsTable rows s) :
    ∃ body, skipHeader s = some body ∧ scan body = ⟨rows, none⟩ := by
  obtain ⟨header, body, ws, hne, hline, rfl, ⟨gap, s', hgap, hspaced, rfl⟩, hrows⟩ := h
  have hnewline : ∀ v ∈ header, decide (v ≠ 10) = true := by
    intro v hv
    rw [decide_eq_true_eq]
    rintro rfl
    exact hline hv
  have hdrop : (header ++ 10 :: (gap ++ s')).dropWhile (· ≠ 10) = 10 :: (gap ++ s') := by
    rw [List.dropWhile_append_of_pos hnewline]
    exact List.dropWhile_cons_of_neg (by simp)
  have hskip : skipHeader (header ++ 10 :: (gap ++ s')) = some s' := by
    obtain ⟨c, header, rfl⟩ := List.exists_cons_of_ne_nil hne
    have hc : c ≠ 10 := by simpa using hnewline c (by simp)
    rw [List.cons_append] at hdrop ⊢
    rw [skipHeader, if_neg hc, hdrop, ← List.cons_append]
    refine congrArg some (dropWhile_isSpace (fun v hv => ?_) hspaced)
    rcases List.mem_cons.mp hv with rfl | hv
    · rfl
    · exact hgap v hv
  exact ⟨s', hskip, scan_words hrows hspaced.rest⟩

end JzPretest.Netcfg

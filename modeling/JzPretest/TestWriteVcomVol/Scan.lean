import JzPretest.TestWriteVcomVol.Table
import Mathlib.Data.List.TakeWhile

set_option relaxedAutoImplicit false
set_option autoImplicit false

/-!
# The calls of the scanner

`scan_partition_info_emmc` goes through the table line by line, but each time it hands all that is
left of the table to `sscanf`. On a table of one line that is the line itself.

## Main definitions

* `JzPretest.Vcom.rests` — the text from each line on.
* `JzPretest.Vcom.Readable` — tables that are read as a whole.
* `JzPretest.Vcom.scanLines` — the scanner on each line of its own.

## Main results

* `JzPretest.Vcom.exists_reaches`, `JzPretest.Vcom.mem_rests_of_reaches` — the texts that the loop
  comes to.
* `JzPretest.Vcom.ends_scanPartitionInfo` — what the scanner leaves in `pinfo`.
* `JzPretest.Vcom.ends_scanLines` — what the scanner leaves when the lines are read one by one.
-/

namespace JzPretest.Vcom

/-! ## Lines and the text below them -/

/-- **Induction over the lines** of a text: one more line on top at each step. -/
@[elab_as_elim]
theorem eatLine_induction {P : List UInt8 → Prop} (nil : P [])
    (eat : ∀ s, s ≠ [] → P (eatLine s) → P s) (s : List UInt8) : P s := by
  obtain ⟨n, hn⟩ : ∃ n, s.length = n := ⟨_, rfl⟩
  induction n using Nat.strongRecOn generalizing s with
  | ind n ih =>
    by_cases hs : s = []
    · rw [hs]
      exact nil
    · exact eat s hs (ih _ (by rw [← hn]; exact length_eatLine_lt hs) _ rfl)

/-- The text from each line on. -/
def rests : List UInt8 → List (List UInt8)
  | [] => []
  | c :: s => (c :: s) :: if c = 10 then rests s else (rests s).tail

/-- The text itself comes first, and then the texts from the lines below on. -/
lemma rests_eq {s : List UInt8} (h : s ≠ []) : rests s = s :: rests (eatLine s) := by
  induction s with
  | nil => exact absurd rfl h
  | cons c s ih =>
    rw [rests]
    by_cases hc : c = 10
    · rw [if_pos hc, hc]
      rfl
    · rw [if_neg hc, eatLine_cons hc]
      by_cases hs : s = []
      · rw [hs]
        rfl
      · rw [ih hs, List.tail_cons]

/-- These texts are ends of the whole text. -/
theorem suffix_of_mem_rests {s r : List UInt8} (h : r ∈ rests s) : r <:+ s ∧ r ≠ [] := by
  induction s using eatLine_induction with
  | nil => exact absurd h List.not_mem_nil
  | eat s hs ih =>
    rw [rests_eq hs, List.mem_cons] at h
    rcases h with rfl | h
    · exact ⟨List.suffix_rfl, hs⟩
    · obtain ⟨hr, hne⟩ := ih h
      exact ⟨hr.trans ((List.tail_suffix _).trans (List.dropWhile_suffix _)), hne⟩

/-- The lines are the first lines of these texts. -/
theorem map_firstLine_rests (s : List UInt8) : (rests s).map firstLine = splitLines s := by
  induction s using eatLine_induction with
  | nil => rfl
  | eat s hs ih => rw [rests_eq hs, splitLines_eq hs, List.map_cons, ih]

/-! ## What the scanner leaves in `pinfo` -/

section Scanner

variable (partsAlloc : ℤ)

/-- What the loop does to `pinfo` when there are four matches. -/
def stored (e : Entry) (pinfo : ℤ → Partition) : ℤ → Partition :=
  (storeEntry partsAlloc e ⟨pinfo, [], [], 0⟩).pinfo

/-- It depends on nothing else. -/
private lemma storeEntry_pinfo (e : Entry) (v : State) :
    (storeEntry partsAlloc e v).pinfo = stored partsAlloc e v.pinfo := by
  unfold stored storeEntry
  split_ifs <;> rfl

/-- What a call of `sscanf` on this text does to `pinfo`. -/
def scanText (pinfo : ℤ → Partition) (s : List UInt8) : Except Undefined (ℤ → Partition) :=
  (sscanf s).map fun r => r.elim pinfo fun e => stored partsAlloc e pinfo

/-- **A pass** of the loop calls `sscanf` on the text from a line on, and eats that line. -/
theorem ends_scanPass {s : List UInt8} (h0 : 0 ∉ s) (hs : s ≠ []) (past : List UInt8) (v : State) :
    (scanPass partsAlloc (0 :: past) (s, v)).Ends fun x =>
      x = (sscanf s).map fun r =>
        .again (eatLine s, r.elim v fun e => storeEntry partsAlloc e v) := by
  obtain ⟨c, t, rfl⟩ := List.exists_cons_of_ne_nil hs
  rw [scanPass, Prog.ends_bind, Prog.ends_liftM, cString_append h0, Prog.andThen_ok, Prog.ends_bind,
    Prog.ends_liftM]
  rcases sscanf (c :: t) with u | (_ | e)
  · rfl
  · exact (Prog.ends_pure _).mpr rfl
  · exact (Prog.ends_pure _).mpr rfl

variable {partsAlloc}

/-- The end of a string is not in the lines below its first one either. -/
lemma nul_notMem_eatLine {s : List UInt8} (h0 : 0 ∉ s) : 0 ∉ eatLine s :=
  fun h => h0 ((List.dropWhile_suffix _).subset (List.mem_of_mem_tail h))

/-- **The loop** calls `sscanf` on the text from each line on.

**Proof sketch.** Induction over the lines, with `ends_scanPass` for the first one. -/
theorem ends_scanLoop {s : List UInt8} (h0 : 0 ∉ s) (past : List UInt8) (v : State) :
    (Prog.loop (scanPass partsAlloc (0 :: past)) (s, v)).Ends fun x =>
      x.map State.pinfo = (rests s).foldlM (scanText partsAlloc) v.pinfo := by
  induction s using eatLine_induction generalizing v with
  | nil =>
    rw [Prog.ends_loop]
    exact (Prog.ends_pure _).mpr rfl
  | eat s hs ih =>
    rw [Prog.ends_loop]
    refine (ends_scanPass partsAlloc h0 hs past v).imp ?_
    rintro _ rfl
    rw [rests_eq hs, List.foldlM_cons, scanText]
    rcases sscanf s with u | (_ | e)
    · rfl
    · exact ih (nul_notMem_eatLine h0) v
    · refine (ih (nul_notMem_eatLine h0) (storeEntry partsAlloc e v)).imp fun x hx => ?_
      rw [hx, storeEntry_pinfo]
      rfl

/-- **The loop comes to the text from a line on**, in some state, as long as it does not fault
before.

**Proof sketch.** Induction over the lines: the pass on the first one goes on to the next one. -/
theorem exists_reaches {s : List UInt8} (h0 : 0 ∉ s) (past : List UInt8)
    (hdef : ∀ r ∈ rests s, ∃ x, sscanf r = .ok x) {r : List UInt8} (hr : r ∈ rests s) (v : State) :
    ∃ w, Prog.Reaches (scanPass partsAlloc (0 :: past)) (s, v) (r, w) := by
  induction s using eatLine_induction generalizing v with
  | nil => exact absurd hr List.not_mem_nil
  | eat s hs ih =>
    rw [rests_eq hs] at hdef hr
    obtain ⟨⟨x, hx⟩, hdef⟩ := List.forall_mem_cons.mp hdef
    have hpass := ends_scanPass partsAlloc h0 hs past v
    rw [hx] at hpass
    rcases List.mem_cons.mp hr with rfl | hr
    · exact ⟨v, (Prog.reaches_iff_of_again hpass).mpr (.inl rfl)⟩
    · obtain ⟨w, hw⟩ := ih (nul_notMem_eatLine h0) hdef hr _
      exact ⟨w, (Prog.reaches_iff_of_again hpass).mpr (.inr hw)⟩

/-- **It comes to no other text**, but to the empty one in the end.

**Proof sketch.** Induction on the text, a line at a time: a pass calls `sscanf` on what is left and
goes on behind its first line, unless the call is undefined. -/
theorem mem_rests_of_reaches {s : List UInt8} (h0 : 0 ∉ s) (past : List UInt8) {r : List UInt8}
    {v w : State} (h : Prog.Reaches (scanPass partsAlloc (0 :: past)) (s, v) (r, w)) (hr : r ≠ []) :
    r ∈ rests s := by
  induction s using eatLine_induction generalizing v with
  | nil =>
    have hleave : (scanPass partsAlloc (0 :: past) ([], v)).Always fun x =>
        ∀ s', x ≠ .ok (.again s') := (Prog.always_pure _).mpr fun s' heq => by cases heq
    obtain ⟨rfl, -⟩ := Prod.mk.inj ((Prog.reaches_iff_of_not_again hleave).mp h)
    exact absurd rfl hr
  | eat s hs ih =>
    have hpass := ends_scanPass partsAlloc h0 hs past v
    rw [rests_eq hs, List.mem_cons]
    cases hx : sscanf s with
    | error u =>
      rw [hx] at hpass
      have hfault : (scanPass partsAlloc (0 :: past) (s, v)).Always fun x =>
          ∀ s', x ≠ .ok (.again s') := hpass.always.imp fun x hx s' heq => by
        rw [hx] at heq
        cases heq
      obtain ⟨rfl, -⟩ := Prod.mk.inj ((Prog.reaches_iff_of_not_again hfault).mp h)
      exact .inl rfl
    | ok x =>
      rw [hx] at hpass
      rcases (Prog.reaches_iff_of_again hpass).mp h with heq | h
      · exact .inl (Prod.mk.inj heq).1.symm
      · exact .inr (ih (nul_notMem_eatLine h0) h)

/-- Reading the entries does not change them. -/
private lemma foldl_touch_pinfo (is : List ℤ) (v : State) :
    (is.foldl (fun v i => v.touch i) v).pinfo = v.pinfo := by
  induction is generalizing v with
  | nil => rfl
  | cons i is ih => rw [List.foldl_cons, ih]; rfl

/-- The table is read as a whole, into a buffer that it does not fill. -/
structure Readable (env : Env) (table : List UInt8) : Prop where
  lineBuffer : env.lineBuffer = true
  openTable : env.openTable = true
  readTable : ∃ n, env.readTable = some n ∧ table.length ≤ n
  length_lt : table.length < largeBufLen
  nul_notMem : 0 ∉ table

/-- There is the end of a string behind the table. -/
theorem Readable.exists_past {env : Env} {table : List UInt8} (h : Readable env table) :
    ∃ past : List UInt8, List.replicate (largeBufLen - table.length) 0 = 0 :: past := by
  have hlt := h.length_lt
  obtain ⟨k, hk⟩ : ∃ k, largeBufLen - table.length = k + 1 :=
    ⟨largeBufLen - table.length - 1, by omega⟩
  exact ⟨List.replicate k 0, by rw [hk, List.replicate_succ]⟩

/-- **The scanner** calls `sscanf` on the text from each line on.

**Proof sketch.** The table is read in full, with a zero behind it; the loop is `ends_scanLoop`, and
printing the entries changes none of them. -/
theorem ends_scanPartitionInfo {env : Env} {table : List UInt8} (h : Readable env table)
    (v : State) :
    (scanPartitionInfoEmmc env table partsAlloc v).Ends fun x =>
      x.map (fun r => r.2.pinfo) = (rests table).foldlM (scanText partsAlloc) v.pinfo := by
  obtain ⟨n, hread, hn⟩ := h.readTable
  have hlt := h.length_lt
  have hbuf : table.take (min n largeBufLen) = table := List.take_of_length_le (by omega)
  obtain ⟨past, hpast⟩ := h.exists_past
  unfold scanPartitionInfoEmmc
  rw [h.lineBuffer, if_neg (by decide), h.openTable, if_neg (by decide), hread]
  dsimp only
  rw [hbuf, hpast, Prog.ends_bind]
  refine (ends_scanLoop h.nul_notMem _ v).imp fun x hx => ?_
  cases x with
  | error e => exact hx
  | ok v' =>
    rw [Prog.andThen_ok, Prog.ends_pure, ← hx]
    exact congrArg Except.ok (foldl_touch_pinfo _ v')

end Scanner

/-! ## The scanner on each line -/

section Lines

variable {partsAlloc : ℤ} {env : Env}

/-- **The scanner on each line** of its own, one after the other. -/
def scanLines (env : Env) (lines : List (List UInt8)) (partsAlloc : ℤ) (v : State) :
    Prog Undefined State :=
  lines.foldlM (fun v line => Prod.snd <$> scanPartitionInfoEmmc env line partsAlloc v) v

/-- A line has nothing below it. -/
private lemma rests_line {line : List UInt8} (h : 10 ∉ line) :
    rests line = if line = [] then [] else [line] := by
  split_ifs with hnil
  · rw [hnil]
    rfl
  · have heat : eatLine line = [] := by
      rw [eatLine, List.dropWhile_eq_nil_iff.mpr]
      · rfl
      · intro c hc
        rw [decide_eq_true_eq]
        rintro rfl
        exact h hc
    rw [rests_eq hnil, heat]
    rfl

/-- A line of a table that can be read can be read. -/
theorem Readable.line {table line : List UInt8} (h : Readable env table)
    (hline : line ∈ splitLines table) : Readable env line ∧ 10 ∉ line := by
  rw [← map_firstLine_rests] at hline
  obtain ⟨r, hr, rfl⟩ := List.mem_map.mp hline
  have hsuffix := (suffix_of_mem_rests hr).1
  have hpre : firstLine r <+: r := List.takeWhile_prefix _
  have hle : (firstLine r).length ≤ table.length := hpre.length_le.trans hsuffix.length_le
  obtain ⟨n, hread, hn⟩ := h.readTable
  refine ⟨⟨h.lineBuffer, h.openTable, ⟨n, hread, hle.trans hn⟩, ?_, ?_⟩, ten_notMem_firstLine r⟩
  · exact Nat.lt_of_le_of_lt hle h.length_lt
  · exact fun h0 => h.nul_notMem (hsuffix.subset (hpre.subset h0))

/-- Nothing is converted from a text that is empty. -/
private lemma sscanf_nil : sscanf [] = .ok none := rfl

/-- **The scanner on each line** calls `sscanf` on each line.

**Proof sketch.** Induction on the lines: a text of one line has no other rest, so the scanner calls
`sscanf` on it once. -/
theorem ends_scanLines {lines : List (List UInt8)}
    (h : ∀ line ∈ lines, Readable env line ∧ 10 ∉ line) (v : State) :
    (scanLines env lines partsAlloc v).Ends fun x =>
      x.map State.pinfo = lines.foldlM (scanText partsAlloc) v.pinfo := by
  unfold scanLines
  induction lines generalizing v with
  | nil => exact (Prog.ends_pure _).mpr rfl
  | cons line lines ih =>
    obtain ⟨⟨hline, hten⟩, hlines⟩ := List.forall_mem_cons.mp h
    have hscan : (rests line).foldlM (scanText partsAlloc) v.pinfo =
        scanText partsAlloc v.pinfo line := by
      rw [rests_line hten]
      split_ifs with hnil
      · rw [hnil, scanText, sscanf_nil]
        rfl
      · rw [List.foldlM_cons]
        exact bind_pure _
    rw [List.foldlM_cons, List.foldlM_cons, map_eq_pure_bind, Prog.ends_bind, Prog.ends_bind]
    refine (ends_scanPartitionInfo hline v).imp fun x hx => ?_
    rw [hscan] at hx
    rw [← hx]
    cases x with
    | error e => rfl
    | ok r => exact (Prog.ends_pure _).mpr (ih hlines r.2)

end Lines

end JzPretest.Vcom

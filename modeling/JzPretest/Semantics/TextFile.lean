import JzPretest.Semantics.CString
import Mathlib.Data.List.TakeWhile

set_option relaxedAutoImplicit false
set_option autoImplicit false

/-!
# Reading a text by lines

`fgets` reads up to the end of a line, but no more than its array holds, so that a long line comes
in several pieces.

## Main definitions

* `JzPretest.fgets` — one call.
* `JzPretest.pieces` — what the calls return one after another; `JzPretest.feofAfter` — `feof` then.
* `JzPretest.lines` — the lines of a text, with their ends.
* `JzPretest.rows` — a loop that reads up to so many rows; `JzPretest.Unfinished` — texts whose last
  line has no end.

## Main results

* `JzPretest.pieces_eq_fgets` — the pieces are what the calls return.
* `JzPretest.endsLast_pieces` — the end of the text is seen only with the last piece.
* `JzPretest.pieces_eq_lines` — lines that fit come whole.
* `JzPretest.lines_append` — the lines of two texts.
* `JzPretest.rows_lines` — what such a loop does to a text with lines that fit.
-/

namespace JzPretest

/-! ## Pieces -/

/-- The characters up to the next end of a line, but no more than `k`. -/
def piece : ℕ → List UInt8 → List UInt8
  | 0, _ => []
  | _ + 1, [] => []
  | k + 1, c :: s => if c = 10 then [c] else c :: piece k s

/-- `fgets` with an array of `k + 1` characters: the string, `none` for `NULL`, and what is left of
the text. -/
def fgets (k : ℕ) (s : List UInt8) : Option (List UInt8) × List UInt8 :=
  if s = [] then (none, []) else (some (piece k s), s.drop (piece k s).length)

/-- A character before the first of some pieces. -/
def consHead (c : UInt8) : List (List UInt8) → List (List UInt8)
  | [] => [[c]]
  | p :: ps => (c :: p) :: ps

/-- A text in pieces of at most `k` characters that end where a line ends; the first of them has
only `room` characters. -/
def piecesFrom (k : ℕ) : ℕ → List UInt8 → List (List UInt8)
  | _, [] => []
  | room, c :: s =>
    if c = 10 ∨ room = 1 then [c] :: piecesFrom k k s else consHead c (piecesFrom k (room - 1) s)

/-- What `fgets` with an array of `k + 1` characters returns on one call after another. -/
def pieces (k : ℕ) (s : List UInt8) : List (List UInt8) := piecesFrom k k s

/-- `feof` when `fgets` has returned this piece: it has looked for a character behind the text. -/
def feofAfter (k : ℕ) (p : List UInt8) : Bool := p.length < k ∧ p.getLast? ≠ some 10

/-- The lines of a text, each with its end. -/
def lines : List UInt8 → List (List UInt8)
  | [] => []
  | c :: s => if c = 10 then [c] :: lines s else consHead c (lines s)

/-- The first piece, and the pieces of what is behind it.

**Proof sketch.** Induction on the text. A piece ends with the room or with a line, and the room is
as large again for the next one. -/
lemma piecesFrom_eq_piece (k : ℕ) {room : ℕ} (hroom : 0 < room) {s : List UInt8} (hs : s ≠ []) :
    piecesFrom k room s =
      piece room s :: piecesFrom k k (s.drop (piece room s).length) := by
  induction s generalizing room with
  | nil => exact absurd rfl hs
  | cons c s ih =>
    obtain ⟨room, rfl⟩ := Nat.exists_eq_add_one_of_ne_zero (Nat.pos_iff_ne_zero.mp hroom)
    rw [piecesFrom, piece]
    by_cases hc : c = 10
    · rw [if_pos (Or.inl hc), if_pos hc]
      rfl
    · rw [if_neg hc]
      cases room with
      | zero => rw [if_pos (Or.inr rfl)]; rfl
      | succ room =>
        rw [if_neg (not_or.mpr ⟨hc, by omega⟩), Nat.add_sub_cancel]
        cases s with
        | nil => rfl
        | cons d s =>
          rw [ih (Nat.succ_pos room) (by simp)]
          rfl

/-- **The pieces are what the calls return**, as long as there is something to read. -/
theorem pieces_eq_fgets {k : ℕ} (hk : 0 < k) (s : List UInt8) :
    pieces k s =
      match fgets k s with
      | (none, _) => []
      | (some p, rest) => p :: pieces k rest := by
  by_cases hs : s = []
  · subst hs
    rfl
  · rw [fgets, if_neg hs]
    exact piecesFrom_eq_piece k hk hs

/-- A piece is the beginning of the text, and ends where it is full or the line ends, unless the
text does.

**Proof sketch.** Induction on the room: the piece stops at the end of a line, goes on with the next
character, or is full. -/
lemma exists_eq_piece_append (k : ℕ) (s : List UInt8) :
    ∃ rest, s = piece k s ++ rest ∧
      (rest = [] ∨ (piece k s).length = k ∨ (piece k s).getLast? = some 10) := by
  induction k generalizing s with
  | zero => exact ⟨s, rfl, Or.inr (Or.inl rfl)⟩
  | succ k ih =>
    cases s with
    | nil => exact ⟨[], rfl, Or.inl rfl⟩
    | cons c s =>
      rw [piece]
      split_ifs with hc
      · exact ⟨s, rfl, Or.inr (Or.inr (by rw [hc]; rfl))⟩
      · obtain ⟨rest, hs, hrest⟩ := ih s
        refine ⟨rest, congrArg (c :: ·) hs, hrest.imp_right (Or.imp (congrArg (· + 1)) fun h => ?_)⟩
        cases hp : piece k s with
        | nil => exact absurd (hp ▸ h) (by simp)
        | cons d p => rw [List.getLast?_cons_cons, ← hp, h]

/-- A piece of something is something. -/
lemma piece_ne_nil {k : ℕ} (hk : 0 < k) {s : List UInt8} (hs : s ≠ []) : piece k s ≠ [] := by
  obtain ⟨k, rfl⟩ := Nat.exists_eq_add_one_of_ne_zero (Nat.pos_iff_ne_zero.mp hk)
  cases s with
  | nil => exact absurd rfl hs
  | cons c s =>
    rw [piece]
    split_ifs <;> simp

/-- The end of the text is seen with no piece but the last one. -/
def EndsLast (k : ℕ) : List (List UInt8) → Prop
  | p :: q :: ps => feofAfter k p = false ∧ EndsLast k (q :: ps)
  | _ => True

/-- **`feof`** is false as long as there is something left.

**Proof sketch.** Strong induction on the length of the text. The first piece is full or ends a line
when something is left, so `feof` is false behind it, and the rest is shorter. -/
theorem endsLast_pieces {k : ℕ} (hk : 0 < k) (s : List UInt8) : EndsLast k (pieces k s) := by
  induction hn : s.length using Nat.strong_induction_on generalizing s with
  | _ n ih =>
    by_cases hs : s = []
    · subst hs
      trivial
    · obtain ⟨rest, heq, hfull⟩ := exists_eq_piece_append k s
      have hpieces : pieces k s = piece k s :: pieces k rest := by
        have hdrop := congrArg (List.drop (piece k s).length) heq
        rw [List.drop_left] at hdrop
        rw [pieces, piecesFrom_eq_piece k hk hs, hdrop, pieces]
      have hpos := List.length_pos_of_ne_nil (piece_ne_nil hk hs)
      have hlen := congrArg List.length heq
      rw [List.length_append] at hlen
      have hrest := ih rest.length (by omega) rest rfl
      rw [hpieces]
      cases hq : pieces k rest with
      | nil => trivial
      | cons q ps =>
        have hne : rest ≠ [] := by
          rintro rfl
          exact absurd hq (by simp [pieces, piecesFrom])
        refine ⟨?_, hq ▸ hrest⟩
        rcases hfull with hnil | hfull | hend
        · exact absurd hnil hne
        · simp [feofAfter, hfull]
        · simp [feofAfter, hend]

/-! ## Lines -/

/-- There is a line, with the byte in it. -/
lemma consHead_ne_nil (c : UInt8) (ps : List (List UInt8)) : consHead c ps ≠ [] := by
  cases ps <;> simp [consHead]

/-- The byte goes into the first of the lines. -/
lemma consHead_append (c : UInt8) {ps : List (List UInt8)} (h : ps ≠ [])
    (qs : List (List UInt8)) :
    consHead c (ps ++ qs) = consHead c ps ++ qs := by
  cases ps with
  | nil => exact absurd rfl h
  | cons p ps => rfl

/-- A text that is not empty has a line. -/
lemma lines_ne_nil {s : List UInt8} (h : s ≠ []) : lines s ≠ [] := by
  cases s with
  | nil => exact absurd rfl h
  | cons c s =>
    rw [lines]
    split_ifs
    · simp
    · exact consHead_ne_nil c _

/-- No line is empty, when a byte has been put in front of the first one. -/
lemma ne_nil_of_mem_consHead {c : UInt8} {ps : List (List UInt8)} (hps : ∀ p ∈ ps, p ≠ [])
    {p : List UInt8} (h : p ∈ consHead c ps) : p ≠ [] := by
  cases ps with
  | nil =>
    obtain rfl := List.mem_singleton.mp h
    simp
  | cons q ps =>
    rcases List.mem_cons.mp h with rfl | h
    · simp
    · exact hps p (List.mem_cons_of_mem q h)

/-- No line of a text is empty. -/
lemma ne_nil_of_mem_lines {s l : List UInt8} (h : l ∈ lines s) : l ≠ [] := by
  induction s generalizing l with
  | nil => exact absurd h (by simp [lines])
  | cons c s ih =>
    rw [lines] at h
    split_ifs at h
    · rcases List.mem_cons.mp h with rfl | h
      · simp
      · exact ih h
    · exact ne_nil_of_mem_consHead (fun l hl => ih hl) h

/-- A text that ends where a line ends, and what follows it.

**Proof sketch.** Induction on the text: an end of a line begins a new line in both, any other
character is put before the first line of the rest. -/
theorem lines_append {s : List UInt8} (hs : s.getLast? = some 10) (t : List UInt8) :
    lines (s ++ t) = lines s ++ lines t := by
  induction s with
  | nil => exact absurd hs (by simp)
  | cons c s ih =>
    rw [List.cons_append, lines, lines]
    cases s with
    | nil =>
      obtain rfl : c = 10 := by simpa using hs
      rw [if_pos rfl, if_pos rfl]
      rfl
    | cons d s =>
      rw [List.getLast?_cons_cons] at hs
      rw [ih hs]
      split_ifs
      · rfl
      · exact consHead_append c (lines_ne_nil (by simp)) _

/-- One line. -/
theorem lines_line {l : List UInt8} (hl : 10 ∉ l) : lines (l ++ [10]) = [l ++ [10]] := by
  induction l with
  | nil => rfl
  | cons c l ih =>
    obtain ⟨hc, hl⟩ := List.ne_and_not_mem_of_not_mem_cons hl
    rw [List.cons_append, lines, if_neg (Ne.symm hc), ih hl]
    rfl

/-- Lines that fit come whole, also when the array has only room for the first of them.

**Proof sketch.** Induction on the text. At the end of a line the room is full again; any other
character takes up one place, which the first line of the rest leaves free. -/
lemma piecesFrom_eq_lines {k : ℕ} {s : List UInt8} (h : ∀ l ∈ lines s, l.length ≤ k) {room : ℕ}
    (hroom : ∀ l, (lines s).head? = some l → l.length ≤ room) :
    piecesFrom k room s = lines s := by
  induction s generalizing room with
  | nil => rfl
  | cons c s ih =>
    rw [piecesFrom]
    by_cases hc : c = 10
    · rw [lines, if_pos hc] at h ⊢
      have hrest := List.forall_mem_cons.mp h
      rw [if_pos (Or.inl hc), ih hrest.2 fun l hl => hrest.2 l (List.mem_of_head? hl)]
    · rw [lines, if_neg hc] at h hroom ⊢
      cases hs : lines s with
      | nil =>
        have hnil : s = [] := by
          by_contra hne
          exact lines_ne_nil hne hs
        subst hnil
        split_ifs
        · rfl
        · rfl
      | cons l ls =>
        rw [hs] at h hroom ih
        have hl : l ≠ [] := ne_nil_of_mem_lines (hs ▸ List.mem_cons_self)
        have hpos := List.length_pos_of_ne_nil hl
        obtain ⟨hfirst, hrest⟩ := List.forall_mem_cons.mp h
        have hlen := hroom (c :: l) rfl
        rw [List.length_cons] at hfirst hlen
        have hkept : ∀ l' ∈ l :: ls, l'.length ≤ k :=
          List.forall_mem_cons.mpr ⟨by omega, hrest⟩
        have hless : ∀ l', (l :: ls).head? = some l' → l'.length ≤ room - 1 := by
          intro l' hl'
          obtain rfl := Option.some.inj hl'
          omega
        rw [if_neg (not_or.mpr ⟨hc, by omega⟩), ih hkept hless]

/-- **Lines that fit come whole**. -/
theorem pieces_eq_lines {k : ℕ} {s : List UInt8} (h : ∀ l ∈ lines s, l.length ≤ k) :
    pieces k s = lines s :=
  piecesFrom_eq_lines h fun l hl => h l (List.mem_of_head? hl)

/-- Lines with fewer than `n` characters, not counting their ends. -/
def LinesShorter (n : ℕ) (s : List UInt8) : Prop :=
  ∀ l ∈ lines s, (l.takeWhile (· ≠ 10)).length < n

/-- The last line of the text has no end. -/
def Unfinished (s : List UInt8) : Prop := s ≠ [] ∧ s.getLast? ≠ some 10

instance (n : ℕ) (s : List UInt8) : Decidable (LinesShorter n s) :=
  inferInstanceAs (Decidable (∀ _ ∈ _, _))

instance (s : List UInt8) : Decidable (Unfinished s) := inferInstanceAs (Decidable (_ ∧ _))

/-- A line, when a byte has been put in front of the first one. -/
lemma mem_consHead {c : UInt8} {ps : List (List UInt8)} {p : List UInt8}
    (h : p ∈ consHead c ps) : (∃ q, p = c :: q ∧ (q ∈ ps ∨ q = [])) ∨ p ∈ ps := by
  cases ps with
  | nil => exact Or.inl ⟨[], List.mem_singleton.mp h, Or.inr rfl⟩
  | cons q ps =>
    rcases List.mem_cons.mp h with rfl | h
    · exact Or.inl ⟨q, rfl, Or.inl List.mem_cons_self⟩
    · exact Or.inr (List.mem_cons_of_mem q h)

/-- The end of a line stands at its end only. -/
lemma line_eq {s l : List UInt8} (h : l ∈ lines s) : ∃ q, 10 ∉ q ∧ (l = q ∨ l = q ++ [10]) := by
  induction s generalizing l with
  | nil => exact absurd h (by simp [lines])
  | cons c s ih =>
    rw [lines] at h
    split_ifs at h with hc
    · rcases List.mem_cons.mp h with rfl | h
      · exact ⟨[], by simp, Or.inr (by rw [hc]; rfl)⟩
      · exact ih h
    · rcases mem_consHead h with ⟨q, rfl, hq | rfl⟩ | h
      · obtain ⟨q', hq', rfl | rfl⟩ := ih hq
        · exact ⟨c :: q, by simp [Ne.symm hc, hq'], Or.inl rfl⟩
        · exact ⟨c :: q', by simp [Ne.symm hc, hq'], Or.inr rfl⟩
      · exact ⟨[c], by simp [Ne.symm hc], Or.inl rfl⟩
      · exact ih h

/-- What `fgets` makes of a short line: it fits, and `feof` is true behind it if it has no end. -/
lemma LinesShorter.line {k : ℕ} {s l : List UInt8} (h : LinesShorter k s) (hl : l ∈ lines s) :
    l.length ≤ k ∧ (feofAfter k l = true ↔ l.getLast? ≠ some 10) := by
  have hlt := h l hl
  obtain ⟨q, hq, rfl | rfl⟩ := line_eq hl
  · have hne : ∀ c ∈ l, decide (c ≠ 10) = true := fun c hc =>
      decide_eq_true (ne_of_mem_of_not_mem hc hq)
    rw [List.takeWhile_eq_self_iff.mpr hne] at hlt
    exact ⟨hlt.le, by simp [feofAfter, hlt]⟩
  · have hne : ∀ c ∈ q, decide (c ≠ 10) = true := fun c hc =>
      decide_eq_true (ne_of_mem_of_not_mem hc hq)
    rw [List.takeWhile_append_of_pos hne, List.takeWhile_cons_of_neg (by simp),
      List.append_nil] at hlt
    refine ⟨by rw [List.length_append]; exact hlt, by simp [feofAfter]⟩

/-- The last byte of the last line, when a byte has been put in front of the first one. -/
lemma getLast?_consHead (c : UInt8) {ps : List (List UInt8)} (hps : ∀ p ∈ ps, p ≠ []) :
    (consHead c ps).getLast?.bind List.getLast? =
      (if ps = [] then some c else ps.getLast?.bind List.getLast?) := by
  match ps with
  | [] => rfl
  | [p] =>
    have hp := hps p List.mem_cons_self
    rw [if_neg (by simp)]
    obtain ⟨d, p, rfl⟩ := List.exists_cons_of_ne_nil hp
    exact List.getLast?_cons_cons
  | p :: q :: ps =>
    rw [if_neg (by simp), consHead, List.getLast?_cons_cons, List.getLast?_cons_cons]

/-- A text ends as its last line does.

**Proof sketch.** Induction on the text: putting a character before a line does not change how the
last one ends. -/
lemma getLast?_lines (s : List UInt8) : (lines s).getLast?.bind List.getLast? = s.getLast? := by
  induction s with
  | nil => rfl
  | cons c s ih =>
    rw [lines]
    cases s with
    | nil =>
      split_ifs
      · rfl
      · rfl
    | cons d s =>
      have hne := lines_ne_nil (List.cons_ne_nil d s)
      rw [List.getLast?_cons_cons, ← ih]
      split_ifs
      · obtain ⟨l, ls, hls⟩ := List.exists_cons_of_ne_nil hne
        rw [hls, List.getLast?_cons_cons]
      · rw [getLast?_consHead c fun p hp => ne_nil_of_mem_lines hp, if_neg hne]

/-- The byte makes a line if there is none. -/
lemma length_consHead (c : UInt8) (ps : List (List UInt8)) :
    (consHead c ps).length = max 1 ps.length := by
  cases ps with
  | nil => rfl
  | cons p ps => exact (Nat.max_eq_right (Nat.le_add_left 1 _)).symm

/-- **How many lines there are**: as many as ends of lines, and one that has no end.

**Proof sketch.** Induction on the text. The end of a line counts as one line; any other character
begins a line only where nothing follows it. -/
theorem length_lines (s : List UInt8) :
    (lines s).length = s.count 10 + if Unfinished s then 1 else 0 := by
  induction s with
  | nil => rfl
  | cons c s ih =>
    rw [lines]
    cases s with
    | nil =>
      by_cases hc : c = 10
      · subst hc
        rfl
      · rw [if_neg hc, if_pos ⟨by simp, by simpa using hc⟩, List.count_cons_of_ne hc]
        rfl
    | cons d s =>
      have hun : Unfinished (c :: d :: s) ↔ Unfinished (d :: s) := by
        simp [Unfinished, List.getLast?_cons_cons]
      have hpos := List.length_pos_of_ne_nil (lines_ne_nil (List.cons_ne_nil d s))
      simp only [hun]
      by_cases hc : c = 10
      · rw [if_pos hc, List.length_cons, ih, hc, List.count_cons_self]
        omega
      · rw [if_neg hc, length_consHead, Nat.max_eq_right hpos, ih, List.count_cons_of_ne hc]

/-! ## Loops over rows -/

section Rows

variable {σ ρ : Type} {k : ℕ} {null : ℕ → σ → Except ρ σ} {body : σ → List UInt8 → Except ρ σ}

/-- A loop that reads up to so many rows with `fgets`. The body may leave the function, and so may
what is done when `fgets` returns `NULL`, which depends on how many rows would follow. The loop
stops when `feof` is true. -/
def rows (k : ℕ) (null : ℕ → σ → Except ρ σ) (body : σ → List UInt8 → Except ρ σ) :
    ℕ → σ → List (List UInt8) → Except ρ σ
  | 0, s, _ => .ok s
  | n + 1, s, [] => null n s
  | n + 1, s, buf :: ps => do
    let s ← body s buf
    if feofAfter k buf then return s else rows k null body n s ps

/-- The end of the text is seen with none of the pieces if not with the last one. -/
lemma EndsLast.forall_eq_false {ps : List (List UInt8)} (h : EndsLast k ps)
    (hlast : ∀ p ∈ ps.getLast?, feofAfter k p = false) : ∀ p ∈ ps, feofAfter k p = false := by
  induction ps with
  | nil => simp
  | cons p ps ih =>
    cases ps with
    | nil => exact List.forall_mem_singleton.mpr (hlast p rfl)
    | cons q ps =>
      rw [List.getLast?_cons_cons] at hlast
      exact List.forall_mem_cons.mpr ⟨h.1, ih h.2 hlast⟩

/-- **All rows**, or all of a text of which the end has been seen with the last one.

**Proof sketch.** Induction on the pieces. The end of the text is not seen before the last piece, so
the loop goes on until its passes or the pieces are used up. -/
theorem rows_of_covered {ps : List (List UInt8)} (h : EndsLast k ps) {n : ℕ} (s : σ)
    (hn : n ≤ ps.length ∨ ps.getLast?.any (feofAfter k) = true) :
    rows k null body n s ps = (ps.take n).foldlM body s := by
  induction ps generalizing n s with
  | nil =>
    obtain rfl : n = 0 := by simpa using hn
    rfl
  | cons p ps ih =>
    cases n with
    | zero => rfl
    | succ n =>
      rw [rows, List.take_succ_cons, List.foldlM_cons]
      cases body s p with
      | error e => rfl
      | ok s =>
        change (if feofAfter k p = true then pure s else rows k null body n s ps) = _
        cases ps with
        | nil =>
          split_ifs with hfeof
          · rw [List.take_nil]
            rfl
          · obtain rfl : n = 0 := by simpa [hfeof] using hn
            rfl
        | cons q ps =>
          rw [List.getLast?_cons_cons, List.length_cons, Nat.add_le_add_iff_right] at hn
          rw [h.1, if_neg (by decide)]
          exact ih h.2 s hn

/-- **Too few rows**, and the end of the text has not been seen with the last one.

**Proof sketch.** Induction on the pieces: no pass sees the end of the text, so all of them are
taken and `fgets` returns `NULL` in the next pass. -/
theorem rows_of_short {ps : List (List UInt8)} {n : ℕ} (s : σ) (hn : ps.length < n)
    (hfeof : ∀ p ∈ ps, feofAfter k p = false) :
    rows k null body n s ps = ps.foldlM body s >>= null (n - ps.length - 1) := by
  induction ps generalizing n s with
  | nil =>
    obtain ⟨n, rfl⟩ := Nat.exists_eq_add_one_of_ne_zero (Nat.pos_iff_ne_zero.mp hn)
    rfl
  | cons p ps ih =>
    obtain ⟨n, rfl⟩ := Nat.exists_eq_add_one_of_ne_zero (Nat.ne_zero_of_lt hn)
    rw [List.length_cons, Nat.add_lt_add_iff_right] at hn
    obtain ⟨hp, hps⟩ := List.forall_mem_cons.mp hfeof
    rw [rows, List.foldlM_cons, bind_assoc, List.length_cons, Nat.add_sub_add_right]
    cases body s p with
    | error e => rfl
    | ok s =>
      change (if feofAfter k p = true then pure s else rows k null body n s ps) = _
      rw [hp, if_neg (by decide)]
      exact ih s hn hps

/-- **What the loop does to a text with short lines**: it takes its rows, unless the text has fewer
lines, and ends with the end of a line.

**Proof sketch.** The pieces of a text with short lines are its lines. The end of the text is seen
with the last of them exactly if that is unfinished, which decides between `rows_of_covered` and
`rows_of_short`. -/
theorem rows_lines {text : List UInt8} (hk : 0 < k) (hshort : LinesShorter k text) (n : ℕ) (s : σ) :
    rows k null body n s (pieces k text) =
      if n ≤ (lines text).length ∨ Unfinished text then ((lines text).take n).foldlM body s
      else (lines text).foldlM body s >>= null (n - (lines text).length - 1) := by
  have hends := endsLast_pieces hk text
  rw [pieces_eq_lines fun l hl => (hshort.line hl).1] at hends ⊢
  have hlast := getLast?_lines text
  split_ifs with hn
  · refine rows_of_covered hends s (hn.imp_right fun hun => ?_)
    obtain ⟨l, hl⟩ := Option.isSome_iff_exists.mp (List.getLast?_isSome.mpr (lines_ne_nil hun.1))
    rw [hl, Option.bind_some] at hlast
    rw [hl, Option.any_some, (hshort.line (List.mem_of_getLast? hl)).2, hlast]
    exact hun.2
  · rw [not_or] at hn
    refine rows_of_short s (Nat.lt_of_not_le hn.1) (hends.forall_eq_false fun l hl => ?_)
    have hmem := List.mem_of_getLast? hl
    have htext : text ≠ [] := by
      rintro rfl
      exact absurd hmem (by simp [lines])
    rw [hl, Option.bind_some] at hlast
    rw [← Bool.not_eq_true, (hshort.line hmem).2, hlast]
    exact fun hne => hn.2 ⟨htext, hne⟩

/-- The same for a body that does not leave the function, where a `NULL` does. -/
theorem rows_lines_ok {text : List UInt8} (hk : 0 < k) (hshort : LinesShorter k text) (n : ℕ)
    (s : σ) (next : σ → List UInt8 → σ) (ret : σ → ρ) :
    rows k (fun _ s => .error (ret s)) (fun s buf => .ok (next s buf)) n s (pieces k text) =
      if n ≤ (lines text).length ∨ Unfinished text then .ok (((lines text).take n).foldl next s)
      else .error (ret ((lines text).foldl next s)) := by
  have hfold : ∀ ls : List (List UInt8), ls.foldlM
      (fun s buf => (.ok (next s buf) : Except ρ σ)) s = .ok (ls.foldl next s) :=
    fun ls => List.foldlM_pure
  rw [rows_lines hk hshort, hfold, hfold]
  rfl

end Rows

end JzPretest

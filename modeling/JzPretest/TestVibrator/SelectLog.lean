import JzPretest.Semantics.TextFile
import JzPretest.TestVibrator.GetSelect

set_option relaxedAutoImplicit false
set_option autoImplicit false

/-!
# `get_select` and its log

`main` of `get_select` reads five rows of the log of `getevent`. A coordinate that none of them has
stays 0, and is judged all the same, so that a log with one coordinate, or with none, can pass or
fail the test.

## Main definitions

* `JzPretest.Vibrator.getSelect` — the program.
* `JzPretest.Vibrator.JudgesTouch` — it judges nothing but a touch that the log has.

## Main results

* `JzPretest.Vibrator.getSelect_eq` — what it returns.
* `JzPretest.Vibrator.judgesTouch_iff` — when it judges only touches.
-/

namespace JzPretest.Vibrator

open Transition

/-! ## The program -/

/-- The number behind `co` in a row, if it is there. -/
def record (co buf : List UInt8) : Option ℤ :=
  (strstr co buf).map fun coStr => strtol 16 (coStr.drop 10)

/-- The body of the loop of `main`, for any row. -/
def readRow (t : Touch) (buf : List UInt8) : Touch where
  x := (record xCo buf).getD t.x
  y := (record yCo buf).getD t.y

/-- `main` of `get_select`; there is no log when `fopen` fails. -/
def getSelect (screen : Screen) : Option Str → ℤ
  | none => -1
  | some log =>
    match rows 49 (fun _ _ => .error 4) (fun t buf => .ok (readRow t buf)) 5 (⟨0, 0⟩ : Touch)
      (pieces 49 log.val) with
    | .ok t => buttonSelect screen t.x t.y
    | .error ret => ret

/-! ## What it judges -/

/-- The last record of a kind in the first five lines. -/
def lastRecord (co : List UInt8) (log : Str) : Option ℤ :=
  lastWrite (record co) ((lines log.val).take 5)

/-- There are five rows, or the end of the file is seen with the last one. -/
def HasRows (log : Str) : Prop := 5 ≤ (lines log.val).length ∨ Unfinished log.val

instance (log : Str) : Decidable (HasRows log) := inferInstanceAs (Decidable (_ ∨ _))

/-- **Only real touches are judged**: when the program returns 1 or 2, the first five lines have
both coordinates, and the last ones are in the area that belongs to the number. -/
def JudgesTouch (screen : Screen) (log : Str) : Prop :=
  ∀ ret, getSelect screen (some log) = ret → ret = 1 ∨ ret = 2 →
    ∃ x y, lastRecord xCo log = some x ∧ lastRecord yCo log = some y ∧
      (ret = 1 ∧ PassArea screen x y ∨ ret = 2 ∧ FailArea screen x y)

/-- A coordinate is missing, and with 0 in its place there is a button. -/
def Mistaken (screen : Screen) (x y : Option ℤ) : Prop :=
  match screen.f1, x, y with
  | _, some _, some _ => False
  | true, some x, none => 4 ≤ screen.yres ∧ x ≠ (screen.xres : ℤ) / 2
  | true, none, some y => y < (screen.yres : ℤ) * 1 / 4 ∧ 2 ≤ screen.xres
  | true, none, none => 4 ≤ screen.yres ∧ 2 ≤ screen.xres
  | false, none, some y => (screen.yres : ℤ) * 3 / 4 < y ∧ 2 ≤ screen.xres
  | false, _, none => False

/-! ## When it is mistaken -/

/-- **What the program returns**.

**Proof sketch.** `rows_lines_ok` for the rows; each coordinate is a register that rows with its
code set (`register_foldl`), and 0 if there is none. -/
theorem getSelect_eq (screen : Screen) {log : Str} (hshort : LinesShorter 49 log.val) :
    getSelect screen (some log) =
      if HasRows log then
        (buttonSelect screen ((lastRecord xCo log).getD 0) ((lastRecord yCo log).getD 0) : ℤ)
      else 4 := by
  have hstepx : ∀ buf ∈ (lines log.val).take 5, ∀ t,
      (readRow t buf).x = (record xCo buf).getD t.x := fun _ _ _ => rfl
  have hstepy : ∀ buf ∈ (lines log.val).take 5, ∀ t,
      (readRow t buf).y = (record yCo buf).getD t.y := fun _ _ _ => rfl
  have hx := register_foldl hstepx ⟨0, 0⟩
  have hy := register_foldl hstepy ⟨0, 0⟩
  rw [getSelect, rows_lines_ok (by decide) hshort]
  by_cases hrows : 5 ≤ (lines log.val).length ∨ Unfinished log.val
  · rw [if_pos hrows, if_pos (show HasRows log from hrows)]
    dsimp only
    rw [hx, hy]
    rfl
  · rw [if_neg hrows, if_neg (show ¬ HasRows log from hrows)]

/-- It finds a button where there is one. -/
private lemma buttonSelect_eq_iff (screen : Screen) (x y : ℤ) :
    (buttonSelect screen x y = 1 ↔ PassArea screen x y) ∧
      (buttonSelect screen x y = 2 ↔ FailArea screen x y) := by
  unfold buttonSelect PassArea FailArea
  cases screen.f1 with
  | true =>
    simp only [if_true]
    split_ifs <;> omega
  | false =>
    simp only [Bool.false_eq_true, if_false]
    split_ifs <;> omega

/-- With 0 for a missing coordinate there is a button where the program is mistaken. -/
private lemma mistaken_iff (screen : Screen) {x y : Option ℤ} (hmissing : x = none ∨ y = none) :
    Mistaken screen x y ↔
      PassArea screen (x.getD 0) (y.getD 0) ∨ FailArea screen (x.getD 0) (y.getD 0) := by
  obtain ⟨xres, yres, f1⟩ := screen
  rcases hmissing with rfl | rfl
  · cases f1 <;> cases y <;> simp [Mistaken, PassArea, FailArea] <;> omega
  · cases f1 <;> cases x <;> simp [Mistaken, PassArea, FailArea] <;> omega

/-- **When only real touches are judged**: for every log with lines that fit, every size of the
screen and both values of `F1`, if and only if there are too few rows, or 0 in the place of what is
missing is on no button.

**Proof sketch.** With too few rows the result is neither of the two verdicts. With a touch that has
both coordinates the verdict is that of the areas (`buttonSelect_eq_iff`); with one missing it is
mistaken exactly if 0 in its place is on a button. -/
theorem judgesTouch_iff (screen : Screen) (log : Str) (hshort : LinesShorter 49 log.val) :
    JudgesTouch screen log ↔
      ¬ (HasRows log ∧ Mistaken screen (lastRecord xCo log) (lastRecord yCo log)) := by
  unfold JudgesTouch
  rw [getSelect_eq screen hshort]
  by_cases hrows : HasRows log
  · rw [if_pos hrows]
    generalize lastRecord xCo log = x, lastRecord yCo log = y
    have hone := fun x y => (buttonSelect_eq_iff screen x y).1
    have htwo := fun x y => (buttonSelect_eq_iff screen x y).2
    by_cases hmissing : x = none ∨ y = none
    · have hnot : ¬ ∃ a b, x = some a ∧ y = some b := by
        rintro ⟨a, b, rfl, rfl⟩
        simp at hmissing
      rw [mistaken_iff screen hmissing, ← hone, ← htwo]
      constructor
      · rintro h ⟨-, hbutton⟩
        obtain ⟨a, b, hx, hy, -⟩ := h _ rfl (by omega)
        exact hnot ⟨a, b, hx, hy⟩
      · rintro h _ rfl hbutton
        exact absurd ⟨hrows, by omega⟩ h
    · obtain ⟨hx, hy⟩ := not_or.mp hmissing
      obtain ⟨a, rfl⟩ := Option.ne_none_iff_exists'.mp hx
      obtain ⟨b, rfl⟩ := Option.ne_none_iff_exists'.mp hy
      refine iff_of_true ?_ fun h => h.2.elim
      rintro _ rfl hbutton
      refine ⟨a, b, rfl, rfl, hbutton.imp (fun h => ⟨h, ?_⟩) fun h => ⟨h, ?_⟩⟩
      · exact (hone a b).mp (by exact_mod_cast h)
      · exact (htwo a b).mp (by exact_mod_cast h)
  · rw [if_neg hrows]
    refine iff_of_true ?_ fun h => hrows h.1
    rintro _ rfl h
    exact absurd h (by decide)

/-- A row with the coordinate 7, and three rows without one. -/
private def downOnly : List UInt8 := yCo ++ text [' ', '7', '\n', '\n', '\n', '\n']

/-- A touch with both coordinates. -/
theorem judgesTouch_iff_both :
    JudgesTouch ⟨8, 8, false⟩ ⟨xCo ++ text [' ', '1', '\n'] ++ downOnly, by decide⟩ :=
  (judgesTouch_iff ⟨8, 8, false⟩ ⟨xCo ++ text [' ', '1', '\n'] ++ downOnly, by decide⟩
    (by decide)).mpr (fun h => h.2)

/-- **A touch that is only known to be far down** passes the test. -/
theorem getSelect_without_x :
    LinesShorter 49 (10 :: downOnly) ∧
      getSelect ⟨8, 8, false⟩ (some ⟨10 :: downOnly, by decide⟩) = 1 ∧
        lastRecord xCo ⟨10 :: downOnly, by decide⟩ = none ∧
          ¬ JudgesTouch ⟨8, 8, false⟩ ⟨10 :: downOnly, by decide⟩ := by
  have hpass : getSelect ⟨8, 8, false⟩ (some ⟨10 :: downOnly, by decide⟩) = 1 := by decide
  have hnone : lastRecord xCo ⟨10 :: downOnly, by decide⟩ = none := by decide
  refine ⟨by decide, hpass, hnone, fun h => ?_⟩
  obtain ⟨x, -, hx, -⟩ := h 1 hpass (Or.inl rfl)
  rw [hnone] at hx
  cases hx

end JzPretest.Vibrator

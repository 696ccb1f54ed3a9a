import JzPretest.Semantics.CString
import JzPretest.Semantics.Transition

set_option relaxedAutoImplicit false
set_option autoImplicit false

/-!
# `get_select`

`get_select` reads five lines of the log of touches, takes from them where the screen was touched,
and says which of the two buttons at the edge of the screen is there: that for a pass or that for a
failure.

## Main definitions

* `JzPretest.Vibrator.buttonSelect` — which button a touch is on.
* `JzPretest.Vibrator.readLine` — what a line of the log changes.
* `JzPretest.Vibrator.touched` — where a log says that the screen was touched.

## Main results

* `JzPretest.Vibrator.touchOf_eq` — the last line with a coordinate decides it, and else it is 0.
* `JzPretest.Vibrator.buttonSelect_cases` — the three answers, and their areas.
-/

namespace JzPretest.Vibrator

/-- The size of the screen, and whether it is turned by 180 degrees (`F1`, which `pretest.sh`
exports as 0 or 1). -/
structure Screen where
  xres : ℕ
  yres : ℕ
  f1 : Bool

/-- `button_select`. -/
def buttonSelect (screen : Screen) (x y : ℤ) : ℕ :=
  let xres : ℤ := screen.xres
  let yres : ℤ := screen.yres
  if screen.f1 then
    if y < yres * 1 / 4 ∧ x > xres / 2 then 1
    else if y < yres * 1 / 4 ∧ x < xres / 2 then 2
    else 3
  else
    if y > yres * 3 / 4 ∧ x < xres / 2 then 1
    else if y > yres * 3 / 4 ∧ x > xres / 2 then 2
    else 3

/-- The button at the edge of the screen on its left half, as the screen is held: a pass. -/
def PassArea (screen : Screen) (x y : ℤ) : Prop :=
  if screen.f1 then y < (screen.yres : ℤ) * 1 / 4 ∧ (screen.xres : ℤ) / 2 < x
  else (screen.yres : ℤ) * 3 / 4 < y ∧ x < (screen.xres : ℤ) / 2

/-- The button on the right half: a failure. -/
def FailArea (screen : Screen) (x y : ℤ) : Prop :=
  if screen.f1 then y < (screen.yres : ℤ) * 1 / 4 ∧ x < (screen.xres : ℤ) / 2
  else (screen.yres : ℤ) * 3 / 4 < y ∧ (screen.xres : ℤ) / 2 < x

instance (screen : Screen) (x y : ℤ) : Decidable (PassArea screen x y) :=
  inferInstanceAs (Decidable (if screen.f1 then _ else _))

instance (screen : Screen) (x y : ℤ) : Decidable (FailArea screen x y) :=
  inferInstanceAs (Decidable (if screen.f1 then _ else _))

/-- **Which button a touch is on**.

**Proof sketch.** By the value of `F1` and the comparisons in the order in which the code makes
them. -/
theorem buttonSelect_cases (screen : Screen) (x y : ℤ) :
    (buttonSelect screen x y = 1 ∧ PassArea screen x y) ∨
      (buttonSelect screen x y = 2 ∧ FailArea screen x y) ∨ buttonSelect screen x y = 3 := by
  unfold buttonSelect PassArea FailArea
  cases screen.f1 with
  | true =>
    simp only [if_true]
    split_ifs with hpass hfail
    · exact Or.inl ⟨rfl, hpass⟩
    · exact Or.inr (Or.inl ⟨rfl, hfail⟩)
    · exact Or.inr (Or.inr rfl)
  | false =>
    simp only [Bool.false_eq_true, if_false]
    split_ifs with hpass hfail
    · exact Or.inl ⟨rfl, hpass⟩
    · exact Or.inr (Or.inl ⟨rfl, hfail⟩)
    · exact Or.inr (Or.inr rfl)

/-! ## The lines -/

/-- A line of the log, without its end. It is one event, as `getevent` prints it, and fits the
buffer of `get_select` with the end of the line and a NUL. -/
def Line := { bytes : List UInt8 // bytes.length ≤ 48 ∧ 10 ∉ bytes ∧ 0 ∉ bytes }
  deriving DecidableEq

/-- `x_co`. -/
def xCo : List UInt8 := text ['0', '0', '0', '3', ' ', '0', '0', '3', '5']

/-- `y_co`. -/
def yCo : List UInt8 := text ['0', '0', '0', '3', ' ', '0', '0', '3', '6']

/-- The number behind `co`, if a line has it. -/
def coordinate (co : List UInt8) (line : Line) : Option ℤ :=
  (strstr co (line.val ++ [10])).map fun coStr => strtol 16 (coStr.drop 10)

/-- The variables `x` and `y` of `get_select`. -/
structure Touch where
  x : ℤ
  y : ℤ
  deriving DecidableEq, Repr

/-- The body of the loop of `get_select`, for the line that it has read. -/
def readLine (t : Touch) (line : Line) : Touch where
  x := (coordinate xCo line).getD t.x
  y := (coordinate yCo line).getD t.y

/-- What `x` and `y` are when some lines have been read. -/
def touchOf (lines : List Line) : Touch := lines.foldl readLine ⟨0, 0⟩

/-- The last line changes what the others have left. -/
theorem touchOf_concat (lines : List Line) (line : Line) :
    touchOf (lines ++ [line]) = readLine (touchOf lines) line := by
  rw [touchOf, List.foldl_append]
  rfl

/-- The last coordinate of a kind that a log has. -/
def lastCoordinate (co : List UInt8) (lines : List Line) : Option ℤ :=
  (lines.filterMap (coordinate co)).getLast?

/-- Where a log says that the screen was touched: it has to say both, how far to the right and how
far down, and each last line decides. -/
def touched (lines : List Line) : Option Touch := do
  let x ← lastCoordinate xCo lines
  let y ← lastCoordinate yCo lines
  return ⟨x, y⟩

/-- **What `get_select` has read**: a coordinate that the log does not say counts as 0. -/
theorem touchOf_eq (lines : List Line) :
    touchOf lines =
      ⟨(lastCoordinate xCo lines).getD 0, (lastCoordinate yCo lines).getD 0⟩ := by
  have hstepx : ∀ line ∈ lines, ∀ t, (readLine t line).x = (coordinate xCo line).getD t.x :=
    fun _ _ _ => rfl
  have hstepy : ∀ line ∈ lines, ∀ t, (readLine t line).y = (coordinate yCo line).getD t.y :=
    fun _ _ _ => rfl
  have hx := Transition.register_foldl hstepx ⟨0, 0⟩
  have hy := Transition.register_foldl hstepy ⟨0, 0⟩
  change (⟨(lines.foldl readLine ⟨0, 0⟩).x, (lines.foldl readLine ⟨0, 0⟩).y⟩ : Touch) = _
  rw [hx, hy]
  rfl

/-- It is what the log says, if it says it at all. -/
theorem touchOf_eq_of_touched {lines : List Line} {t : Touch} (h : touched lines = some t) :
    touchOf lines = t := by
  simp only [touched, Option.bind_eq_bind, Option.bind_eq_some_iff] at h
  obtain ⟨x, hx, y, hy, ht⟩ := h
  obtain rfl := Option.some.inj ht
  rw [touchOf_eq, hx, hy]
  rfl

end JzPretest.Vibrator

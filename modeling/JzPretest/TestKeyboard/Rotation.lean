import JzPretest.TestKeyboard.Runs

set_option relaxedAutoImplicit false
set_option autoImplicit false

/-!
# A screen that is turned

With `swap` on, `get_touch` reflects what the touch screen reports, so that the buttons are found on
a panel that is mounted upside down. It takes the report from the width and the height, and not from
the last column and the last row, so it comes out one pixel too far to the right and too far down.

## Main definitions

* `JzPretest.Widget.afterReport` — where a report puts the touch.
* `JzPretest.Widget.Position.InScreen` — a rectangle on the screen.

## Main results

* `JzPretest.Widget.find?_eq_find?_iff` — when two searches of a list find the same.
* `JzPretest.Widget.rotated_iff` — when the reflected report finds the button of the reflected
  pixel.
-/

namespace JzPretest.Widget

/-- The touch after the two position events of a report. -/
def afterReport (p : Panel) (m : Touch) (vx vy : Int32) : Touch :=
  (moveTo vx vy).foldl (fun m t => (getTouch p t m).2) m

/-- A rectangle that lies on a screen of this size. -/
structure Position.InScreen (ps : Position) (width height : Int32) : Prop where
  iconWidth : 0 ≤ ps.iconWidth.toInt
  iconHeight : 0 ≤ ps.iconHeight.toInt
  right : (ps.fPositionX.toNat : ℤ) + ps.iconWidth.toInt ≤ width.toInt
  bottom : (ps.fPositionY.toNat : ℤ) + ps.iconHeight.toInt ≤ height.toInt

/-- On a screen no coordinate wraps around. -/
lemma Position.InScreen.noWrap {ps : Position} {width height : Int32}
    (h : ps.InScreen width height) : ps.NoWrap := by
  have hwidth := width.toInt_lt
  have hheight := height.toInt_lt
  have hright := h.right
  have hbottom := h.bottom
  exact ⟨h.iconWidth, by omega, h.iconHeight, by omega⟩

/-- **Two searches find the same** if and only if the first element that either of them accepts is
accepted by both.

**Proof sketch.** Induction on the list: an element that both accept is found by both, one that only
one of them accepts is found by that one and not by the other, and one that neither accepts is
passed over. -/
theorem find?_eq_find?_iff {α : Type} {p q : α → Bool} (l : List α) :
    l.find? p = l.find? q ↔
      ∀ a, l.find? (fun a => p a || q a) = some a → p a = true ∧ q a = true := by
  induction l with
  | nil => simp
  | cons a l ih =>
    cases hp : p a with
    | true =>
      cases hq : q a with
      | true => simp [hp, hq]
      | false =>
        simp only [List.find?_cons, hp, hq, Bool.true_or, Option.some.injEq, forall_eq']
        refine iff_of_false (fun h => ?_) (by simp)
        have hqa := List.find?_some h.symm
        rw [hq] at hqa
        exact absurd hqa (by decide)
    | false =>
      cases hq : q a with
      | true =>
        simp only [List.find?_cons, hp, hq, Bool.or_true, Option.some.injEq, forall_eq']
        refine iff_of_false (fun h => ?_) (by simp)
        have hpa := List.find?_some h
        rw [hp] at hpa
        exact absurd hpa (by decide)
      | false => simpa only [List.find?_cons, hp, hq, Bool.or_false] using ih

/-- What is subtracted from a number without going below zero. -/
private lemma toInt_sub_of_nonneg {a b : Int32} (hb : 0 ≤ b.toInt) (hle : b.toInt ≤ a.toInt) :
    (a - b).toInt = a.toInt - b.toInt :=
  Int32.toInt_sub_of_le a b (Int32.le_iff_toInt_le.mpr hb) (Int32.le_iff_toInt_le.mpr hle)

/-- What the two events of a report do to the touch. -/
lemma afterReport_eq (p : Panel) (m : Touch) (vx vy : Int32) :
    afterReport p m vx vy =
      { m with
        x := (if p.swap then p.widthLimit - vx else vx).toUInt32
        y := (if p.swap then p.heightLimit - vy else vy).toUInt32
        state := .resetTouch } := rfl

section Report

variable (width height : Int32) (m : Touch) {vx vy : Int32}

/-- A plain report. -/
private lemma afterReport_plain (hx : 0 ≤ vx.toInt) (hy : 0 ≤ vy.toInt) :
    ((afterReport ⟨width, height, false⟩ m vx vy).x.toNat : ℤ) = vx.toInt ∧
      ((afterReport ⟨width, height, false⟩ m vx vy).y.toNat : ℤ) = vy.toInt := by
  rw [afterReport_eq]
  exact ⟨toNat_toUInt32 hx, toNat_toUInt32 hy⟩

/-- A reflected report. -/
private lemma afterReport_swap (hx : 0 ≤ vx.toInt) (hwidth : vx.toInt ≤ width.toInt)
    (hy : 0 ≤ vy.toInt) (hheight : vy.toInt ≤ height.toInt) :
    ((afterReport ⟨width, height, true⟩ m vx vy).x.toNat : ℤ) = width.toInt - vx.toInt ∧
      ((afterReport ⟨width, height, true⟩ m vx vy).y.toNat : ℤ) = height.toInt - vy.toInt := by
  have hsubx := toInt_sub_of_nonneg hx hwidth
  have hsuby := toInt_sub_of_nonneg hy hheight
  have hnonnegx : 0 ≤ (width - vx).toInt := by omega
  have hnonnegy : 0 ≤ (height - vy).toInt := by omega
  rw [afterReport_eq, ← hsubx, ← hsuby]
  exact ⟨toNat_toUInt32 hnonnegx, toNat_toUInt32 hnonnegy⟩

end Report

/-- **When the turned screen finds the button of the reflected pixel**: for every list of buttons on
the screen, if and only if the first button that contains the reflected pixel or the pixel to the
right of it and below it contains both of them.

**Proof sketch.** On both screens a button is found by whether it contains a pixel: the reflected
one, or the one to the right of it and below it. The two searches agree as `find?_eq_find?_iff`
says. -/
theorem rotated_iff (width height : Int32) (mem : Ptr → Button) (mlist : List Ptr)
    (hscreen : ∀ b ∈ mlist, (mem b).ps.InScreen width height) (m m' : Touch) (vx vy : Int32)
    (hx : 0 ≤ vx.toInt) (hwidth : vx.toInt < width.toInt) (hy : 0 ≤ vy.toInt)
    (hheight : vy.toInt < height.toInt) :
    findButtonByPosition mem (afterReport ⟨width, height, true⟩ m vx vy) mlist =
        findButtonByPosition mem
          (afterReport ⟨width, height, false⟩ m' (width - 1 - vx) (height - 1 - vy)) mlist ↔
      ∀ b, mlist.find? (fun b =>
          (mem b).ps.Contains (width.toInt - 1 - vx.toInt) (height.toInt - 1 - vy.toInt) ∨
            (mem b).ps.Contains (width.toInt - vx.toInt) (height.toInt - vy.toInt)) = some b →
        (mem b).ps.Contains (width.toInt - 1 - vx.toInt) (height.toInt - 1 - vy.toInt) ∧
          (mem b).ps.Contains (width.toInt - vx.toInt) (height.toInt - vy.toInt) := by
  have hone : (1 : Int32).toInt = 1 := rfl
  have hlastx : (width - 1).toInt = width.toInt - 1 := toInt_sub_of_nonneg (by decide) (by omega)
  have hlasty : (height - 1).toInt = height.toInt - 1 := toInt_sub_of_nonneg (by decide) (by omega)
  have hpixelx : (width - 1 - vx).toInt = width.toInt - 1 - vx.toInt := by
    rw [toInt_sub_of_nonneg hx (by omega), hlastx]
  have hpixely : (height - 1 - vy).toInt = height.toInt - 1 - vy.toInt := by
    rw [toInt_sub_of_nonneg hy (by omega), hlasty]
  obtain ⟨hturnedx, hturnedy⟩ := afterReport_swap width height m hx (by omega) hy (by omega)
  have hnonnegx : 0 ≤ (width - 1 - vx).toInt := by omega
  have hnonnegy : 0 ≤ (height - 1 - vy).toInt := by omega
  obtain ⟨hplainx, hplainy⟩ := afterReport_plain width height m' hnonnegx hnonnegy
  have hturned : ∀ b ∈ mlist,
      isTouchingButton (mem b) (afterReport ⟨width, height, true⟩ m vx vy) =
        decide ((mem b).ps.Contains (width.toInt - vx.toInt) (height.toInt - vy.toInt)) := by
    intro b hb
    rw [Bool.eq_iff_iff, decide_eq_true_iff, isTouchingButton_iff_contains (hscreen b hb).noWrap,
      hturnedx, hturnedy]
  have hplain : ∀ b ∈ mlist, isTouchingButton (mem b)
      (afterReport ⟨width, height, false⟩ m' (width - 1 - vx) (height - 1 - vy)) =
        decide ((mem b).ps.Contains (width.toInt - 1 - vx.toInt)
          (height.toInt - 1 - vy.toInt)) := by
    intro b hb
    rw [Bool.eq_iff_iff, decide_eq_true_iff, isTouchingButton_iff_contains (hscreen b hb).noWrap,
      hplainx, hplainy, hpixelx, hpixely]
  unfold findButtonByPosition
  rw [List.find?_congr hturned, List.find?_congr hplain, eq_comm, find?_eq_find?_iff]
  simp only [Bool.decide_or, decide_eq_true_iff]

/-- One button in the upper left corner of a screen of 100 by 100 pixels. -/
def cornerButton : Ptr → Button := fun p => { sideBySide.mem p with ps := ⟨0, 0, 10, 10⟩ }

/-- It is on the screen. -/
private lemma cornerButton_inScreen (b : Ptr) : (cornerButton b).ps.InScreen 100 100 :=
  ⟨Int.le_of_lt (show (0 : ℤ) < 10 by decide), Int.le_of_lt (show (0 : ℤ) < 10 by decide),
    Int.le_of_lt (show (0 : ℤ) + 10 < 100 by decide),
    Int.le_of_lt (show (0 : ℤ) + 10 < 100 by decide)⟩

/-- A report in the middle of the turned button. -/
theorem rotated_iff_middle :
    findButtonByPosition cornerButton (afterReport ⟨100, 100, true⟩ sideBySide.recTouch 95 95) [0] =
      findButtonByPosition cornerButton
        (afterReport ⟨100, 100, false⟩ sideBySide.recTouch (100 - 1 - 95) (100 - 1 - 95)) [0] := by
  rw [rotated_iff 100 100 cornerButton [0] (fun b _ => cornerButton_inScreen b) _ _ 95 95
    (by decide) (by decide) (by decide) (by decide)]
  intro b hb
  have hmem := List.mem_of_find?_eq_some hb
  obtain rfl := List.mem_singleton.mp hmem
  decide

/-- **The last column and the last row**: the turned screen finds the button there, but the
reflected pixel is on the border of the button. -/
theorem rotated_corner :
    findButtonByPosition cornerButton (afterReport ⟨100, 100, true⟩ sideBySide.recTouch 99 99) [0] =
        some 0 ∧
      findButtonByPosition cornerButton
        (afterReport ⟨100, 100, false⟩ sideBySide.recTouch (100 - 1 - 99) (100 - 1 - 99)) [0] =
          none :=
  ⟨rfl, rfl⟩

end JzPretest.Widget

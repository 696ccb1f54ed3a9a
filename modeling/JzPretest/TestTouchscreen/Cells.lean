import JzPretest.TestKeyboard.Identity
import JzPretest.TestTouchscreen.TestTouchButton
import Mathlib.Algebra.Order.Ring.Int

set_option relaxedAutoImplicit false
set_option autoImplicit false

/-!
# The cells of the touch-screen test

`main` of `test_touchbutton` lays 25 buttons side by side, each as wide and as high as a fifth of
the screen. A touch on the border of a button is not on the button, so the columns and the rows
between the cells belong to none of them.

## Main definitions

* `JzPretest.TestTouchButton.Rect.position` — where a button is put.
* `JzPretest.TestTouchButton.HitOnce` — the touch is on exactly one of the buttons of the test.

## Main results

* `JzPretest.TestTouchButton.createButtons_ps` — the buttons are where they are put.
* `JzPretest.TestTouchButton.hitOnce_iff` — the pixels that are on a button.
-/

namespace JzPretest.TestTouchButton

open Widget

/-! ## Where the buttons are -/

/-- Where a button is put. -/
def Rect.position (r : Rect) : Position := ⟨r.x.toUInt32, r.y.toUInt32, r.width, r.height⟩

/-- The button is where its cell is. -/
private lemma createButton_ps (r : Rect) (k : ℕ) (a : App) :
    ((createButton r k a).2.world.mem a.brk).ps = r.position := by
  simp [createButton, initDefaultButton, App.newButton, drawDefaultButton, drawImage,
    Rect.position]

/-- **The buttons are where they are put**.

**Proof sketch.** Induction on the rectangles: the first button keeps its place while the others are
created, and these are found by induction. -/
theorem createButtons_ps (rs : List Rect) : ∀ (k : ℕ) (a : App) (i : ℕ) (r : Rect),
    rs[i]? = some r → ((createButtons rs k a).2.world.mem (a.brk + i)).ps = r.position := by
  induction rs with
  | nil =>
    intro k a i r hr
    simp at hr
  | cons r₀ rs ih =>
    intro k a i r hr
    have hcons : (createButtons (r₀ :: rs) k a).2 =
        (createButtons rs (k + 1) (createButton r₀ k a).2).2 := rfl
    obtain ⟨-, hbrk, -⟩ := createButton_spec r₀ k a
    obtain ⟨-, -, -, -, hold⟩ := createButtons_spec rs (k + 1) (createButton r₀ k a).2
    rw [hcons]
    cases i with
    | zero =>
      obtain rfl : r₀ = r := Option.some.inj hr
      have hlt : a.brk < (createButton r₀ k a).2.brk := hbrk ▸ Nat.lt_succ_self _
      change ((createButtons rs (k + 1) (createButton r₀ k a).2).2.world.mem a.brk).ps = _
      rw [(hold a.brk hlt).1, createButton_ps]
    | succ i =>
      have hnext := ih (k + 1) (createButton r₀ k a).2 i r hr
      rwa [hbrk, Nat.add_assoc, Nat.add_comm 1] at hnext

/-! ## The cells -/

/-- The touch is on exactly one of the buttons of the test. -/
def HitOnce (btPass : List Ptr) (a : App) (touch : Touch) : Prop :=
  ∃! bt, bt ∈ btPass ∧ isTouchingButton (a.world.mem bt) touch = true

/-- A point is strictly between two multiples of `w` that follow each other if it is no multiple
itself, and the first one is the one below it.

**Proof sketch.** By the division with remainder of `x`: strictly between two multiples the quotient
is the first of them and the remainder is not zero. -/
private lemma mul_lt_and_lt_iff {w : ℕ} (hw : 0 < w) (i x : ℕ) :
    i * w < x ∧ x < i * w + w ↔ i = x / w ∧ ¬ w ∣ x := by
  have hdiv := Nat.div_add_mod x w
  have hmod := Nat.mod_lt x hw
  rw [Nat.dvd_iff_mod_eq_zero]
  constructor
  · rintro ⟨hlt, hgt⟩
    have hi : x / w = i := by
      rw [Nat.div_eq_iff hw]
      omega
    subst hi
    rw [Nat.mul_comm] at hlt
    exact ⟨rfl, by omega⟩
  · rintro ⟨rfl, hne⟩
    rw [Nat.mul_comm (x / w)]
    omega

/-- A fifth of a screen, and the multiples of it that `main` uses. -/
private lemma exists_fifth {v : Int32} (hv : 5 ≤ v.toInt) : ∃ w : ℕ, 0 < w ∧ 5 * w < 2 ^ 31 ∧
    v.toInt / 5 = w ∧ (v / 5).toInt = w ∧
      ∀ i < 5, (Int32.ofNat i * (v / 5)).toUInt32.toNat = i * w := by
  have hlt := v.toInt_lt
  have hfive : (5 : Int32).toInt = 5 := rfl
  have hdiv : (v / 5).toInt = v.toInt / 5 := by
    rw [Int32.toInt_div_of_ne_right v 5 (by decide), hfive, Int.tdiv_eq_ediv_of_nonneg (by omega)]
  obtain ⟨w, hw⟩ := Int.eq_ofNat_of_zero_le (show 0 ≤ v.toInt / 5 by omega)
  refine ⟨w, by omega, by omega, hw, hdiv.trans hw, fun i hi => ?_⟩
  have hle : i * w ≤ 5 * w := Nat.mul_le_mul_right w hi.le
  have hmul : (Int32.ofNat i * (v / 5)).toInt = (i * w : ℕ) := by
    rw [Int32.toInt_mul, Int32.toInt_ofNat_of_lt (by omega), hdiv, hw, ← Int.natCast_mul]
    exact Int.bmod_eq_of_le (by omega) (by omega)
  have hnat := toNat_toUInt32 (a := Int32.ofNat i * (v / 5)) (by omega)
  omega

/-- What the `k`-th cell contains.

**Proof sketch.** A cell of width `w` begins at a multiple of `w`, and nothing overflows below five
cells; `mul_lt_and_lt_iff` then applies in both directions. -/
private lemma contains_cell {width height : Int32} (hwidth : 5 ≤ width.toInt)
    (hheight : 5 ≤ height.toInt) {k : ℕ} {r : Rect} (hr : (cells width height)[k]? = some r)
    (x y : ℕ) :
    r.position.NoWrap ∧
      (r.position.Contains x y ↔
        ((k % 5 : ℕ) = x / (width.toInt / 5) ∧ ¬ width.toInt / 5 ∣ x) ∧
          (k / 5 : ℕ) = y / (height.toInt / 5) ∧ ¬ height.toInt / 5 ∣ y) := by
  obtain ⟨w, hw, hw5, hwdiv, hwint, hwmul⟩ := exists_fifth hwidth
  obtain ⟨h, hh, hh5, hhdiv, hhint, hhmul⟩ := exists_fifth hheight
  have hk : k < 25 := by simpa [cells] using (List.getElem?_eq_some_iff.mp hr).1
  rw [cells, List.getElem?_map, List.getElem?_range hk] at hr
  obtain rfl := Option.some.inj hr
  have hx := hwmul (k % 5) (Nat.mod_lt k (by decide))
  have hy := hhmul (k / 5) (by omega)
  have hcol : k % 5 * w ≤ 4 * w := Nat.mul_le_mul_right w (by omega)
  have hrow : k / 5 * h ≤ 4 * h := Nat.mul_le_mul_right h (by omega)
  refine ⟨?_, ?_⟩
  · simp only [Rect.position, Position.NoWrap, hx, hy, hwint, hhint]
    omega
  · simp only [Rect.position, Position.Contains, hx, hy, hwint, hhint, hwdiv, hhdiv]
    rw [← and_assoc]
    apply and_congr
    · exact_mod_cast mul_lt_and_lt_iff hw (k % 5) x
    · exact_mod_cast mul_lt_and_lt_iff hh (k / 5) y

/-- The buttons of `main` lie one after another, and a touch is on the `k`-th if it is in the `k`-th
cell and not on its border.

**Proof sketch.** The buttons are created in the order of the cells (`createButtons_spec`,
`createButtons_ps`), and a touch is on one if its rectangle contains it, which `contains_cell`
says. -/
lemma main_spec (width height f1 : Int32) (a : App) (hwidth : 5 ≤ width.toInt)
    (hheight : 5 ≤ height.toInt) :
    ∃ base, (main width height f1 a).1 = List.range' base 25 ∧
      ∀ k : ℕ, k < 25 → ∀ touch : Touch,
        (isTouchingButton ((main width height f1 a).2.world.mem (base + k)) touch = true ↔
          ((k % 5 : ℕ) = touch.x.toNat / (width.toInt / 5) ∧
              ¬ width.toInt / 5 ∣ touch.x.toNat) ∧
            (k / 5 : ℕ) = touch.y.toNat / (height.toInt / 5) ∧
              ¬ height.toInt / 5 ∣ touch.y.toNat) := by
  have hlen : (cells width height).length = 25 := by simp [cells]
  obtain ⟨a₀, hmain⟩ : ∃ a₀, main width height f1 a = createButtons (cells width height) 0 a₀ :=
    ⟨_, rfl⟩
  refine ⟨a₀.brk, ?_, fun k hk touch => ?_⟩
  · rw [hmain, (createButtons_spec _ _ _).1, hlen]
  · have hr := List.getElem?_eq_getElem (hk.trans_eq hlen.symm)
    obtain ⟨hwrap, hcontains⟩ := contains_cell hwidth hheight hr touch.x.toNat touch.y.toNat
    have hps := createButtons_ps (cells width height) 0 a₀ k _ hr
    rw [hmain, isTouchingButton_iff_contains (hps ▸ hwrap), hps, hcontains]

/-- **The pixels that are on a button**: for every screen, a touch in the area of the 25 cells is on
exactly one of the buttons if and only if its column is no multiple of the width of a cell, and its
row is no multiple of the height.

**Proof sketch.** The column and the row of the touch, divided by the width and by the height of a
cell, are the digits to base five of the number of the only button that can be hit. -/
theorem hitOnce_iff (width height f1 : Int32) (a : App) (hwidth : 5 ≤ width.toInt)
    (hheight : 5 ≤ height.toInt) (touch : Touch)
    (hx : (touch.x.toNat : ℤ) < 5 * (width.toInt / 5))
    (hy : (touch.y.toNat : ℤ) < 5 * (height.toInt / 5)) :
    HitOnce (main width height f1 a).1 (main width height f1 a).2 touch ↔
      ¬ width.toInt / 5 ∣ touch.x.toNat ∧ ¬ height.toInt / 5 ∣ touch.y.toNat := by
  obtain ⟨base, hlist, hhit⟩ := main_spec width height f1 a hwidth hheight
  have hw : 0 < width.toInt / 5 := by omega
  have hh : 0 < height.toInt / 5 := by omega
  have hcol : (touch.x.toNat : ℤ) / (width.toInt / 5) < 5 := Int.ediv_lt_of_lt_mul hw hx
  have hrow : (touch.y.toNat : ℤ) / (height.toInt / 5) < 5 := Int.ediv_lt_of_lt_mul hh hy
  have hcol0 : 0 ≤ (touch.x.toNat : ℤ) / (width.toInt / 5) := Int.ediv_nonneg (by omega) hw.le
  have hrow0 : 0 ≤ (touch.y.toNat : ℤ) / (height.toInt / 5) := Int.ediv_nonneg (by omega) hh.le
  simp only [HitOnce, hlist, List.mem_range'_1]
  constructor
  · rintro ⟨bt, ⟨⟨hle, hlt⟩, htouch⟩, -⟩
    obtain ⟨k, rfl⟩ := Nat.exists_eq_add_of_le hle
    obtain ⟨⟨-, hx'⟩, -, hy'⟩ := (hhit k (Nat.add_lt_add_iff_left.mp hlt) touch).mp htouch
    exact ⟨hx', hy'⟩
  · rintro ⟨hx', hy'⟩
    obtain ⟨col, hcolEq⟩ := Int.eq_ofNat_of_zero_le hcol0
    obtain ⟨row, hrowEq⟩ := Int.eq_ofNat_of_zero_le hrow0
    have hcell := fun (k : ℕ) (hk : k < 25) => hhit k hk touch
    rw [hcolEq] at hcol
    rw [hrowEq] at hrow
    simp only [hcolEq, hrowEq] at hcell
    have hlt : 5 * row + col < 25 := by omega
    refine ⟨base + (5 * row + col), ⟨⟨Nat.le_add_right _ _, Nat.add_lt_add_left hlt base⟩, ?_⟩, ?_⟩
    · rw [hcell _ hlt]
      exact ⟨⟨by omega, hx'⟩, by omega, hy'⟩
    · rintro bt ⟨⟨hle, hlt'⟩, htouch⟩
      obtain ⟨k, rfl⟩ := Nat.exists_eq_add_of_le hle
      obtain ⟨⟨hk, -⟩, hk', -⟩ := (hcell k (Nat.add_lt_add_iff_left.mp hlt')).mp htouch
      have hkEq : k = 5 * row + col := by omega
      rw [hkEq]

/-- A touch at this place. -/
def touchAt (x y : UInt32) : Touch := { sideBySide.recTouch with x := x, y := y }

/-- The second cell of the first row, on a screen of 320 by 480 pixels. -/
theorem hitOnce_iff_second :
    HitOnce (main 320 480 0 noWidgets).1 (main 320 480 0 noWidgets).2 (touchAt 100 50) :=
  (hitOnce_iff 320 480 0 noWidgets (by decide) (by decide) (touchAt 100 50) (by decide)
    (by decide)).mpr ⟨by decide, by decide⟩

/-- **A dead column**: on a screen of 320 by 480 pixels no button is hit in column 64. -/
theorem dead_column :
    ¬ HitOnce (main 320 480 0 noWidgets).1 (main 320 480 0 noWidgets).2 (touchAt 64 50) := by
  obtain ⟨base, hlist, hhit⟩ := main_spec 320 480 0 noWidgets (by decide) (by decide)
  rintro ⟨bt, ⟨hmem, htouch⟩, -⟩
  rw [hlist, List.mem_range'_1] at hmem
  obtain ⟨hle, hlt⟩ := hmem
  obtain ⟨k, rfl⟩ := Nat.exists_eq_add_of_le hle
  obtain ⟨⟨-, hcol⟩, -⟩ := (hhit k (Nat.add_lt_add_iff_left.mp hlt) _).mp htouch
  exact hcol (by decide)

end JzPretest.TestTouchButton

import JzPretest.TestLcd.TestLcd

set_option relaxedAutoImplicit false
set_option autoImplicit false

/-!
# The three stripes

`set_three_color` draws a red, a green and a blue stripe, each a third of the screen high. The
height of a stripe and where it begins are rounded on their own, so that a row between the green and
the blue stripe, or below the blue one, may keep what was there before.

## Main definitions

* `JzPretest.TestLcd.Screen.Striped` — the screen is red above, green in the middle and blue below.

## Main results

* `JzPretest.TestLcd.draw_setThreeColor` — what the screen shows.
* `JzPretest.TestLcd.striped_of_bands` — when stripes of any height are stripes.
* `JzPretest.TestLcd.striped_iff` — when exactly the screen is striped.
-/

namespace JzPretest.TestLcd

/-- **Three stripes**: every pixel of a framebuffer is red, green or blue, and the red rows are
above the green rows, and these above the blue rows. -/
structure Screen.Striped (s : Screen) (m : ℕ → UInt32) (bn : ℕ) : Prop where
  colored : ∀ px < s.xres, ∀ py < s.yres, m (s.pixel bn px py) = red ∨
    m (s.pixel bn px py) = green ∨ m (s.pixel bn px py) = blue
  red_green : ∀ px < s.xres, ∀ py < s.yres, ∀ px' < s.xres, ∀ py' < s.yres,
    m (s.pixel bn px py) = red → m (s.pixel bn px' py') = green → py < py'
  red_blue : ∀ px < s.xres, ∀ py < s.yres, ∀ px' < s.xres, ∀ py' < s.yres,
    m (s.pixel bn px py) = red → m (s.pixel bn px' py') = blue → py < py'
  green_blue : ∀ px < s.xres, ∀ py < s.yres, ∀ px' < s.xres, ∀ py' < s.yres,
    m (s.pixel bn px py) = green → m (s.pixel bn px' py') = blue → py < py'

section Stripes

variable {s : Screen} {m : ℕ → UInt32} {bn : ℕ}

/-- A picture at one pixel. -/
lemma Screen.Paints.apply {ws : List Write} {p : ℕ → ℕ → Option UInt32}
    (h : s.Paints ws bn p) (hp : ∀ px py, p px py ≠ none → px < s.stride) {px : ℕ}
    (hx : px < s.stride) (py : ℕ) :
    s.draw m ws (s.pixel bn px py) = (p px py).getD (m (s.pixel bn px py)) := by
  cases hcolor : p px py with
  | some c => rw [(h m).1 px py c hcolor, Option.getD_some]
  | none =>
    rw [(h m).2, Option.getD_none]
    intro px' py' hne heq
    obtain ⟨rfl, rfl⟩ := pixel_inj hx (hp px' py' hne) heq
    exact hne hcolor

/-- **What the screen shows** after `set_three_color`.

**Proof sketch.** Where rows are as wide as the screen, the layout agrees, and the picture is that
of three stripes, of which the later ones cover the earlier. -/
theorem draw_setThreeColor (hs : s.stride = s.xres) (m : ℕ → UInt32) (buffercount px : ℕ)
    (hx : px < s.xres) (py : ℕ) :
    s.draw m (setThreeColor s buffercount) (s.pixel ((buffercount + 1) % 2) px py) =
      if py < s.yres / 3 then red
      else if py < s.yres / 3 + s.yres / 3 then green
      else if 2 * s.yres / 3 ≤ py ∧ py < 2 * s.yres / 3 + s.yres / 3 then blue
      else m (s.pixel ((buffercount + 1) % 2) px py) := by
  have hagrees : s.LayoutAgrees :=
    layoutAgrees_of_rows (Nat.le_of_eq hs.symm) fun _ j _ => by rw [hs]
  have hwidth : ∀ px py, stripes s px py ≠ none → px < s.stride := by
    intro px py hin
    rw [stripes, covering_ne_none_iff, covering_ne_none_iff, filled_ne_none_iff,
      filled_ne_none_iff, filled_ne_none_iff] at hin
    omega
  have hhalf : s.yres / 3 + s.yres / 3 ≤ 2 * s.yres / 3 := by omega
  rw [(hagrees.threeColor buffercount).apply hwidth (by omega)]
  unfold stripes covering filled
  split_ifs <;> first | rfl | omega

/-- **Stripes of any height** are stripes.

**Proof sketch.** Red is only above `a`, green only from `a` to `b`, blue only from `b` on, so the
colours are in order from top to bottom. -/
theorem striped_of_bands {a b : ℕ} (hab : a ≤ b)
    (hm : ∀ px < s.xres, ∀ py < s.yres, m (s.pixel bn px py) =
      if py < a then red else if py < b then green else blue) : s.Striped m bn := by
  have hred : ∀ px < s.xres, ∀ py < s.yres, m (s.pixel bn px py) = red → py < a := by
    intro px hx py hy h
    rw [hm px hx py hy] at h
    by_contra hnot
    rw [if_neg hnot] at h
    split_ifs at h <;> exact absurd h (by decide)
  have hgreen : ∀ px < s.xres, ∀ py < s.yres, m (s.pixel bn px py) = green → a ≤ py ∧ py < b := by
    intro px hx py hy h
    rw [hm px hx py hy] at h
    split_ifs at h with h1 h2
    · exact absurd h (by decide)
    · exact ⟨Nat.le_of_not_lt h1, h2⟩
    · exact absurd h (by decide)
  have hblue : ∀ px < s.xres, ∀ py < s.yres, m (s.pixel bn px py) = blue → b ≤ py := by
    intro px hx py hy h
    rw [hm px hx py hy] at h
    by_contra hnot
    rw [if_pos (Nat.lt_of_not_le hnot)] at h
    split_ifs at h <;> exact absurd h (by decide)
  refine ⟨fun px hx py hy => ?_, fun px hx py hy px' hx' py' hy' h h' => ?_,
    fun px hx py hy px' hx' py' hy' h h' => ?_, fun px hx py hy px' hx' py' hy' h h' => ?_⟩
  · rw [hm px hx py hy]
    split_ifs
    · exact .inl rfl
    · exact .inr (.inl rfl)
    · exact .inr (.inr rfl)
  · exact Nat.lt_of_lt_of_le (hred px hx py hy h) (hgreen px' hx' py' hy' h').1
  · exact (hred px hx py hy h).trans_le (hab.trans (hblue px' hx' py' hy' h'))
  · exact Nat.lt_of_lt_of_le (hgreen px hx py hy h).2 (hblue px' hx' py' hy' h')

/-- A row of one colour. -/
def Screen.RowIs (s : Screen) (m : ℕ → UInt32) (bn py : ℕ) (color : UInt32) : Prop :=
  ∀ px < s.xres, m (s.pixel bn px py) = color

/-- **A row that is not drawn** keeps what was there. -/
theorem draw_of_not_drawn (hs : s.stride = s.xres) (m : ℕ → UInt32) (buffercount px : ℕ)
    (hx : px < s.xres) {py : ℕ} (hgreen : s.yres / 3 + s.yres / 3 ≤ py)
    (hblue : py < 2 * s.yres / 3 ∨ 2 * s.yres / 3 + s.yres / 3 ≤ py) :
    s.draw m (setThreeColor s buffercount) (s.pixel ((buffercount + 1) % 2) px py) =
      m (s.pixel ((buffercount + 1) % 2) px py) := by
  rw [draw_setThreeColor hs m buffercount px hx, if_neg (by omega), if_neg (by omega),
    if_neg (by omega)]

section Rows

variable (hs : s.stride = s.xres) (h3 : 3 ≤ s.yres) {buffercount : ℕ}
include hs h3

/-- **The last row** is below a blue one, so that it can only be blue.

**Proof sketch.** The last row is not drawn when the height is no multiple of three. It cannot be
red or green, because there is a blue row above it. -/
theorem last_row_of_striped (hmod : s.yres % 3 ≠ 0)
    (h : s.Striped (s.draw m (setThreeColor s buffercount)) ((buffercount + 1) % 2)) :
    s.RowIs m ((buffercount + 1) % 2) (s.yres - 1) blue := by
  intro px hx
  have hgreen : s.draw m (setThreeColor s buffercount)
      (s.pixel ((buffercount + 1) % 2) px (s.yres / 3)) = green := by
    rw [draw_setThreeColor hs m buffercount px hx, if_neg (Nat.lt_irrefl _), if_pos (by omega)]
  have hblue : s.draw m (setThreeColor s buffercount)
      (s.pixel ((buffercount + 1) % 2) px (2 * s.yres / 3)) = blue := by
    rw [draw_setThreeColor hs m buffercount px hx, if_neg (by omega), if_neg (by omega),
      if_pos (by omega)]
  rw [← draw_of_not_drawn hs m buffercount px hx (by omega) (.inr (by omega))]
  rcases h.colored px hx (s.yres - 1) (by omega) with hred | hgreen' | hblue'
  · have := h.red_green px hx _ (by omega) px hx _ (by omega) hred hgreen
    omega
  · have := h.green_blue px hx _ (by omega) px hx _ (by omega) hgreen' hblue
    omega
  · exact hblue'

/-- **The row above the blue stripe** is below a green one, so that it is green or blue, and then as
a whole.

**Proof sketch.** The row is not drawn, and cannot be red because there is a green row above it. If
one of its pixels is blue, none can be green. -/
theorem middle_row_of_striped (hmod : s.yres % 3 = 2)
    (h : s.Striped (s.draw m (setThreeColor s buffercount)) ((buffercount + 1) % 2)) :
    s.RowIs m ((buffercount + 1) % 2) (s.yres / 3 + s.yres / 3) green ∨
      s.RowIs m ((buffercount + 1) % 2) (s.yres / 3 + s.yres / 3) blue := by
  have hkept : ∀ px < s.xres, s.draw m (setThreeColor s buffercount)
      (s.pixel ((buffercount + 1) % 2) px (s.yres / 3 + s.yres / 3)) =
        m (s.pixel ((buffercount + 1) % 2) px (s.yres / 3 + s.yres / 3)) := fun px hx =>
    draw_of_not_drawn hs m buffercount px hx (Nat.le_refl _) (.inl (by omega))
  have hor : ∀ px < s.xres,
      m (s.pixel ((buffercount + 1) % 2) px (s.yres / 3 + s.yres / 3)) = green ∨
      m (s.pixel ((buffercount + 1) % 2) px (s.yres / 3 + s.yres / 3)) = blue := by
    intro px hx
    have hgreen : s.draw m (setThreeColor s buffercount)
        (s.pixel ((buffercount + 1) % 2) px (s.yres / 3)) = green := by
      rw [draw_setThreeColor hs m buffercount px hx, if_neg (Nat.lt_irrefl _), if_pos (by omega)]
    rw [← hkept px hx]
    rcases h.colored px hx (s.yres / 3 + s.yres / 3) (by omega) with hred | hrest
    · have := h.red_green px hx _ (by omega) px hx _ (by omega) hred hgreen
      omega
    · exact hrest
  by_cases hall : s.RowIs m ((buffercount + 1) % 2) (s.yres / 3 + s.yres / 3) green
  · exact .inl hall
  -- One pixel of the row is blue, and then all are.
  obtain ⟨px₀, hx₀, hnot⟩ : ∃ px, ∃ _ : px < s.xres,
      m (s.pixel ((buffercount + 1) % 2) px (s.yres / 3 + s.yres / 3)) ≠ green := by
    by_contra hcon
    exact hall fun px hx => by_contra fun hne => hcon ⟨px, hx, hne⟩
  have hblue₀ := (hor px₀ hx₀).resolve_left hnot
  refine .inr fun px hx => (hor px hx).resolve_left fun hgreen' => ?_
  rw [← hkept px hx] at hgreen'
  rw [← hkept px₀ hx₀] at hblue₀
  have := h.green_blue px hx _ (by omega) px₀ hx₀ _ (by omega) hgreen' hblue₀
  omega

/-- **Rows of the right colour** complete the stripes.

**Proof sketch.** The rows that are not drawn complete the green or the blue stripe, so there are
stripes (`striped_of_bands`). -/
theorem striped_of_rows (hlast : s.RowIs m ((buffercount + 1) % 2) (s.yres - 1) blue)
    (hmiddle : s.yres % 3 = 2 →
      s.RowIs m ((buffercount + 1) % 2) (s.yres / 3 + s.yres / 3) green ∨
        s.RowIs m ((buffercount + 1) % 2) (s.yres / 3 + s.yres / 3) blue) :
    s.Striped (s.draw m (setThreeColor s buffercount)) ((buffercount + 1) % 2) := by
  by_cases hgreen : s.yres % 3 = 2 ∧
      s.RowIs m ((buffercount + 1) % 2) (s.yres / 3 + s.yres / 3) green
  · obtain ⟨hmod, hgreen⟩ := hgreen
    refine striped_of_bands (a := s.yres / 3) (b := s.yres / 3 + s.yres / 3 + 1) (by omega) ?_
    intro px hx py hy
    rw [draw_setThreeColor hs m buffercount px hx]
    by_cases hpy : py = s.yres / 3 + s.yres / 3
    · rw [hpy, hgreen px hx]
      split_ifs <;> first | rfl | omega
    · by_cases hpy' : py = s.yres - 1
      · rw [hpy', hlast px hx]
        split_ifs <;> first | rfl | omega
      · split_ifs <;> first | rfl | omega
  · refine striped_of_bands (a := s.yres / 3) (b := s.yres / 3 + s.yres / 3) (by omega) ?_
    intro px hx py hy
    rw [draw_setThreeColor hs m buffercount px hx]
    by_cases hpy : s.yres % 3 = 2 ∧ py = s.yres / 3 + s.yres / 3
    · obtain ⟨hmod, rfl⟩ := hpy
      rw [(hmiddle hmod).resolve_left (fun hg => hgreen ⟨hmod, hg⟩) px hx]
      split_ifs <;> rfl
    · split_ifs with h1 h2 h3'
      · rfl
      · rfl
      · rfl
      · obtain rfl : py = s.yres - 1 := by omega
        exact hlast px hx

end Rows

/-- **The three stripes** are there exactly if the rows that are not drawn had the right colour
before: the last row, unless the height is divisible by `3`, and one above the blue stripe, if the
remainder is `2`.

**Proof sketch.** The pixels of a row that is not drawn are compared with those of the stripes above
and below it. -/
theorem striped_iff (hs : s.stride = s.xres) (h3 : 3 ≤ s.yres) (buffercount : ℕ)
    (m : ℕ → UInt32) :
    s.Striped (s.draw m (setThreeColor s buffercount)) ((buffercount + 1) % 2) ↔
      s.yres % 3 = 0 ∨
        s.RowIs m ((buffercount + 1) % 2) (s.yres - 1) blue ∧
          (s.yres % 3 = 2 → s.RowIs m ((buffercount + 1) % 2) (s.yres / 3 + s.yres / 3) green ∨
            s.RowIs m ((buffercount + 1) % 2) (s.yres / 3 + s.yres / 3) blue) := by
  constructor
  · intro h
    by_cases hmod : s.yres % 3 = 0
    · exact .inl hmod
    · exact .inr ⟨last_row_of_striped hs h3 hmod h, fun hmod2 =>
        middle_row_of_striped hs h3 hmod2 h⟩
  · rintro (hmod | ⟨hlast, hmiddle⟩)
    · refine striped_of_bands (a := s.yres / 3) (b := s.yres / 3 + s.yres / 3) (by omega) ?_
      intro px hx py hy
      rw [draw_setThreeColor hs m buffercount px hx]
      split_ifs <;> first | rfl | omega
    · exact striped_of_rows hs h3 hlast hmiddle

end Stripes

/-- A screen that is as wide as high, and blue before. -/
theorem striped_iff_square : (⟨320, 320, 1280⟩ : Screen).stride = 320 ∧ 3 ≤ 320 ∧
    ((⟨320, 320, 1280⟩ : Screen).Striped
        ((⟨320, 320, 1280⟩ : Screen).draw (fun _ => blue) (setThreeColor ⟨320, 320, 1280⟩ 5)) 0 ↔
      320 % 3 = 0 ∨ (⟨320, 320, 1280⟩ : Screen).RowIs (fun _ => blue) 0 319 blue ∧
        (320 % 3 = 2 → (⟨320, 320, 1280⟩ : Screen).RowIs (fun _ => blue) 0 212 green ∨
          (⟨320, 320, 1280⟩ : Screen).RowIs (fun _ => blue) 0 212 blue)) :=
  ⟨by decide, by decide,
    striped_iff (s := ⟨320, 320, 1280⟩) (by decide) (by decide) 5 fun _ => blue⟩

/-- On a square screen that was black the last row stays black. -/
theorem not_striped_black : ¬ (⟨320, 320, 1280⟩ : Screen).Striped
    ((⟨320, 320, 1280⟩ : Screen).draw (fun _ => black) (setThreeColor ⟨320, 320, 1280⟩ 5))
    ((5 + 1) % 2) := by
  intro h
  have hlast := h.colored 0 (by decide) 319 (by decide)
  rw [draw_setThreeColor (by decide) (fun _ => black) 5 0 (by decide) 319] at hlast
  exact absurd hlast (by decide)

end JzPretest.TestLcd

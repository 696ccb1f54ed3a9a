import JzPretest.Semantics.Raster

set_option relaxedAutoImplicit false
set_option autoImplicit false

/-!
# The test of the display

`test_lcd` draws into two framebuffers that lie one behind the other. The rows of a framebuffer are
as long as the driver says, which may be longer than the screen is wide; that is how
`framebuffer_set_color` finds them, but the functions that call it, and `clear_screen`, take them to
be as long as the screen is wide.

## Main definitions

* `JzPretest.TestLcd.Screen` — what the driver says of the screen.
* `JzPretest.TestLcd.clearScreen`, `JzPretest.TestLcd.framebufferSetColor`,
  `JzPretest.TestLcd.rectangle`, `JzPretest.TestLcd.setThreeColor`,
  `JzPretest.TestLcd.setRectangle` — the functions that draw.
* `JzPretest.TestLcd.Screen.Fills` — some pixels, and nothing else, are drawn in a colour.

## Main results

* `JzPretest.TestLcd.layout_iff` — when exactly the functions agree on where a pixel is.
-/

namespace JzPretest.TestLcd

/-! ## The framebuffers -/

/-- What the driver says of the screen, whose pixels have 32 bits: `vi.xres`, `vi.yres` and
`fi.line_length`. -/
structure Screen where
  xres : ℕ
  yres : ℕ
  lineLength : ℕ
  deriving DecidableEq, Repr

/-- The words of a row: `fi.line_length / (vi.bits_per_pixel >> 3)`. -/
def Screen.stride (s : Screen) : ℕ := s.lineLength / (32 >>> 3)

/-- `gr_framebuffer[bn].data`, in words from the first framebuffer on. -/
def Screen.data (s : Screen) (bn : ℕ) : ℕ := if bn = 0 then 0 else s.yres * s.xres

/-- A write to the framebuffer `bn`, so many words behind its beginning. -/
structure Write where
  bn : ℕ
  word : ℕ
  color : UInt32
  deriving DecidableEq, Repr

/-- The framebuffers after some writes. -/
def Screen.draw (s : Screen) (m : ℕ → UInt32) (ws : List Write) : ℕ → UInt32 :=
  Raster.store (fun w : Write => s.data w.bn + w.word) Write.color m ws

/-- The colour `red`. -/
def red : UInt32 := 0xff0000

/-- The colour `green`. -/
def green : UInt32 := 0x00ff00

/-- The colour `blue`. -/
def blue : UInt32 := 0x0000ff

/-- The colour `black`. -/
def black : UInt32 := 0x0

/-- The colour `white`. -/
def white : UInt32 := 0xffffff

/-! ## Drawing -/

section Drawing

variable (s : Screen)

/-- `clear_screen`, from the beginning of a framebuffer. -/
def clearScreen (w h bn : ℕ) : List Write :=
  Raster.grid w h fun i j => ⟨bn, j * w + i, 0x0⟩

/-- `framebuffer_set_color`, from the word `loc` of a framebuffer on. -/
def framebufferSetColor (w h bn loc : ℕ) (color : UInt32) : List Write :=
  Raster.grid w h fun i j => ⟨bn, loc + (i + j * s.stride), color⟩

/-- `rectangle` -/
def rectangle (x y w h : ℕ) (color : UInt32) (bn : ℕ) : List Write :=
  framebufferSetColor s w h bn (s.xres * y + x) color

/-- `set_three_color`, for this value of `buffercount`. -/
def setThreeColor (buffercount : ℕ) : List Write :=
  let w := s.xres
  let h := s.yres
  let id := (buffercount + 1) % 2
  framebufferSetColor s w (h / 3) id 0 red ++
    framebufferSetColor s w (h / 3) id (h / 3 * w) green ++
    framebufferSetColor s w (h / 3) id (2 * h / 3 * w) blue

/-- `set_rectangle`, for this value of `buffercount`. -/
def setRectangle (buffercount x y : ℕ) : List Write :=
  let k := x
  let l := y
  let w := s.xres
  let h := s.yres
  let recW := w / k
  let recH := h / l
  let id := (buffercount + 1) % 2
  clearScreen w h 0 ++ clearScreen w h 1 ++
    Raster.alternate y
      (fun j => Raster.alternate l
        (fun i => rectangle s (i * recW) (j * recH) recW recH white id)
        (fun i => rectangle s (i * recW) (j * recH) recW recH black id))
      (fun j => Raster.alternate k
        (fun i => rectangle s (i * recW) (j * recH) recW recH black id)
        (fun i => rectangle s (i * recW) (j * recH) recW recH white id))

end Drawing

/-! ## Pixels -/

section Pixels

variable (s : Screen)

/-- The word of a pixel of a framebuffer. -/
def Screen.pixel (bn px py : ℕ) : ℕ := s.data bn + (py * s.stride + px)

/-- **Painting**: after these writes each pixel of a framebuffer that has a colour in the picture
has this colour, and all other words are what they were. -/
def Screen.Paints (ws : List Write) (bn : ℕ) (picture : ℕ → ℕ → Option UInt32) : Prop :=
  ∀ m, (∀ px py color, picture px py = some color → s.draw m ws (s.pixel bn px py) = color) ∧
    ∀ a, (∀ px py, picture px py ≠ none → a ≠ s.pixel bn px py) → s.draw m ws a = m a

/-- A rectangle. -/
def filled (x y w h : ℕ) (color : UInt32) (px py : ℕ) : Option UInt32 :=
  if (x ≤ px ∧ px < x + w) ∧ y ≤ py ∧ py < y + h then some color else none

/-- One picture with another one behind it. -/
def covering (p q : ℕ → ℕ → Option UInt32) (px py : ℕ) : Option UInt32 := (p px py).or (q px py)

/-- The picture of `set_three_color`. -/
def stripes : ℕ → ℕ → Option UInt32 :=
  covering (filled 0 (2 * s.yres / 3) s.xres (s.yres / 3) blue)
    (covering (filled 0 (s.yres / 3) s.xres (s.yres / 3) green)
      (filled 0 0 s.xres (s.yres / 3) red))

/-- **The functions agree** on where a pixel is: `framebuffer_set_color` and `rectangle` paint a
rectangle, `clear_screen` paints the screen, and `set_three_color` its stripes. -/
structure Screen.LayoutAgrees : Prop where
  setColor : ∀ x y w h bn color,
    s.Paints (framebufferSetColor s w h bn (y * s.stride + x) color) bn (filled x y w h color)
  rectangle : ∀ x y w h color bn, x + w ≤ s.xres → y + h ≤ s.yres →
    s.Paints (rectangle s x y w h color bn) bn (filled x y w h color)
  clear : ∀ bn, s.Paints (clearScreen s.xres s.yres bn) bn (filled 0 0 s.xres s.yres 0x0)
  threeColor : ∀ buffercount,
    s.Paints (setThreeColor s buffercount) ((buffercount + 1) % 2) (stripes s)

variable {s}

/-- The color of a pixel in a rectangle. -/
private lemma filled_eq_some_iff {x y w h px py : ℕ} {color color' : UInt32} :
    filled x y w h color px py = some color' ↔
      ((x ≤ px ∧ px < x + w) ∧ y ≤ py ∧ py < y + h) ∧ color = color' := by
  unfold filled
  split_ifs with hin
  · rw [and_iff_right hin, Option.some.injEq]
  · exact iff_of_false not_false fun h => hin h.1

/-- A rectangle colors the pixels that are in it. -/
theorem filled_ne_none_iff {x y w h px py : ℕ} {color : UInt32} :
    filled x y w h color px py ≠ none ↔ (x ≤ px ∧ px < x + w) ∧ y ≤ py ∧ py < y + h := by
  unfold filled
  split_ifs with hin
  · exact iff_of_true (Option.some_ne_none _) hin
  · exact iff_of_false (fun h => h rfl) hin

/-- A pixel is colored if one of two drawings colors it. -/
theorem covering_ne_none_iff {p q : ℕ → ℕ → Option UInt32} {px py : ℕ} :
    covering p q px py ≠ none ↔ p px py ≠ none ∨ q px py ≠ none := by
  unfold covering
  cases p px py with
  | some c => simp
  | none => simp

/-- Different pixels are different words, in rows that are no longer than the stride. -/
theorem pixel_inj {bn px py px' py' : ℕ} (hx : px < s.stride) (hx' : px' < s.stride)
    (h : s.pixel bn px py = s.pixel bn px' py') : px = px' ∧ py = py' := by
  have hword : py * s.stride + px = py' * s.stride + px' := Nat.add_left_cancel h
  have hpos : 0 < s.stride := Nat.zero_lt_of_lt hx
  have hrow : ∀ y x, x < s.stride → (y * s.stride + x) / s.stride = y := by
    intro y x hx
    rw [Nat.add_comm, Nat.add_mul_div_right _ _ hpos, Nat.div_eq_of_lt hx, Nat.zero_add]
  have hcol : ∀ y x, x < s.stride → (y * s.stride + x) % s.stride = x := by
    intro y x hx
    rw [Nat.add_comm, Nat.add_mul_mod_self_right, Nat.mod_eq_of_lt hx]
  refine ⟨?_, ?_⟩
  · rw [← hcol py px hx, hword, hcol py' px' hx']
  · rw [← hrow py px hx, hword, hrow py' px' hx']

/-- **One picture after another**: what is painted later covers what is painted before.

**Proof sketch.** Where the later picture has a colour, it is the one that is seen; elsewhere the
later picture leaves the pixel alone, because pixels in the same row have different addresses. -/
theorem Screen.Paints.append {ws ws' : List Write} {bn : ℕ} {p p' : ℕ → ℕ → Option UInt32}
    (h : s.Paints ws bn p) (h' : s.Paints ws' bn p')
    (hp : ∀ px py, p px py ≠ none → px < s.stride)
    (hp' : ∀ px py, p' px py ≠ none → px < s.stride) :
    s.Paints (ws ++ ws') bn (covering p' p) := by
  intro m
  have happend : s.draw m (ws ++ ws') = s.draw (s.draw m ws) ws' := Raster.store_append _ _ _ _ _
  rw [happend]
  refine ⟨fun px py color hcolor => ?_, fun a ha => ?_⟩
  · unfold covering at hcolor
    cases hlate : p' px py with
    | some c =>
      rw [hlate, Option.some_or] at hcolor
      rw [(h' _).1 px py c hlate, Option.some.inj hcolor]
    | none =>
      rw [hlate, Option.none_or] at hcolor
      have hx := hp px py (by rw [hcolor]; exact Option.some_ne_none _)
      rw [(h' _).2, (h m).1 px py color hcolor]
      intro px' py' hne heq
      obtain ⟨rfl, rfl⟩ := pixel_inj hx (hp' px' py' hne) heq
      exact hne hlate
  · rw [(h' _).2, (h m).2]
    · exact fun px py hne => ha px py (covering_ne_none_iff.mpr (.inr hne))
    · exact fun px py hne => ha px py (covering_ne_none_iff.mpr (.inl hne))

/-- Writes of one colour paint the pixels they go to. -/
lemma paints_filled {ws : List Write} {x y w h bn : ℕ} {color : UInt32}
    (hcolor : ∀ wr ∈ ws, wr.color = color)
    (hws : ∀ a, (∃ wr ∈ ws, s.data wr.bn + wr.word = a) ↔
      ∃ px py, filled x y w h color px py ≠ none ∧ s.pixel bn px py = a) :
    s.Paints ws bn (filled x y w h color) := by
  refine fun m => ⟨fun px py c hc => ?_, fun a ha => ?_⟩
  · obtain ⟨hin, rfl⟩ := filled_eq_some_iff.mp hc
    exact Raster.store_of_mem ((hws _).mpr ⟨px, py, filled_ne_none_iff.mpr hin, rfl⟩)
      fun wr hwr _ => hcolor wr hwr
  · refine Raster.store_of_not_mem fun wr hwr heq => ?_
    obtain ⟨px, py, hin, hpixel⟩ := (hws a).mp ⟨wr, hwr, heq⟩
    exact ha px py hin hpixel.symm

/-- **`framebuffer_set_color`** paints a rectangle, from the word of its first pixel on.

**Proof sketch.** The words that are written are those of the pixels of the rectangle, and every one
of them is written, with the one colour. -/
theorem framebufferSetColor_paints (x y w h bn : ℕ) (color : UInt32) :
    s.Paints (framebufferSetColor s w h bn (y * s.stride + x) color) bn
      (filled x y w h color) := by
  have hword : ∀ i j, y * s.stride + x + (i + j * s.stride) = (y + j) * s.stride + (x + i) := by
    intro i j
    rw [Nat.add_mul]
    omega
  refine paints_filled (fun wr hwr => ?_) fun a => ⟨?_, ?_⟩
  · obtain ⟨i, -, j, -, rfl⟩ := Raster.mem_grid.mp hwr
    rfl
  · rintro ⟨wr, hwr, rfl⟩
    obtain ⟨i, hi, j, hj, rfl⟩ := Raster.mem_grid.mp hwr
    refine ⟨x + i, y + j, filled_ne_none_iff.mpr ⟨by omega, by omega⟩, ?_⟩
    rw [Screen.pixel, ← hword]
  · rintro ⟨px, py, hin, rfl⟩
    obtain ⟨⟨hx, hx'⟩, hy, hy'⟩ := filled_ne_none_iff.mp hin
    obtain ⟨i, rfl⟩ := Nat.exists_eq_add_of_le hx
    obtain ⟨j, rfl⟩ := Nat.exists_eq_add_of_le hy
    refine ⟨_, Raster.mem_grid.mpr ⟨i, by omega, j, by omega, rfl⟩, ?_⟩
    rw [Screen.pixel, ← hword]

end Pixels

/-! ## The layout -/

section Layout

variable {s : Screen}

/-- A rectangle without pixels is painted by nothing. -/
private lemma paints_nil {x y w h bn : ℕ} {color : UInt32} (hempty : w = 0 ∨ h = 0) :
    s.Paints [] bn (filled x y w h color) := by
  refine paints_filled (List.forall_mem_nil _) fun a => iff_of_false ?_ ?_
  · rintro ⟨wr, hwr, -⟩
    exact absurd hwr List.not_mem_nil
  · rintro ⟨px, py, hin, -⟩
    have := filled_ne_none_iff.mp hin
    omega

/-- A loop over no rows, or no columns. -/
theorem framebufferSetColor_eq_nil {w h : ℕ} (hempty : w = 0 ∨ h = 0) (bn loc : ℕ)
    (color : UInt32) : framebufferSetColor s w h bn loc color = [] := by
  refine List.eq_nil_iff_forall_not_mem.mpr fun wr hwr => ?_
  obtain ⟨i, hi, j, hj, -⟩ := Raster.mem_grid.mp hwr
  omega

/-- **A row taken to be as wide as the screen** paints the same if that is where the row is. -/
theorem framebufferSetColor_paints' {x y w h bn loc : ℕ} {color : UInt32}
    (hloc : w ≠ 0 → h ≠ 0 → loc = y * s.stride + x) :
    s.Paints (framebufferSetColor s w h bn loc color) bn (filled x y w h color) := by
  by_cases hempty : w = 0 ∨ h = 0
  · rw [framebufferSetColor_eq_nil hempty]
    exact paints_nil hempty
  · obtain ⟨hw, hh⟩ := not_or.mp hempty
    rw [hloc hw hh]
    exact framebufferSetColor_paints x y w h bn color

/-- **The layout is the same** when every row of the screen begins where it would with rows as wide
as the screen.

**Proof sketch.** All four functions write rectangles, from a word that is `y * xres + x` or `y *
stride + x`; where both are the same, `framebufferSetColor_paints` applies. The three stripes are
painted one after another. -/
theorem layoutAgrees_of_rows (hs : s.xres ≤ s.stride)
    (hrow : s.xres ≠ 0 → ∀ j < s.yres, j * s.xres = j * s.stride) : s.LayoutAgrees where
  setColor := framebufferSetColor_paints
  rectangle := by
    intro x y w h color bn hx hy
    refine framebufferSetColor_paints' fun hw hh => ?_
    rw [Nat.mul_comm, hrow (by omega) y (by omega)]
  clear := by
    intro bn
    have heq : clearScreen s.xres s.yres bn =
        framebufferSetColor s s.xres s.yres bn (0 * s.stride + 0) 0x0 := by
      refine Raster.grid_congr fun i hi j hj => ?_
      rw [hrow (by omega) j hj]
      congr 1
      omega
    rw [heq]
    exact framebufferSetColor_paints 0 0 s.xres s.yres bn 0x0
  threeColor := by
    intro buffercount
    have hstripe : ∀ r color, r + s.yres / 3 ≤ s.yres →
        s.Paints (framebufferSetColor s s.xres (s.yres / 3) ((buffercount + 1) % 2)
          (r * s.xres) color) ((buffercount + 1) % 2) (filled 0 r s.xres (s.yres / 3) color) :=
      fun r color hr => framebufferSetColor_paints' fun hw hh => hrow hw r (by omega)
    have hwidth : ∀ r color px py,
        filled 0 r s.xres (s.yres / 3) color px py ≠ none → px < s.stride := by
      intro r color px py hin
      have := filled_ne_none_iff.mp hin
      omega
    have hred := hstripe 0 red (by omega)
    rw [Nat.zero_mul] at hred
    have hgreen := hred.append (hstripe (s.yres / 3) green (by omega)) (hwidth _ _) (hwidth _ _)
    refine hgreen.append (hstripe (2 * s.yres / 3) blue (by omega)) (fun px py hin => ?_)
      (hwidth _ _)
    rcases covering_ne_none_iff.mp hin with hin | hin
    · exact hwidth _ _ px py hin
    · exact hwidth _ _ px py hin

/-- **A row that begins elsewhere** is cleared in the wrong place: behind the screen's first row.

**Proof sketch.** The word at `xres` is behind the first row of the screen, so it should be kept;
but it is where the second row is cleared. -/
theorem not_layoutAgrees (hs : s.xres < s.stride) (hx : 0 < s.xres) (hy : 1 < s.yres) :
    ¬ s.LayoutAgrees := by
  intro h
  -- The first word behind the first row, in a framebuffer of ones.
  have hkept := (h.clear 0 fun _ => 1).2 s.xres ?_
  · have hcleared : s.draw (fun _ => 1) (clearScreen s.xres s.yres 0) s.xres = 0x0 := by
      refine Raster.store_of_mem ⟨_, Raster.mem_grid.mpr ⟨0, hx, 1, hy, rfl⟩, ?_⟩ fun wr hwr _ => ?_
      · show s.data 0 + (1 * s.xres + 0) = s.xres
        rw [Nat.one_mul]
        exact Nat.zero_add _
      · obtain ⟨i, -, j, -, rfl⟩ := Raster.mem_grid.mp hwr
        rfl
    exact absurd (hcleared.symm.trans hkept) (by decide)
  · intro px py hin hword
    obtain ⟨⟨-, hpx⟩, -⟩ := filled_ne_none_iff.mp hin
    have hzero : s.xres = py * s.stride + px := hword.trans (Nat.zero_add _)
    cases py with
    | zero => omega
    | succ py =>
      rw [Nat.succ_mul] at hzero
      omega

/-- **The layout** is the same for all drawing functions exactly when the rows of the framebuffer
are as wide as the screen, or there is no second row, or nothing to be drawn. -/
theorem layout_iff (h : s.xres ≤ s.stride) :
    s.LayoutAgrees ↔ s.stride = s.xres ∨ s.yres ≤ 1 ∨ s.xres = 0 := by
  constructor
  · intro hagrees
    by_contra hnot
    exact not_layoutAgrees (by omega) (by omega) (by omega) hagrees
  · intro hcond
    refine layoutAgrees_of_rows h fun hx j hj => ?_
    rcases hcond with hstride | hrow | hx'
    · rw [hstride]
    · obtain rfl : j = 0 := by omega
      rw [Nat.zero_mul, Nat.zero_mul]
    · exact absurd hx' hx

end Layout

/-- A screen without a gap behind its rows. -/
theorem layout_iff_aligned : (⟨320, 240, 1280⟩ : Screen).xres ≤ (⟨320, 240, 1280⟩ : Screen).stride ∧
    ((⟨320, 240, 1280⟩ : Screen).LayoutAgrees ↔
      (⟨320, 240, 1280⟩ : Screen).stride = 320 ∨ 240 ≤ 1 ∨ 320 = 0) :=
  ⟨by decide, layout_iff (by decide)⟩

/-- The layout is not the same when the rows are padded to `384` words. -/
theorem layout_padded : ¬ (⟨320, 240, 1536⟩ : Screen).LayoutAgrees :=
  not_layoutAgrees (by decide) (by decide) (by decide)

end JzPretest.TestLcd

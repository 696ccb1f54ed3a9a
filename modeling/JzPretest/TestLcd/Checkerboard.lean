import JzPretest.TestLcd.TestLcd

set_option relaxedAutoImplicit false
set_option autoImplicit false

/-!
# The checkerboard

`set_rectangle` draws two cells at a time, and two rows of cells, so that it draws one too many of
an odd number. In every other row it draws as many cells as there should be rows: with fewer rows
than columns some cells stay black, and with more the cells that are too many go to the pixels
below.

## Main definitions

* `JzPretest.TestLcd.Checkered` — the writes stay on the screen and leave a checkerboard.

## Main results

* `JzPretest.TestLcd.mem_cell` — where a cell is drawn that is too far to the right.
* `JzPretest.TestLcd.checkered_iff` — when exactly there is a checkerboard.
-/

namespace JzPretest.TestLcd

/-- **A checkerboard** of `x` times `y` cells: all writes are inside their framebuffer, and then
each pixel of the framebuffer that is shown has the colour of its cell. -/
def Checkered (s : Screen) (buffercount x y : ℕ) : Prop :=
  (∀ wr ∈ setRectangle s buffercount x y, wr.word < s.xres * s.yres) ∧
    ∀ m, ∀ px < s.xres, ∀ py < s.yres,
      s.draw m (setRectangle s buffercount x y) (s.pixel ((buffercount + 1) % 2) px py) =
        if (px / (s.xres / x) + py / (s.yres / y)) % 2 = 0 then white else black

/-! ## Cells -/

section Cells

/-- The cells of a screen: `x` in each row, `y` in each column, of so many pixels. -/
structure Cells (s : Screen) (x y recW recH : ℕ) : Prop where
  stride : s.stride = s.xres
  width : s.xres = x * recW
  height : s.yres = y * recH
  x_pos : 0 < x
  y_pos : 0 < y
  recW_pos : 0 < recW
  recH_pos : 0 < recH

variable {s : Screen} {x y recW recH : ℕ}

/-- **A cell that is too far to the right** is drawn one pixel lower for each row of cells it is
beyond. -/
theorem mem_cell (h : Cells s x y recW recH) {i j id : ℕ} {color : UInt32} {wr : Write} :
    wr ∈ rectangle s (i * recW) (j * recH) recW recH color id ↔
      ∃ i' < recW, ∃ j' < recH,
        (⟨id, (j * recH + i / x + j') * s.stride + (i % x * recW + i'), color⟩ : Write) = wr := by
  have hword : ∀ i' j', s.xres * (j * recH) + i * recW + (i' + j' * s.stride) =
      (j * recH + i / x + j') * s.stride + (i % x * recW + i') := by
    intro i' j'
    have hi : i * recW = i / x * s.stride + i % x * recW := by
      rw [h.stride, h.width, ← Nat.mul_assoc, ← Nat.add_mul, Nat.mul_comm (i / x),
        Nat.div_add_mod]
    rw [hi, Nat.add_mul, Nat.add_mul, h.stride, Nat.mul_comm s.xres]
    omega
  unfold rectangle framebufferSetColor
  rw [Raster.mem_grid]
  simp only [hword]

/-- A cell inside the screen is where it belongs. -/
lemma mem_cell_of_lt (h : Cells s x y recW recH) {i j id : ℕ} (hi : i < x) {color : UInt32}
    {wr : Write} :
    wr ∈ rectangle s (i * recW) (j * recH) recW recH color id ↔
      ∃ i' < recW, ∃ j' < recH,
        (⟨id, (j * recH + j') * s.stride + (i * recW + i'), color⟩ : Write) = wr := by
  rw [mem_cell h, Nat.div_eq_of_lt hi, Nat.mod_eq_of_lt hi, Nat.add_zero]

/-- The columns of a cell are on the screen. -/
lemma column_lt (h : Cells s x y recW recH) {c i' : ℕ} (hc : c < x) (hi' : i' < recW) :
    c * recW + i' < s.xres := by
  rw [h.width]
  calc c * recW + i' < c * recW + recW := Nat.add_lt_add_left hi' _
    _ = (c + 1) * recW := (Nat.succ_mul c recW).symm
    _ ≤ x * recW := Nat.mul_le_mul_right recW hc

/-- The pixels of a cell. -/
lemma div_eq_iff {c i' recW px : ℕ} (hi' : i' < recW) (h : c * recW + i' = px) :
    px / recW = c := by
  rw [← h, Nat.mul_comm, Nat.mul_add_div (Nat.zero_lt_of_lt hi'), Nat.div_eq_of_lt hi',
    Nat.add_zero]

/-- What one pass of the outer loop draws in row `j` of the cells: the first and the third colour
change places from one row to the next, and so do the numbers of cells. -/
def cellRow (s : Screen) (n id recW recH : ℕ) (color color' : UInt32) (j : ℕ) : List Write :=
  Raster.alternate n
    (fun i => rectangle s (i * recW) (j * recH) recW recH color id)
    (fun i => rectangle s (i * recW) (j * recH) recW recH color' id)

/-- The writes of a row of cells are those of its cells, of two colors in turn. -/
lemma mem_cellRow {n id j : ℕ} {color color' : UInt32} {wr : Write} :
    wr ∈ cellRow s n id recW recH color color' j ↔
      ∃ i, 2 * (i / 2) < n ∧ wr ∈
        rectangle s (i * recW) (j * recH) recW recH (if i % 2 = 0 then color else color') id := by
  rw [cellRow, Raster.mem_alternate]
  refine exists_congr fun i => and_congr_right fun _ => ?_
  split_ifs <;> exact Iff.rfl

/-- **The cells** in the order in which they are drawn. -/
theorem setRectangle_eq (h : Cells s x y recW recH) (buffercount : ℕ) :
    setRectangle s buffercount x y =
      clearScreen s.xres s.yres 0 ++ clearScreen s.xres s.yres 1 ++
        Raster.alternate y
          (cellRow s y ((buffercount + 1) % 2) recW recH white black)
          (cellRow s x ((buffercount + 1) % 2) recW recH black white) := by
  have hw : s.xres / x = recW := by rw [h.width, Nat.mul_div_cancel_left _ h.x_pos]
  have hh : s.yres / y = recH := by rw [h.height, Nat.mul_div_cancel_left _ h.y_pos]
  unfold setRectangle
  dsimp only
  rw [hw, hh]
  rfl

/-- **A write of `set_rectangle`** is to clear the screen, or to draw a cell. -/
theorem mem_setRectangle (h : Cells s x y recW recH) {buffercount : ℕ} {wr : Write} :
    wr ∈ setRectangle s buffercount x y ↔
      (wr ∈ clearScreen s.xres s.yres 0 ∨ wr ∈ clearScreen s.xres s.yres 1) ∨
        ∃ j, 2 * (j / 2) < y ∧
          ((j % 2 = 0 ∧ wr ∈ cellRow s y ((buffercount + 1) % 2) recW recH white black j) ∨
            (j % 2 = 1 ∧ wr ∈ cellRow s x ((buffercount + 1) % 2) recW recH black white j)) := by
  rw [setRectangle_eq h, List.mem_append, List.mem_append, Raster.mem_alternate]
  refine or_congr_right (exists_congr fun j => and_congr_right fun _ => ?_)
  rcases Nat.mod_two_eq_zero_or_one j with hj | hj
  · simp [hj]
  · simp [hj]

/-! ## Staying inside -/

/-- A pixel of the screen is inside its framebuffer. -/
private lemma word_lt (hs : s.stride = s.xres) {row col : ℕ} (hrow : row < s.yres)
    (hcol : col < s.xres) :
    row * s.stride + col < s.xres * s.yres := by
  rw [hs]
  calc row * s.xres + col < row * s.xres + s.xres := Nat.add_lt_add_left hcol _
    _ = (row + 1) * s.xres := (Nat.succ_mul row s.xres).symm
    _ ≤ s.yres * s.xres := Nat.mul_le_mul_right _ hrow
    _ = s.xres * s.yres := Nat.mul_comm _ _

/-- A row of pixels in a row of cells. -/
private lemma row_lt {j r : ℕ} (hj : (j + 1) * recH ≤ s.yres)
    (hr : r < recH) : j * recH + r < s.yres := by
  rw [Nat.succ_mul] at hj
  omega

/-- **All writes are inside** when cells are drawn in pairs, and the cells that are too many reach
no further than the last row of the cells.

**Proof sketch.** A cell in its own column ends inside the screen. A cell that is too many is drawn
in a column again, lower by one pixel for each time around, and that is inside the two rows of cells
that begin there. -/
theorem inside_of_even (h : Cells s x y recW recH) (hx : x % 2 = 0) (hy : y % 2 = 0)
    (hover : (y - 1) / x ≤ recH) (buffercount : ℕ) :
    ∀ wr ∈ setRectangle s buffercount x y, wr.word < s.xres * s.yres := by
  have hclear : ∀ bn, ∀ wr ∈ clearScreen s.xres s.yres bn, wr.word < s.xres * s.yres := by
    intro bn wr hwr
    obtain ⟨i, hi, j, hj, rfl⟩ := Raster.mem_grid.mp hwr
    have hlt := word_lt h.stride hj hi
    rwa [h.stride] at hlt
  intro wr hwr
  rcases (mem_setRectangle h).mp hwr with (hwr | hwr) | ⟨j, hj, ⟨hj2, hwr⟩ | ⟨hj2, hwr⟩⟩
  · exact hclear 0 wr hwr
  · exact hclear 1 wr hwr
  · -- The cells of an even row that are too many are drawn above the end of the next row.
    obtain ⟨i, hi, hwr⟩ := mem_cellRow.mp hwr
    obtain ⟨i', hi', j', hj', rfl⟩ := (mem_cell h).mp hwr
    refine word_lt h.stride ?_ (column_lt h (Nat.mod_lt i h.x_pos) hi')
    have hbeyond : i / x ≤ recH := (Nat.div_le_div_right (by omega)).trans hover
    have hrows : (j + 1 + 1) * recH ≤ s.yres := by
      rw [h.height]
      exact Nat.mul_le_mul_right recH (by omega)
    rw [Nat.succ_mul, Nat.succ_mul] at hrows
    show j * recH + i / x + j' < s.yres
    omega
  · obtain ⟨i, hi, hwr⟩ := mem_cellRow.mp hwr
    obtain ⟨i', hi', j', hj', rfl⟩ := (mem_cell_of_lt h (by omega)).mp hwr
    refine word_lt h.stride (row_lt ?_ hj') (column_lt h (by omega) hi')
    rw [h.height]
    exact Nat.mul_le_mul_right recH (by omega)

/-- **An even number of rows**: otherwise a row is drawn below the screen. -/
theorem even_rows_of_inside (h : Cells s x y recW recH) {buffercount : ℕ}
    (hin : ∀ wr ∈ setRectangle s buffercount x y, wr.word < s.xres * s.yres) : y % 2 = 0 := by
  by_contra hodd
  have hmem : (⟨(buffercount + 1) % 2, (y * recH + 0) * s.stride + (0 * recW + 0), black⟩ : Write) ∈
      setRectangle s buffercount x y := by
    refine (mem_setRectangle h).mpr (.inr ⟨y, by omega, .inr ⟨by omega, ?_⟩⟩)
    refine mem_cellRow.mpr ⟨0, h.x_pos, ?_⟩
    exact (mem_cell_of_lt h h.x_pos).mpr ⟨0, h.recW_pos, 0, h.recH_pos, rfl⟩
  have hlt := hin _ hmem
  dsimp only at hlt
  rw [Nat.add_zero, ← h.height, h.stride, Nat.mul_comm] at hlt
  omega

/-- **An even number of columns**: otherwise the last row gets a cell too many, and so low that it
reaches below the screen.

**Proof sketch.** With an odd number of columns the last row of cells gets one cell more, a pixel
lower; its last pixel row is the first one below the screen. -/
theorem even_columns_of_inside (h : Cells s x y recW recH) (hy : y % 2 = 0) {buffercount : ℕ}
    (hin : ∀ wr ∈ setRectangle s buffercount x y, wr.word < s.xres * s.yres) : x % 2 = 0 := by
  by_contra hodd
  have hypos := h.y_pos
  have hrecH := h.recH_pos
  have hmem : (⟨(buffercount + 1) % 2,
      ((y - 1) * recH + x / x + (recH - 1)) * s.stride + (x % x * recW + 0), white⟩ : Write) ∈
      setRectangle s buffercount x y := by
    refine (mem_setRectangle h).mpr (.inr ⟨y - 1, by omega, .inr ⟨by omega, ?_⟩⟩)
    refine mem_cellRow.mpr ⟨x, by omega, ?_⟩
    rw [if_neg hodd]
    exact (mem_cell h).mpr ⟨0, h.recW_pos, recH - 1, by omega, rfl⟩
  have hlt := hin _ hmem
  have hrow : (y - 1) * recH + x / x + (recH - 1) = s.yres := by
    rw [Nat.div_self h.x_pos, h.height]
    obtain ⟨k, rfl⟩ := Nat.exists_eq_add_of_le hypos
    rw [Nat.add_sub_cancel_left, Nat.add_mul]
    omega
  dsimp only at hlt
  rw [hrow, h.stride, Nat.mul_comm] at hlt
  omega

/-- **Not too many cells**: the last one of an even row must not reach below the screen.

**Proof sketch.** The last cell of the last even row is lower by as many pixels as it has gone
around; its last pixel row must be on the screen. -/
theorem over_le_of_inside (h : Cells s x y recW recH) (hy : y % 2 = 0) {buffercount : ℕ}
    (hin : ∀ wr ∈ setRectangle s buffercount x y, wr.word < s.xres * s.yres) :
    (y - 1) / x ≤ recH := by
  have hypos := h.y_pos
  have hrecH := h.recH_pos
  have hmem : (⟨(buffercount + 1) % 2, ((y - 2) * recH + (y - 1) / x + (recH - 1)) * s.stride +
      ((y - 1) % x * recW + 0), black⟩ : Write) ∈ setRectangle s buffercount x y := by
    refine (mem_setRectangle h).mpr (.inr ⟨y - 2, by omega, .inl ⟨by omega, ?_⟩⟩)
    refine mem_cellRow.mpr ⟨y - 1, by omega, ?_⟩
    rw [if_neg (by omega)]
    exact (mem_cell h).mpr ⟨0, h.recW_pos, recH - 1, by omega, rfl⟩
  have hlt := hin _ hmem
  by_contra hover
  have hrow : s.yres ≤ (y - 2) * recH + (y - 1) / x + (recH - 1) := by
    rw [h.height]
    obtain ⟨k, rfl⟩ : ∃ k, y = k + 2 := ⟨y - 2, by omega⟩
    rw [Nat.add_sub_cancel, Nat.add_mul]
    omega
  have hword := Nat.mul_le_mul_right s.stride hrow
  rw [h.stride, Nat.mul_comm s.yres] at hword
  dsimp only at hlt
  rw [h.stride] at hlt
  omega

/-! ## The picture -/

/-- A write of a cell to a pixel of the screen. -/
lemma cell_eq_pixel (h : Cells s x y recW recH) {row col px py : ℕ} (hcol : col < s.xres)
    (hpx : px < s.xres) {id : ℕ}
    (heq : s.data id + (row * s.stride + col) = s.pixel id px py) : row = py ∧ col = px := by
  rw [← h.stride] at hcol hpx
  have heq' : s.pixel id col row = s.pixel id px py := heq
  obtain ⟨hc, hr⟩ := pixel_inj hcol hpx heq'
  exact ⟨hr, hc⟩

/-- **A row of cells** leaves the pixels in other rows of cells alone, unless it has cells that are
too many. -/
theorem cellRow_ne (h : Cells s x y recW recH) {n id j px py : ℕ} {color color' : UInt32}
    (hpx : px < s.xres) (hpy : py < j * recH) :
    ∀ wr ∈ cellRow s n id recW recH color color' j,
      s.data wr.bn + wr.word ≠ s.pixel id px py := by
  intro wr hwr heq
  obtain ⟨i, hi, hwr⟩ := mem_cellRow.mp hwr
  obtain ⟨i', hi', j', hj', rfl⟩ := (mem_cell h).mp hwr
  have hrow := (cell_eq_pixel h (column_lt h (Nat.mod_lt i h.x_pos) hi') hpx heq).1
  generalize i / x = beyond at hrow
  omega

/-- **The pixels of a row of cells** get their colour from it: cells that are too many have the same
colour as the cell in whose column they are drawn.

**Proof sketch.** The pixel is written by the cell of its column. All writes there have the same
colour, because going around an even number of columns keeps the parity of the cell. -/
theorem draw_cellRow (h : Cells s x y recW recH) (hx : x % 2 = 0) {n id j px py : ℕ}
    {color color' : UInt32} (hn : x ≤ n) (hpx : px < s.xres) (hpy : py / recH = j)
    (m : ℕ → UInt32) :
    s.draw m (cellRow s n id recW recH color color' j) (s.pixel id px py) =
      if px / recW % 2 = 0 then color else color' := by
  have hrecW := h.recW_pos
  have hlt : px / recW < x := by
    rw [Nat.div_lt_iff_lt_mul hrecW, ← h.width]
    exact hpx
  refine Raster.store_of_mem ?_ fun wr hwr heq => ?_
  · refine ⟨_, mem_cellRow.mpr ⟨px / recW, by omega, (mem_cell_of_lt h hlt).mpr
      ⟨px % recW, Nat.mod_lt px hrecW, py % recH, Nat.mod_lt py h.recH_pos, rfl⟩⟩, ?_⟩
    dsimp only
    rw [← hpy, Nat.mul_comm (py / recH), Nat.div_add_mod, Nat.mul_comm (px / recW),
      Nat.div_add_mod]
    rfl
  · obtain ⟨i, -, hwr⟩ := mem_cellRow.mp hwr
    obtain ⟨i', hi', j', hj', rfl⟩ := (mem_cell h).mp hwr
    have hcol := (cell_eq_pixel h (column_lt h (Nat.mod_lt i h.x_pos) hi') hpx heq).2
    have hcell := div_eq_iff hi' hcol
    have hparity : i % x % 2 = i % 2 := Nat.mod_mod_of_dvd i (Nat.dvd_of_mod_eq_zero hx)
    rw [hcell, hparity]

/-- **The checkerboard** is there when the cells are drawn in pairs, with at least as many rows as
columns.

**Proof sketch.** Rows of cells that begin below the pixel do not write it. The last one that does
is the row of the pixel itself, and its colour there is that of `draw_cellRow`. -/
theorem draw_setRectangle (h : Cells s x y recW recH) (hx : x % 2 = 0) (hy : y % 2 = 0)
    (hxy : x ≤ y) (buffercount : ℕ) (m : ℕ → UInt32) {px py : ℕ} (hpx : px < s.xres)
    (hpy : py < s.yres) :
    s.draw m (setRectangle s buffercount x y) (s.pixel ((buffercount + 1) % 2) px py) =
      if (px / recW + py / recH) % 2 = 0 then white else black := by
  have hrecH := h.recH_pos
  have hlt : py / recH < y := by
    rw [Nat.div_lt_iff_lt_mul hrecH, ← h.height]
    exact hpy
  obtain ⟨before, after, hsplit, hafter⟩ := Raster.exists_alternate_eq
    (n := y) (m := py / recH / 2) (by omega)
    (cellRow s y ((buffercount + 1) % 2) recW recH white black)
    (cellRow s x ((buffercount + 1) % 2) recW recH black white)
  have hbelow : ∀ j, py / recH < j → py < j * recH := fun j hj =>
    (Nat.div_lt_iff_lt_mul hrecH).mp hj
  have hafter' : ∀ wr ∈ after,
      s.data wr.bn + wr.word ≠ s.pixel ((buffercount + 1) % 2) px py := by
    intro wr hwr
    obtain ⟨j, hj, hwr⟩ := hafter wr hwr
    have hpy' := hbelow j (by omega)
    split_ifs at hwr
    · exact cellRow_ne h hpx hpy' wr hwr
    · exact cellRow_ne h hpx hpy' wr hwr
  rw [setRectangle_eq h, hsplit]
  simp only [← List.append_assoc]
  unfold Screen.draw
  rw [Raster.store_append_of_not_mem hafter']
  rcases Nat.mod_two_eq_zero_or_one (py / recH) with heven | hodd
  · -- An even row: the next row leaves it alone.
    rw [Raster.store_append_of_not_mem (cellRow_ne h hpx (hbelow _ (by omega))),
      Raster.store_append]
    refine (draw_cellRow h hx hxy hpx (by omega) _).trans ?_
    split_ifs <;> first | rfl | omega
  · rw [Raster.store_append]
    refine (draw_cellRow h hx (Nat.le_refl x) hpx (by omega) _).trans ?_
    split_ifs <;> first | rfl | omega

/-- **No more columns than rows**: otherwise a cell of the first row that should be white is not
drawn.

**Proof sketch.** With fewer rows than columns no cell of an even row is drawn in the column `y`, so
the first pixel there is still black, where it should be white. -/
theorem le_of_draw (h : Cells s x y recW recH) (hy : y % 2 = 0) {buffercount : ℕ}
    (hdraw : ∀ m, ∀ px < s.xres, ∀ py < s.yres,
      s.draw m (setRectangle s buffercount x y) (s.pixel ((buffercount + 1) % 2) px py) =
        if (px / recW + py / recH) % 2 = 0 then white else black) : x ≤ y := by
  by_contra hlt
  have hyx : y < x := Nat.lt_of_not_le hlt
  have hpx : y * recW < s.xres := column_lt h hyx h.recW_pos
  have hpy : 0 < s.yres := by
    rw [h.height]
    exact Nat.mul_pos h.y_pos h.recH_pos
  have hcell : y * recW / recW = y := Nat.mul_div_cancel y h.recW_pos
  have hcells : ∀ wr ∈ Raster.alternate y
      (cellRow s y ((buffercount + 1) % 2) recW recH white black)
      (cellRow s x ((buffercount + 1) % 2) recW recH black white),
      s.data wr.bn + wr.word ≠ s.pixel ((buffercount + 1) % 2) (y * recW) 0 := by
    intro wr hwr heq
    obtain ⟨j, -, hwr⟩ := Raster.mem_alternate.mp hwr
    by_cases hj : j = 0
    · obtain rfl := hj
      obtain ⟨i, hi, hwr⟩ := mem_cellRow.mp hwr
      obtain ⟨i', hi', j', hj', rfl⟩ := (mem_cell_of_lt h (by omega)).mp hwr
      have hcol := (cell_eq_pixel h (column_lt h (by omega) hi') hpx heq).2
      have hsame := div_eq_iff hi' hcol
      rw [hcell] at hsame
      omega
    · have hbelow : 0 < j * recH := Nat.mul_pos (Nat.pos_of_ne_zero hj) h.recH_pos
      split_ifs at hwr
      · exact cellRow_ne h hpx hbelow wr hwr heq
      · exact cellRow_ne h hpx hbelow wr hwr heq
  have hwhite := hdraw (fun _ => white) _ hpx 0 hpy
  rw [hcell, Nat.zero_div, Nat.add_zero y, if_pos hy, setRectangle_eq h] at hwhite
  -- The pixel is as black as the cleared screen.
  have hblack : s.draw (fun _ => white) (clearScreen s.xres s.yres 0 ++ clearScreen s.xres s.yres 1)
      (s.pixel ((buffercount + 1) % 2) (y * recW) 0) = black := by
    refine Raster.store_of_mem ?_ fun wr hwr _ => ?_
    · have hmem : ∀ bn, (⟨bn, 0 * s.xres + y * recW, 0x0⟩ : Write) ∈
          clearScreen s.xres s.yres bn := fun bn => Raster.mem_grid.mpr ⟨_, hpx, 0, hpy, rfl⟩
      refine ⟨⟨(buffercount + 1) % 2, 0 * s.xres + y * recW, 0x0⟩, ?_, by rw [← h.stride]; rfl⟩
      rcases Nat.mod_two_eq_zero_or_one (buffercount + 1) with hid | hid
      · rw [hid]
        exact List.mem_append_left _ (hmem 0)
      · rw [hid]
        exact List.mem_append_right _ (hmem 1)
    · rcases List.mem_append.mp hwr with hwr | hwr
      · obtain ⟨_, -, _, -, rfl⟩ := Raster.mem_grid.mp hwr
        rfl
      · obtain ⟨_, -, _, -, rfl⟩ := Raster.mem_grid.mp hwr
        rfl
  unfold Screen.draw at hwhite hblack
  rw [Raster.store_append_of_not_mem hcells, hblack] at hwhite
  exact absurd hwhite (by decide)

end Cells

/-- No cells are drawn on a screen without pixels.

**Proof sketch.** Every cell is empty, so nothing is written but what clears the screen, and that is
nothing either. -/
private lemma checkered_of_empty {s : Screen} {x y : ℕ} (hempty : s.xres = 0 ∨ s.yres = 0)
    (buffercount : ℕ) : Checkered s buffercount x y := by
  have hcell : ∀ i j color id, rectangle s i j (s.xres / x) (s.yres / y) color id = [] := by
    refine fun i j color id => framebufferSetColor_eq_nil ?_ _ _ _
    rcases hempty with h | h
    · exact .inl (by rw [h, Nat.zero_div])
    · exact .inr (by rw [h, Nat.zero_div])
  refine ⟨fun wr hwr => ?_, fun m px hpx py hpy => ?_⟩
  · unfold setRectangle at hwr
    simp only [hcell, Raster.alternate_nil, List.append_nil, List.mem_append] at hwr
    rcases hwr with hwr | hwr
    · obtain ⟨i, hi, j, hj, -⟩ := Raster.mem_grid.mp hwr
      omega
    · obtain ⟨i, hi, j, hj, -⟩ := Raster.mem_grid.mp hwr
      omega
  · omega

/-- **The checkerboard** is right exactly when the screen is empty, or there is an even number of
rows and columns of cells, with at least as many rows as columns, but not so many that the cells
that are too many, one row lower for each `x` of them, reach below the screen.

**Proof sketch.** Each condition is necessary because of one write below the screen or one cell that
is not drawn. With all of them each pixel is drawn last by the row of cells it is in, in one or
several cells of one colour. -/
theorem checkered_iff {s : Screen} {x y : ℕ} (hs : s.stride = s.xres) (hx : 1 ≤ x) (hy : 1 ≤ y)
    (hxw : x ∣ s.xres) (hyh : y ∣ s.yres) (buffercount : ℕ) :
    Checkered s buffercount x y ↔
      s.xres = 0 ∨ s.yres = 0 ∨
        x % 2 = 0 ∧ y % 2 = 0 ∧ x ≤ y ∧ (y - 1) / x ≤ s.yres / y := by
  by_cases hempty : s.xres = 0 ∨ s.yres = 0
  · refine iff_of_true (checkered_of_empty hempty buffercount) ?_
    rcases hempty with h | h
    · exact .inl h
    · exact .inr (.inl h)
  · obtain ⟨hw, hh⟩ := not_or.mp hempty
    obtain ⟨recW, hwidth⟩ := hxw
    obtain ⟨recH, hheight⟩ := hyh
    have hrecW : s.xres / x = recW := by rw [hwidth, Nat.mul_div_cancel_left _ hx]
    have hrecH : s.yres / y = recH := by rw [hheight, Nat.mul_div_cancel_left _ hy]
    have h : Cells s x y recW recH :=
      { stride := hs
        width := hwidth
        height := hheight
        x_pos := hx
        y_pos := hy
        recW_pos := Nat.pos_of_ne_zero fun h0 => hw (by rw [hwidth, h0, Nat.mul_zero])
        recH_pos := Nat.pos_of_ne_zero fun h0 => hh (by rw [hheight, h0, Nat.mul_zero]) }
    unfold Checkered
    rw [hrecW, hrecH, or_iff_right hw, or_iff_right hh]
    constructor
    · rintro ⟨hin, hdraw⟩
      have hy2 := even_rows_of_inside h hin
      exact ⟨even_columns_of_inside h hy2 hin, hy2, le_of_draw h hy2 hdraw,
        over_le_of_inside h hy2 hin⟩
    · rintro ⟨hx2, hy2, hxy, hover⟩
      exact ⟨inside_of_even h hx2 hy2 hover buffercount, fun m px hpx py hpy =>
        draw_setRectangle h hx2 hy2 hxy buffercount m hpx hpy⟩

/-- Squares of twenty pixels. -/
theorem checkered_iff_twenty : (⟨320, 240, 1280⟩ : Screen).stride = 320 ∧ 1 ≤ 20 ∧ 20 ∣ 320 ∧
    20 ∣ 240 ∧ (Checkered ⟨320, 240, 1280⟩ 6 20 20 ↔ 320 = 0 ∨ 240 = 0 ∨
      20 % 2 = 0 ∧ 20 % 2 = 0 ∧ 20 ≤ 20 ∧ (20 - 1) / 20 ≤ 240 / 20) :=
  ⟨by decide, by decide, by decide, by decide,
    checkered_iff (s := ⟨320, 240, 1280⟩) (by decide) (by decide) (by decide) (by decide)
      (by decide) 6⟩

/-- Four columns and two rows do not make a checkerboard. -/
theorem not_checkered_four_two : ¬ Checkered ⟨320, 240, 1280⟩ 6 4 2 := by
  intro h
  have hcells : Cells ⟨320, 240, 1280⟩ 4 2 80 120 := by constructor <;> decide
  have hle : 4 ≤ 2 := le_of_draw hcells rfl h.2
  omega

end JzPretest.TestLcd

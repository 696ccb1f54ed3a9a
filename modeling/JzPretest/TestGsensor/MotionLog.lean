import JzPretest.Semantics.TextFile

set_option relaxedAutoImplicit false
set_option autoImplicit false

/-!
# The logs of the motion sensors

`test_gsensor`, `test_gyroscope` and `test_magnet` look at the first eight rows of a log of
`getevent`: each has to be a report of one of three axes, or the end of a group of reports, of which
there may be three. The three programs differ in the axes only. When the end of the file is seen
with a row, the rows that are missing are not missed.

## Main definitions

* `JzPretest.MotionLog.testGsensor`, `JzPretest.MotionLog.testGyroscope`,
  `JzPretest.MotionLog.testMagnet` — the programs.
* `JzPretest.MotionLog.Complete` — the logs that are to be accepted.

## Main results

* `JzPretest.MotionLog.motionTest_eq_zero_iff` — the logs that are accepted.
* `JzPretest.MotionLog.accepts_iff` — when they are the same.
-/

namespace JzPretest.MotionLog

/-! ## The programs -/

/-- What the end of a group of reports begins with. -/
def zeros : List UInt8 :=
  text ['0', '0', '0', '0', ' ', '0', '0', '0', '0', ' ', '0', '0', '0', '0', '0', '0', '0', '0']

/-- The array after `memset`. -/
def cleared : List UInt8 := List.replicate 30 0

/-- What the reports of the axes begin with; the end of a group is none of them, nor is a cleared
array. -/
structure Axes where
  prefixes : List (List UInt8)
  disjoint : ∀ a ∈ prefixes, a.length ≤ zeros.length ∧ ¬ a <+: zeros
  visible : ∀ a ∈ prefixes, ¬ a <+: cleared

/-- The axes of `test_gsensor`. -/
def gsensorAxes : Axes where
  prefixes :=
    [text ['0', '0', '0', '3', ' ', '0', '0', '0', '0', ' '],
      text ['0', '0', '0', '3', ' ', '0', '0', '0', '1', ' '],
      text ['0', '0', '0', '3', ' ', '0', '0', '0', '2', ' ']]
  disjoint := by decide
  visible := by decide

/-- The axes of `test_gyroscope`. -/
def gyroscopeAxes : Axes where
  prefixes :=
    [text ['0', '0', '0', '3', ' ', '0', '0', '3', 'c', ' '],
      text ['0', '0', '0', '3', ' ', '0', '0', '3', 'd', ' '],
      text ['0', '0', '0', '3', ' ', '0', '0', '3', 'e', ' ']]
  disjoint := by decide
  visible := by decide

/-- The axes of `test_magnet`. -/
def magnetAxes : Axes where
  prefixes :=
    [text ['0', '0', '0', '3', ' ', '0', '0', '1', '0', ' '],
      text ['0', '0', '0', '3', ' ', '0', '0', '1', '1', ' '],
      text ['0', '0', '0', '3', ' ', '0', '0', '0', 'a', ' ']]
  disjoint := by decide
  visible := by decide

/-- A row that begins with an axis. -/
def Axes.Report (axes : Axes) (buf : List UInt8) : Prop := ∃ a ∈ axes.prefixes, a <+: buf

instance (axes : Axes) (buf : List UInt8) : Decidable (axes.Report buf) :=
  inferInstanceAs (Decidable (∃ _ ∈ _, _))

/-- What is done about a row, on `count_0`. -/
def checkRow (axes : Axes) (count0 : ℕ) (buf : List UInt8) : Except ℤ ℕ :=
  if axes.Report buf then .ok count0
  else if zeros <+: buf then .ok (count0 + 1)
  else .error (-1)

/-- What is done when `fgets` returns `NULL`: the function is left if more rows would follow, and
else the array is looked at, which `memset` has cleared. -/
def checkNull (axes : Axes) (left count0 : ℕ) : Except ℤ ℕ :=
  if 0 < left then .error (-1) else checkRow axes count0 cleared

/-- `main` of the three programs; there is no log when `fopen` fails. -/
def motionTest (axes : Axes) : Option (List UInt8) → ℤ
  | none => -1
  | some log =>
    match rows 29 (checkNull axes) (checkRow axes) 8 0 (pieces 29 log) with
    | .error ret => ret
    | .ok count0 => if count0 > 3 then -1 else 0

/-- `main` of `test_gsensor`. -/
def testGsensor : Option (List UInt8) → ℤ := motionTest gsensorAxes

/-- `main` of `test_gyroscope`. -/
def testGyroscope : Option (List UInt8) → ℤ := motionTest gyroscopeAxes

/-- `main` of `test_magnet`. -/
def testMagnet : Option (List UInt8) → ℤ := motionTest magnetAxes

/-! ## The logs that are accepted -/

/-- A row that is a report of an axis, or the end of a group. -/
def Axes.Row (axes : Axes) (buf : List UInt8) : Prop := axes.Report buf ∨ zeros <+: buf

/-- Rows of these two kinds, at most three of them of the second one. -/
structure Regular (axes : Axes) (bufs : List (List UInt8)) : Prop where
  row : ∀ buf ∈ bufs, axes.Row buf
  few : bufs.countP (fun buf => zeros <+: buf) ≤ 3

/-- **The logs that are to be accepted**: there are eight lines with an end, and the first eight are
regular. -/
structure Complete (axes : Axes) (log : List UInt8) : Prop where
  enough : 8 ≤ log.count 10
  regular : Regular axes ((lines log).take 8)

instance (axes : Axes) (buf : List UInt8) : Decidable (axes.Row buf) :=
  inferInstanceAs (Decidable (_ ∨ _))

instance (axes : Axes) (bufs : List (List UInt8)) : Decidable (Regular axes bufs) :=
  decidable_of_iff ((∀ buf ∈ bufs, axes.Row buf) ∧ bufs.countP (fun buf => zeros <+: buf) ≤ 3)
    ⟨fun h => ⟨h.1, h.2⟩, fun h => ⟨h.row, h.few⟩⟩

instance (axes : Axes) (log : List UInt8) : Decidable (Complete axes log) :=
  decidable_of_iff (8 ≤ log.count 10 ∧ Regular axes ((lines log).take 8))
    ⟨fun h => ⟨h.1, h.2⟩, fun h => ⟨h.enough, h.regular⟩⟩

section Accepted

variable (axes : Axes)

/-- A report is not the end of a group. -/
lemma Axes.not_zeros_of_report {buf : List UInt8} (h : axes.Report buf) : ¬ zeros <+: buf := by
  obtain ⟨a, ha, hbuf⟩ := h
  obtain ⟨hlen, hnot⟩ := axes.disjoint a ha
  exact fun hzeros => hnot (List.prefix_of_prefix_length_le hbuf hzeros hlen)

/-- **What the rows come to**: the ends of groups are counted, and other rows are not taken.

**Proof sketch.** Induction on the rows: a report goes on with the same counter, the end of a group
with one more, and any other row is an error. -/
theorem foldlM_checkRow (bufs : List (List UInt8)) (count0 : ℕ) :
    bufs.foldlM (checkRow axes) count0 =
      if ∀ buf ∈ bufs, axes.Row buf then
        .ok (count0 + bufs.countP fun buf => zeros <+: buf)
      else .error (-1) := by
  induction bufs generalizing count0 with
  | nil => rfl
  | cons buf bufs ih =>
    rw [List.foldlM_cons, checkRow]
    simp only [List.forall_mem_cons, Axes.Row]
    by_cases hreport : axes.Report buf
    · have hzeros := axes.not_zeros_of_report hreport
      rw [if_pos hreport, List.countP_cons_of_neg (by simpa using hzeros)]
      simp only [hreport, true_or, true_and]
      exact ih count0
    · rw [if_neg hreport]
      by_cases hzeros : zeros <+: buf
      · have hrest := ih (count0 + 1)
        rw [Nat.add_right_comm] at hrest
        rw [if_pos hzeros, List.countP_cons_of_pos (by simpa using hzeros)]
        simp only [hzeros, or_true, true_and]
        exact hrest
      · simp only [hreport, hzeros, or_self, false_and, if_false]
        rfl

/-- When too few rows come, the log is rejected. -/
private lemma checkNull_eq (left count0 : ℕ) : checkNull axes left count0 = .error (-1) := by
  have hreport : ¬ axes.Report cleared := fun ⟨a, ha, hpre⟩ => axes.visible a ha hpre
  have hzeros : ¬ zeros <+: cleared := by decide
  rw [checkNull, checkRow, if_neg hreport, if_neg hzeros, ite_self]

/-- **The logs that are accepted**.

**Proof sketch.** `rows_lines` reduces the loop to the rows it takes, `foldlM_checkRow` says what
they come to, and one counter more than allowed is the other error. -/
theorem motionTest_eq_zero_iff {log : List UInt8} (hshort : LinesShorter 29 log) :
    motionTest axes (some log) = 0 ↔
      (8 ≤ (lines log).length ∨ Unfinished log) ∧ Regular axes ((lines log).take 8) := by
  rw [motionTest, rows_lines (by decide) hshort]
  by_cases hrows : 8 ≤ (lines log).length ∨ Unfinished log
  · rw [if_pos hrows, foldlM_checkRow, Nat.zero_add, and_iff_right hrows]
    by_cases hrow : ∀ buf ∈ (lines log).take 8, axes.Row buf
    · rw [if_pos hrow]
      dsimp only
      constructor
      · intro h
        refine ⟨hrow, ?_⟩
        by_contra hmany
        rw [if_pos (by omega)] at h
        exact absurd h (by decide)
      · exact fun h => if_neg (Nat.not_lt.mpr h.few)
    · rw [if_neg hrow]
      exact iff_of_false (by decide) fun h => hrow h.row
  · have hnull : ∀ left, checkNull axes left = fun _ => .error (-1) := fun left =>
      funext fun count0 => checkNull_eq axes left count0
    rw [if_neg hrows, foldlM_checkRow, hnull]
    refine iff_of_false ?_ fun h => hrows h.1
    split_ifs
    · exact (by decide : (-1 : ℤ) ≠ 0)
    · exact (by decide : (-1 : ℤ) ≠ 0)

end Accepted

/-- **When the programs accept the logs that they are to accept**: for every log with lines that
fit, unless its last line has no end, is the eighth or an earlier one, and all of them are
regular.

**Proof sketch.** `motionTest_eq_zero_iff` and `length_lines`: the two conditions differ only where
an unfinished line takes the place of an end, which is when no more than eight lines are left. -/
theorem accepts_iff (axes : Axes) (log : List UInt8) (hshort : LinesShorter 29 log) :
    (motionTest axes (some log) = 0 ↔ Complete axes log) ↔
      ¬ (Unfinished log ∧ (lines log).length ≤ 8 ∧ Regular axes (lines log)) := by
  have hcomplete : Complete axes log ↔
      8 ≤ log.count 10 ∧ Regular axes ((lines log).take 8) :=
    ⟨fun h => ⟨h.1, h.2⟩, fun h => ⟨h.1, h.2⟩⟩
  have hlen := length_lines log
  rw [motionTest_eq_zero_iff axes hshort, hcomplete]
  by_cases hun : Unfinished log
  · rw [if_pos hun] at hlen
    by_cases hfew : (lines log).length ≤ 8
    · rw [List.take_of_length_le hfew]
      have hcount : ¬ 8 ≤ log.count 10 := by omega
      simp only [hun, hfew, hcount, or_true, true_and, false_and, iff_false]
    · have hcount : 8 ≤ log.count 10 := by omega
      simp only [hun, hfew, hcount, or_true, true_and, false_and, and_false, not_false_eq_true]
  · rw [if_neg hun] at hlen
    simp only [hun, hlen, Nat.add_zero, or_false, false_and, not_false_eq_true]

/-- The log of a whole file with eight lines. -/
private def eightLines : List UInt8 :=
  (List.replicate 2 ((gsensorAxes.prefixes.flatMap (· ++ [10])) ++ zeros ++ [10])).flatten

/-- A log of eight lines, with all three axes. -/
theorem accepts_iff_eight : testGsensor (some eightLines) = 0 ↔ Complete gsensorAxes eightLines :=
  (accepts_iff gsensorAxes eightLines (by decide)).mpr (by decide)

/-- A log that breaks off in its first line. -/
private def brokenOff : List UInt8 := text ['0', '0', '0', '3', ' ', '0', '0', '0', '0', ' ', '0']

/-- **A log that breaks off** is accepted. -/
theorem accepts_broken_off : LinesShorter 29 brokenOff ∧ testGsensor (some brokenOff) = 0 ∧
    ¬ Complete gsensorAxes brokenOff ∧
      ¬ (testGsensor (some brokenOff) = 0 ↔ Complete gsensorAxes brokenOff) := by
  have haccepted : testGsensor (some brokenOff) = 0 := by decide
  have hnot : ¬ Complete gsensorAxes brokenOff := by decide
  exact ⟨by decide, haccepted, hnot, fun h => hnot (h.mp haccepted)⟩

end JzPretest.MotionLog

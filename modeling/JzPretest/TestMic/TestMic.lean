import Mathlib.Data.Int.Notation
import Mathlib.Data.Nat.Notation
import Mathlib.Order.Basic

set_option relaxedAutoImplicit false
set_option autoImplicit false

/-!
# The microphone test

`test_mic` looks at nine samples of a recording and rejects the microphone when exactly eight of
them are what it gives when it is idle. A sample has two bytes, but one of which already the first
byte differs is taken for a single byte, so that the samples behind it are looked for one byte
earlier.

## Main definitions

* `JzPretest.TestMic.testMic` — the program.
* `JzPretest.TestMic.IdleRun` — samples that are all idle.

## Main results

* `JzPretest.TestMic.listen_eq_iff`, `JzPretest.TestMic.listen_succ_eq_iff` — when all samples are
  counted, and when all but one.
* `JzPretest.TestMic.rejects_iff` — when exactly the dead microphones are rejected.
-/

namespace JzPretest.TestMic

/-! ## The program -/

/-- A recording of 1024 bytes. -/
def Capture := { buf : List UInt8 // buf.length = 1024 }

/-- `buf[j]`; the program reads no further than `buf[18]`. -/
def Capture.byte (c : Capture) (j : ℕ) : UInt8 := c.val.getD j 0

/-- One pass of the loop, on `j` and `continue_num`. The second byte is only looked at, and `j` only
incremented again, when the first one is right. -/
def listenPass (c : Capture) (s : ℕ × ℕ) : ℕ × ℕ :=
  if c.byte s.1 = 0x73 then
    if c.byte (s.1 + 1) = 0xfa then (s.1 + 2, s.2 + 1) else (s.1 + 2, s.2)
  else (s.1 + 1, s.2)

/-- So many passes of the loop. -/
def listen (c : Capture) : ℕ → ℕ × ℕ → ℕ × ℕ
  | 0, s => s
  | n + 1, s => listen c n (listenPass c s)

/-- `main`; there is no recording when `open` or `read` fails. -/
def testMic : Option Capture → ℤ
  | none => -1
  | some c => if (listen c 9 (1, 0)).2 = 8 then -1 else 0

/-! ## Idle samples -/

section Samples

variable (c : Capture)

/-- The sample that begins here is idle. -/
def IdleAt (j : ℕ) : Prop := c.byte j = 0x73 ∧ c.byte (j + 1) = 0xfa

/-- From here on so many samples are idle. -/
def IdleRun (j n : ℕ) : Prop := ∀ k < n, IdleAt c (j + 2 * k)

/-- Where the program goes on after a sample that is not idle. -/
def resume (j : ℕ) : ℕ := if c.byte j = 0x73 then j + 2 else j + 1

instance (j : ℕ) : Decidable (IdleAt c j) := inferInstanceAs (Decidable (_ ∧ _))

instance (j n : ℕ) : Decidable (IdleRun c j n) := inferInstanceAs (Decidable (∀ _ < _, _))

/-- No samples are idle. -/
lemma idleRun_zero (j : ℕ) : IdleRun c j 0 := fun _ h => absurd h (Nat.not_lt_zero _)

/-- The first sample, and the others. -/
lemma idleRun_succ (j n : ℕ) : IdleRun c j (n + 1) ↔ IdleAt c j ∧ IdleRun c (j + 2) n := by
  have hshift : ∀ k, j + 2 * (k + 1) = j + 2 + 2 * k := fun k => by omega
  constructor
  · refine fun h => ⟨h 0 (Nat.succ_pos n), fun k hk => ?_⟩
    rw [← hshift]
    exact h (k + 1) (Nat.succ_lt_succ hk)
  · rintro ⟨hfirst, hrest⟩ k hk
    cases k with
    | zero => exact hfirst
    | succ k =>
      rw [hshift]
      exact hrest k (Nat.lt_of_succ_lt_succ hk)

/-- The samples up to the last one, and the last one. -/
private lemma idleRun_concat (j n : ℕ) :
    IdleRun c j (n + 1) ↔ IdleRun c j n ∧ IdleAt c (j + 2 * n) := by
  constructor
  · exact fun h => ⟨fun k hk => h k (Nat.lt_succ_of_lt hk), h n (Nat.lt_succ_self n)⟩
  · rintro ⟨hfirst, hlast⟩ k hk
    rcases Nat.lt_succ_iff_lt_or_eq.mp hk with hk | rfl
    · exact hfirst k hk
    · exact hlast

/-- **Everything a pass can do**. -/
theorem listenPass_eq (j m : ℕ) :
    listenPass c (j, m) = if IdleAt c j then (j + 2, m + 1) else (resume c j, m) := by
  unfold listenPass IdleAt resume
  dsimp only
  split_ifs <;> simp_all

/-- Each pass counts at most one sample. -/
private lemma listen_le (n j m : ℕ) : (listen c n (j, m)).2 ≤ m + n := by
  induction n generalizing j m with
  | zero => exact Nat.le_refl m
  | succ n ih =>
    rw [listen, listenPass_eq]
    split_ifs
    · have := ih (j + 2) (m + 1)
      omega
    · have := ih (resume c j) m
      omega

/-- **All samples are counted** when they are idle. -/
theorem listen_eq_iff (n j m : ℕ) : (listen c n (j, m)).2 = m + n ↔ IdleRun c j n := by
  induction n generalizing j m with
  | zero => exact iff_of_true rfl (idleRun_zero c j)
  | succ n ih =>
    rw [listen, listenPass_eq, idleRun_succ]
    split_ifs with hidle
    · rw [← ih (j + 2) (m + 1), and_iff_right hidle]
      omega
    · have := listen_le c n (resume c j) m
      exact iff_of_false (by omega) fun h => hidle h.1

/-- **All but one** are counted when the others are idle: those before it, and those behind where
the program goes on.

**Proof sketch.** Induction on the passes, by whether the first sample is idle. If it is, the sample
that is not idle is a later one; if not, all the rest have to be idle where the program goes on. -/
theorem listen_succ_eq_iff (n j m : ℕ) :
    (listen c (n + 1) (j, m)).2 = m + n ↔
      ∃ k ≤ n, IdleRun c j k ∧ ¬ IdleAt c (j + 2 * k) ∧
        IdleRun c (resume c (j + 2 * k)) (n - k) := by
  by_cases hidle : IdleAt c j
  · have hrun : ∀ k, IdleRun c j (k + 1) ↔ IdleRun c (j + 2) k := fun k => by
      rw [idleRun_succ, and_iff_right hidle]
    have hshift : ∀ k, j + 2 * (k + 1) = j + 2 + 2 * k := fun k => by omega
    rw [listen, listenPass_eq, if_pos hidle]
    -- The sample that is not idle is not the first one.
    cases n with
    | zero =>
      refine iff_of_false (by rw [listen]; omega) ?_
      rintro ⟨k, hk, -, hnot, -⟩
      obtain rfl := Nat.le_zero.mp hk
      exact hnot hidle
    | succ n =>
      rw [Nat.add_comm n 1, ← Nat.add_assoc, Nat.add_comm 1 n, listen_succ_eq_iff n]
      constructor
      · rintro ⟨k, hk, hbefore, hnot, hbehind⟩
        refine ⟨k + 1, Nat.succ_le_succ hk, (hrun k).mpr hbefore, ?_⟩
        rw [hshift, Nat.add_sub_add_right]
        exact ⟨hnot, hbehind⟩
      · rintro ⟨k, hk, hbefore, hnot, hbehind⟩
        cases k with
        | zero => exact absurd hidle hnot
        | succ k =>
          rw [hshift] at hnot hbehind
          rw [Nat.add_sub_add_right] at hbehind
          exact ⟨k, Nat.le_of_succ_le_succ hk, (hrun k).mp hbefore, hnot, hbehind⟩
  · rw [listen, listenPass_eq, if_neg hidle, listen_eq_iff]
    constructor
    · exact fun h => ⟨0, Nat.zero_le n, idleRun_zero c j, hidle, h⟩
    · rintro ⟨k, -, hbefore, -, hbehind⟩
      cases k with
      | zero => exact hbehind
      | succ k => exact absurd ((idleRun_succ c j k).mp hbefore).1 hidle

/-! ## Which microphones are rejected -/

/-- **The recordings that are rejected**: eight samples are idle, and one is not. -/
theorem testMic_eq_neg_one_iff :
    testMic (some c) = -1 ↔
      ∃ k ≤ 8, IdleRun c 1 k ∧ ¬ IdleAt c (1 + 2 * k) ∧
        IdleRun c (resume c (1 + 2 * k)) (8 - k) := by
  rw [← listen_succ_eq_iff c 8 1 0, Nat.zero_add, testMic]
  split_ifs with hcount
  · exact iff_of_true rfl hcount
  · exact iff_of_false (by decide) hcount

/-- **When exactly the dead microphones are rejected**: for every recording, unless the ninth sample
is idle too, or one of the first eight is not, and all others are.

**Proof sketch.** `testMic_eq_neg_one_iff` asks for eight idle samples out of nine. For eight idle
samples at the beginning that means that the ninth is not idle; without them it means that one of
the first eight is not and the others are. -/
theorem rejects_iff :
    (testMic (some c) = -1 ↔ IdleRun c 1 8) ↔
      ¬ IdleRun c 1 9 ∧
        ¬ ∃ k < 8, IdleRun c 1 k ∧ ¬ IdleAt c (1 + 2 * k) ∧
          IdleRun c (resume c (1 + 2 * k)) (8 - k) := by
  rw [testMic_eq_neg_one_iff, idleRun_concat c 1 8]
  by_cases hdead : IdleRun c 1 8
  · have hnone : ¬ ∃ k < 8, IdleRun c 1 k ∧ ¬ IdleAt c (1 + 2 * k) ∧
        IdleRun c (resume c (1 + 2 * k)) (8 - k) := fun ⟨k, hk, _, hnot, _⟩ => hnot (hdead k hk)
    rw [iff_true_right hdead, and_iff_right hdead, and_iff_left hnone]
    constructor
    · rintro ⟨k, hk, -, hnot, -⟩
      obtain hk | rfl := Nat.lt_or_eq_of_le hk
      · exact absurd (hdead k hk) hnot
      · exact hnot
    · exact fun hnot => ⟨8, Nat.le_refl 8, hdead, hnot, idleRun_zero c _⟩
  · rw [iff_false_right hdead, and_iff_right fun h => hdead h.1, not_iff_not]
    constructor
    · rintro ⟨k, hk, hbefore, h⟩
      obtain hk | rfl := Nat.lt_or_eq_of_le hk
      · exact ⟨k, hk, hbefore, h⟩
      · exact absurd hbefore hdead
    · rintro ⟨k, hk, h⟩
      exact ⟨k, Nat.le_of_lt hk, h⟩

end Samples

/-- A microphone that is dead for nine samples. -/
private def deadCapture : Capture :=
  ⟨0 :: ((List.replicate 9 [0x73, 0xfa]).flatten ++ List.replicate 1005 0), by
    rw [List.length_cons, List.length_append, List.length_replicate]
    rfl⟩

/-- **A dead microphone** passes the test: nine samples are idle. -/
theorem dead_passes :
    IdleRun deadCapture 1 8 ∧ testMic (some deadCapture) = 0 ∧
      ¬ (testMic (some deadCapture) = -1 ↔ IdleRun deadCapture 1 8) := by
  have hdead : IdleRun deadCapture 1 8 := by decide
  have hpasses : testMic (some deadCapture) = 0 := by decide
  refine ⟨hdead, hpasses, fun h => ?_⟩
  rw [hpasses] at h
  exact absurd (h.mpr hdead) (by decide)

end JzPretest.TestMic

import JzPretest.Pretest.Eventnum
import JzPretest.Semantics.Transition
import Mathlib.Data.List.Infix

set_option relaxedAutoImplicit false
set_option autoImplicit false

/-!
# `checktouch`

`checktouch` waits until the log of `getevent` has an event of the touch screen. The number of the
event node comes from `test_eventnum`, which is to be run again with a new log as long as it fails;
but the shell sees its -1 as 255, and compares it with -1.

## Main definitions

* `JzPretest.Pretest.Waiting`, `JzPretest.Pretest.waitStep` — the loops of `checktouch`.
* `JzPretest.Pretest.Retried` — a failed run is followed by another one.

## Main results

* `JzPretest.Pretest.not_guard` — the condition of the inner loop is never true.
* `JzPretest.Pretest.retried_iff` — when every failed run is followed by another one.
-/

namespace JzPretest.Pretest

open Transition

/-! ## The function -/

/-- The exit status of a program whose `main` returns this value. -/
def exitStatus (ret : Int32) : UInt8 := ret.toUInt32.toUInt8

/-- What `checktouch` has when it comes to the condition of its inner loop. -/
structure Waiting where
  /-- `/tmp/check_touch.log`. -/
  log : Str
  /-- `eventnum`. -/
  eventnum : List UInt8
  /-- What the `main` of `test_eventnum` has returned in the run that `eventnum` comes from. -/
  ret : Int32

/-- A log is taken, and `test_eventnum` is run on it. -/
def lookUp (log : Str) : Waiting :=
  let ret := testEventnum tsName (some log)
  { log := log, eventnum := decimal (exitStatus ret).toNat, ret := ret }

/-- `[ $eventnum == -1 ]`. -/
def Waiting.guard (s : Waiting) : Bool := s.eventnum = text ['-', '1']

/-- What `grep` is called with. -/
def Waiting.pattern (s : Waiting) : List UInt8 :=
  text ['/', 'd', 'e', 'v', '/', 'i', 'n', 'p', 'u', 't', '/', 'e', 'v', 'e', 'n', 't'] ++
    s.eventnum ++ text [':']

/-- `grep` finds the pattern on some line. -/
def Waiting.grep (s : Waiting) : Bool :=
  (lines s.log.val).any fun line => (strstr s.pattern line).isSome

/-- From one test of the condition of the inner loop to the next, with the log that `getevent` gives
in between: the body of the inner loop, or the rest of the outer loop. Nothing follows when `grep`
has found something. -/
def waitStep (s : Waiting) (log : Str) : Option Waiting :=
  if s.guard then some (lookUp log)
  else if s.grep then none
  else some { s with log := log }

/-! ## The condition of the inner loop -/

/-- `eventnum` is the exit status of the run that it comes from. -/
def FromRun (s : Waiting) : Prop := s.eventnum = decimal (exitStatus s.ret).toNat

/-- A number that is printed does not begin with a minus. -/
private lemma decimal_ne_neg_one (n : ℕ) : decimal n ≠ text ['-', '1'] := by
  intro h
  have hminus : (45 : UInt8) ∈ decimal n := h ▸ by decide
  obtain ⟨c, hc, hbyte⟩ := List.mem_map.mp hminus
  have hdigit := Nat.isDigit_of_mem_toDigits (by decide) (by decide) hc
  simp only [Char.isDigit, Bool.and_eq_true, decide_eq_true_iff, UInt32.le_iff_toNat_le] at hdigit
  have hval : c.val.toNat % 256 = 45 := congrArg UInt8.toNat hbyte
  have h48 : '0'.val.toNat = 48 := rfl
  have h57 : '9'.val.toNat = 57 := rfl
  omega

/-- **The condition of the inner loop** is never true. -/
theorem not_guard {s : Waiting} (h : FromRun s) : s.guard = false := by
  rw [Waiting.guard, h]
  exact decide_eq_false (decimal_ne_neg_one _)

/-- So the run that `eventnum` comes from stays the first one. -/
private lemma ret_of_run {log : Str} {past : List Str} {s : Waiting}
    (hrun : run waitStep (lookUp log) past = some s) : FromRun s ∧ s.ret = (lookUp log).ret := by
  have hstart : FromRun (lookUp log) ∧ (lookUp log).ret = (lookUp log).ret := ⟨rfl, rfl⟩
  refine run_invariant (I := fun s => FromRun s ∧ s.ret = (lookUp log).ret) ?_ hstart hrun
  rintro s log' s' ⟨hfrom, hret⟩ hstep
  rw [waitStep, not_guard hfrom] at hstep
  simp only [Bool.false_eq_true, if_false] at hstep
  split_ifs at hstep
  obtain rfl := Option.some.inj hstep
  exact ⟨hfrom, hret⟩

/-- After a failed run `grep` is not reached: the inner loop is entered, and takes another log for
another run. -/
def Retried (s : Waiting) : Prop :=
  s.ret = -1 → s.guard = true ∧ ∀ log, waitStep s log = some (lookUp log)

/-- **When every failed run is followed by another one**: for every sequence of logs, if and only if
the first run does not fail. -/
theorem retried_iff (log : Str) (logs : List Str) :
    (∀ past s, past <+: logs → run waitStep (lookUp log) past = some s → Retried s) ↔
      testEventnum tsName (some log) ≠ -1 := by
  constructor
  · intro h hfail
    obtain ⟨hguard, -⟩ := h [] (lookUp log) List.nil_prefix rfl hfail
    rw [not_guard (s := lookUp log) rfl] at hguard
    exact absurd hguard (by decide)
  · intro h past s _ hrun hret
    exact absurd ((ret_of_run hrun).2.symm.trans hret) h

/-- **A log without a touch screen**: the shell goes on to wait for `event255`. -/
theorem failed_not_retried :
    ¬ ∀ past s, past <+: [] →
      run waitStep (lookUp (logText [])) past = some s → Retried s := by
  intro h
  have hfirst := h [] (lookUp (logText [])) List.nil_prefix rfl (by decide)
  exact absurd hfirst.1 (by decide)

end JzPretest.Pretest

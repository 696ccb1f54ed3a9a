import JzPretest.Semantics.Prog
import Mathlib.Data.Int.Notation

set_option relaxedAutoImplicit false
set_option autoImplicit false

/-!
# The factory tests of the heart-rate sensor

`test_pah8001` starts one of two factory tests in the driver, reads a register ten times a second
and ends the factory test. When the register cannot be read, the check of the mechanical assembly
returns the error but leaves the factory test running, and the check of the frame average ends the
factory test but forgets the error.

## Main definitions

* `JzPretest.Pah8001.checkMechanicalAssembly`, `JzPretest.Pah8001.checkFrameAverage` — the two
  checks.
* `JzPretest.Pah8001.CleansUp` — a factory test that was started is ended.
* `JzPretest.Pah8001.ReportsErrors` — nothing has failed when `0` is returned.

## Main results

* `JzPretest.Pah8001.ends_sampleLoop` — what the driver has been asked when the loop is left.
* `JzPretest.Pah8001.factoryTests_iff` — when exactly the two checks do both.
-/

namespace JzPretest.Pah8001

/-! ## The driver -/

/-- What the driver is asked for. -/
inductive Request where
  | factoryTestStart (val : Int32)
  | factoryTestGet (bank regAddr : UInt8)
  | factoryTestEnd
  deriving DecidableEq, Repr

/-- A call of `ioctl`: what it returned, and what is then in `reg_val`. -/
structure Call where
  request : Request
  err : Int32
  regVal : UInt8
  deriving DecidableEq, Repr

/-- The driver: its answer to the `n`-th call. -/
abbrev Driver := ℕ → Int32 × UInt8

/-- The next call, after so many. -/
def ioctl (driver : Driver) (n : ℕ) (request : Request) : Call :=
  ⟨request, (driver n).1, (driver n).2⟩

/-- The call has started a factory test. -/
def Call.isStart (c : Call) : Bool :=
  match c.request with
  | .factoryTestStart _ => true
  | _ => false

/-- The call has asked for a register. -/
def Call.isGet (c : Call) : Bool :=
  match c.request with
  | .factoryTestGet _ _ => true
  | _ => false

/-- The call has ended a factory test. -/
def Call.isEnd (c : Call) : Bool :=
  match c.request with
  | .factoryTestEnd => true
  | _ => false

/-! ## The checks -/

/-- The variables of the loop, with the calls so far. -/
structure Sampling where
  calls : List Call
  timeout : Int32
  count : ℕ
  deriving DecidableEq, Repr

/-- The variables when the loop is left. -/
structure Sampled where
  calls : List Call
  err : Int32
  count : ℕ
  deriving DecidableEq, Repr

/-- One pass of the loop of a check, which counts the values that are in `good`. -/
def samplePass (driver : Driver) (bank regAddr : UInt8) (good : UInt8 → Bool) (s : Sampling) :
    Pass Sampling Sampled :=
  let call := ioctl driver s.calls.length (.factoryTestGet bank regAddr)
  let calls := s.calls ++ [call]
  if call.err ≠ 0 then .leave ⟨calls, call.err, s.count⟩
  else
    let count := if good call.regVal then s.count + 1 else s.count
    if 0 < s.timeout then .again ⟨calls, s.timeout - 1, count⟩ else .leave ⟨calls, 0, count⟩

/-- The loop of a check. -/
def sampleLoop (driver : Driver) (bank regAddr : UInt8) (good : UInt8 → Bool) (s : Sampling) :
    Prog Empty Sampled :=
  Prog.loop (fun s => pure (samplePass driver bank regAddr good s)) s

/-- A finished check: its calls and what it returns. -/
structure Run where
  calls : List Call
  ret : Int32
  deriving DecidableEq, Repr

/-- `(reg.reg_val & 0x07) == 6` -/
def assembled (regVal : UInt8) : Bool := regVal &&& 0x07 == 6

/-- `pah8001_factory_testing_check_mechanical_assembly`; `-EFAULT` is `-14`. -/
def checkMechanicalAssembly (driver : Driver) (timeout : Int32) : Prog Empty Run := do
  let start := ioctl driver 0 (.factoryTestStart 0x01)
  if start.err ≠ 0 then return ⟨[start], start.err⟩
  let s ← sampleLoop driver 0 0x08 assembled ⟨[start], timeout * 10, 0⟩
  if s.err ≠ 0 then return ⟨s.calls, s.err⟩
  let stop := ioctl driver s.calls.length .factoryTestEnd
  if stop.err ≠ 0 then return ⟨s.calls ++ [stop], stop.err⟩
  return ⟨s.calls ++ [stop], if s.count > 5 then 0 else -14⟩

/-- `pah8001_factory_testing_check_frame_average` -/
def checkFrameAverage (driver : Driver) (timeout : Int32) : Prog Empty Run := do
  let start := ioctl driver 0 (.factoryTestStart 0x02)
  if start.err ≠ 0 then return ⟨[start], start.err⟩
  let s ← sampleLoop driver 1 0x1b (fun _ => false) ⟨[start], timeout * 10, 0⟩
  let stop := ioctl driver s.calls.length .factoryTestEnd
  if stop.err ≠ 0 then return ⟨s.calls ++ [stop], stop.err⟩
  return ⟨s.calls ++ [stop], 0⟩

/-! ## What is expected of a check -/

/-- **A factory test that was started is ended**, exactly once. -/
def CleansUp (r : Run) : Prop :=
  ∀ before call after, r.calls = before ++ call :: after → call.isStart → call.err = 0 →
    after.countP Call.isEnd = 1

/-- **Nothing has failed** when `0` is returned: the factory test was ended, and neither that nor
reading the register failed. -/
def ReportsErrors (r : Run) : Prop :=
  r.ret = 0 → (∃ c ∈ r.calls, c.isEnd) ∧ ∀ c ∈ r.calls, c.isGet ∨ c.isEnd → c.err = 0

/-- When `0` is returned, more than five of the values read were right. -/
def CountsValues (r : Run) : Prop :=
  r.ret = 0 → 5 < r.calls.countP fun c => c.isGet && assembled c.regVal

/-- How often a check reads the register, if nothing fails. -/
def samples (timeout : Int32) : ℕ := (timeout * 10).toInt.toNat + 1

/-- Of so many calls from the `first` on, the one `k` calls later is the first that fails. -/
def FirstFailure (driver : Driver) (first n k : ℕ) : Prop :=
  k < n ∧ (driver (first + k)).1 ≠ 0 ∧ ∀ i < k, (driver (first + i)).1 = 0

/-! ## The loop -/

section Loop

variable (driver : Driver) (bank regAddr : UInt8) (good : UInt8 → Bool)

/-- The register is read so many times, from this call on. -/
def gets (first : ℕ) : ℕ → List Call
  | 0 => []
  | m + 1 => ioctl driver first (.factoryTestGet bank regAddr) :: gets (first + 1) m

/-- What the loop has done when it is left: it has read the register up to the first failure, or as
often as it should. -/
def Samples (s : Sampling) (n : ℕ) (r : Sampled) : Prop :=
  (∃ k, FirstFailure driver s.calls.length n k ∧ r.err = (driver (s.calls.length + k)).1 ∧
      r.calls = s.calls ++ gets driver bank regAddr s.calls.length (k + 1)) ∨
    (∀ i < n, (driver (s.calls.length + i)).1 = 0) ∧ r.err = 0 ∧
      r.calls = s.calls ++ gets driver bank regAddr s.calls.length n ∧
      r.count = s.count +
        (gets driver bank regAddr s.calls.length n).countP fun c => good c.regVal

/-- The calls that read registers, one by one.

**Proof sketch.** Induction on the number of the calls. -/
lemma mem_gets {first m : ℕ} {c : Call} :
    c ∈ gets driver bank regAddr first m ↔
      ∃ i < m, c = ioctl driver (first + i) (.factoryTestGet bank regAddr) := by
  induction m generalizing first with
  | zero => simp [gets]
  | succ m ih =>
    rw [gets, List.mem_cons, ih]
    constructor
    · rintro (rfl | ⟨i, hi, rfl⟩)
      · exact ⟨0, Nat.succ_pos m, rfl⟩
      · exact ⟨i + 1, Nat.succ_lt_succ hi, by rw [Nat.add_right_comm, Nat.add_assoc]⟩
    · rintro ⟨i, hi, rfl⟩
      cases i with
      | zero => exact .inl rfl
      | succ i =>
        exact .inr ⟨i, Nat.lt_of_succ_lt_succ hi, by rw [Nat.add_right_comm, Nat.add_assoc]⟩

/-- **A pass that fails** is the last one. -/
theorem samples_of_failure {s : Sampling} {n : ℕ} (h : (driver s.calls.length).1 ≠ 0) :
    Samples driver bank regAddr good s (n + 1)
      ⟨s.calls ++ [ioctl driver s.calls.length (.factoryTestGet bank regAddr)],
        (driver s.calls.length).1, s.count⟩ :=
  .inl ⟨0, ⟨Nat.succ_pos n, h, fun _ hi => absurd hi (Nat.not_lt_zero _)⟩, rfl, rfl⟩

/-- The variables after a pass in which nothing fails. -/
def Sampling.next (s : Sampling) : Sampling :=
  let call := ioctl driver s.calls.length (.factoryTestGet bank regAddr)
  ⟨s.calls ++ [call], s.timeout - 1, if good call.regVal then s.count + 1 else s.count⟩

/-- **A pass before others**.

**Proof sketch.** The pass has not failed, so the first failure of the rest is that of all, one
sample later; the calls and the counter are those of the rest with the pass put before. -/
theorem samples_of_next {s : Sampling} {n : ℕ} {r : Sampled} (h : (driver s.calls.length).1 = 0)
    (hr : Samples driver bank regAddr good (s.next driver bank regAddr good) n r) :
    Samples driver bank regAddr good s (n + 1) r := by
  have hlen : (s.next driver bank regAddr good).calls.length = s.calls.length + 1 := by
    simp [Sampling.next]
  have hindex : ∀ i, s.calls.length + 1 + i = s.calls.length + (i + 1) := fun i => by omega
  unfold Samples FirstFailure at hr
  simp only [hlen, hindex] at hr
  rcases hr with ⟨k, ⟨hk, hfail, hbefore⟩, herr, hcalls⟩ | ⟨hall, herr, hcalls, hcount⟩
  · refine .inl ⟨k + 1, ⟨Nat.succ_lt_succ hk, hfail, fun i hi => ?_⟩, herr, ?_⟩
    · cases i with
      | zero => exact h
      | succ i => exact hbefore i (Nat.lt_of_succ_lt_succ hi)
    · rw [hcalls, gets, Sampling.next, List.append_assoc]
      rfl
  · refine .inr ⟨fun i hi => ?_, herr, ?_, ?_⟩
    · cases i with
      | zero => exact h
      | succ i => exact hall i (Nat.lt_of_succ_lt_succ hi)
    · rw [hcalls, gets, Sampling.next, List.append_assoc]
      rfl
    · rw [hcount, gets, List.countP_cons, Sampling.next]
      dsimp only
      split_ifs <;> omega

/-- One second less: `timeout--`, before the last pass. -/
private lemma toNat_sub_one {t : Int32} (h : 0 < t) : (t - 1).toInt.toNat + 1 = t.toInt.toNat := by
  have hpos : (0 : Int32).toInt < t.toInt := Int32.lt_iff_toInt_lt.mp h
  have hlt := t.toInt_lt
  have hsub : (t - 1).toInt = t.toInt - 1 := by
    rw [Int32.toInt_sub]
    exact Int.bmod_eq_of_le (by simp at hpos ⊢; omega) (by simp at hpos ⊢; omega)
  simp at hpos
  omega

/-- **The loop of a check** is left after the first failure, or when the register has been read as
often as it should.

**Proof sketch.** Strong induction on the timeout: a failure leaves the loop, otherwise the counter
decreases until it is not positive any more. -/
theorem ends_sampleLoop (s : Sampling) :
    (sampleLoop driver bank regAddr good s).Ends fun x =>
      ∃ r, x = .ok r ∧ Samples driver bank regAddr good s (s.timeout.toInt.toNat + 1) r := by
  obtain ⟨n, hn⟩ : ∃ n, s.timeout.toInt.toNat = n := ⟨_, rfl⟩
  induction n using Nat.strongRecOn generalizing s with
  | ind n ih =>
    have hpass : samplePass driver bank regAddr good s =
        if (driver s.calls.length).1 ≠ 0 then
          .leave ⟨s.calls ++ [ioctl driver s.calls.length (.factoryTestGet bank regAddr)],
            (driver s.calls.length).1, s.count⟩
        else if 0 < s.timeout then .again (s.next driver bank regAddr good)
        else .leave ⟨(s.next driver bank regAddr good).calls, 0,
          (s.next driver bank regAddr good).count⟩ := rfl
    unfold sampleLoop
    rw [Prog.ends_loop, Prog.ends_pure, hpass]
    by_cases hfail : (driver s.calls.length).1 = 0
    · rw [if_neg (not_not.mpr hfail)]
      by_cases hmore : 0 < s.timeout
      · rw [if_pos hmore]
        have htime : (s.next driver bank regAddr good).timeout.toInt.toNat + 1 =
            s.timeout.toInt.toNat := toNat_sub_one hmore
        apply (ih _ (by omega) (s.next driver bank regAddr good) rfl).imp
        rintro _ ⟨r, rfl, hr⟩
        rw [htime] at hr
        exact ⟨r, rfl, samples_of_next driver bank regAddr good hfail hr⟩
      · rw [if_neg hmore]
        have htime : s.timeout.toInt.toNat = 0 := by
          have hle := Int32.le_iff_toInt_le.mp (Int32.not_lt.mp hmore)
          exact Int.toNat_eq_zero.mpr hle
        refine ⟨_, rfl, ?_⟩
        rw [htime]
        refine samples_of_next driver bank regAddr good hfail (.inr ⟨?_, rfl, ?_, rfl⟩)
        · exact fun i hi => absurd hi (Nat.not_lt_zero i)
        · exact (List.append_nil _).symm
    · rw [if_pos hfail]
      exact ⟨_, rfl, samples_of_failure driver bank regAddr good hfail⟩

/-- There are as many of them as are asked for. -/
@[simp] lemma length_gets (first m : ℕ) : (gets driver bank regAddr first m).length = m := by
  induction m generalizing first with
  | zero => rfl
  | succ m ih => rw [gets, List.length_cons, ih]

/-- None of them ends a test. -/
@[simp] lemma countP_isEnd_gets (first m : ℕ) :
    (gets driver bank regAddr first m).countP Call.isEnd = 0 := by
  rw [List.countP_eq_zero]
  intro c hc
  obtain ⟨i, -, rfl⟩ := (mem_gets driver bank regAddr).mp hc
  exact Bool.false_ne_true

end Loop

/-! ## The two checks -/

section Checks

variable (driver : Driver) (val : Int32) (bank regAddr : UInt8)

/-- The calls of a check that has started the factory test and read the register so many times. -/
def checkCalls (m : ℕ) (ending : List Call) : List Call :=
  ioctl driver 0 (.factoryTestStart val) :: (gets driver bank regAddr 1 m ++ ending)

/-- **Cleaning up** is up to what comes after the loop.

**Proof sketch.** Only the first call starts a factory test, and the samples end none, so the calls
that end one are those of the ending. -/
theorem cleansUp_iff (m : ℕ) {ending : List Call} (hending : ∀ c ∈ ending, c.isStart = false)
    (ret : Int32) : CleansUp ⟨checkCalls driver val bank regAddr m ending, ret⟩ ↔
      ((driver 0).1 = 0 → ending.countP Call.isEnd = 1) := by
  have hcount : (gets driver bank regAddr 1 m ++ ending).countP Call.isEnd =
      ending.countP Call.isEnd := by
    rw [List.countP_append, countP_isEnd_gets, Nat.zero_add]
  rw [← hcount]
  constructor
  · exact fun h => h [] _ _ rfl rfl
  · intro h before call after hcalls hstart herr
    cases before with
    | nil =>
      obtain ⟨rfl, rfl⟩ := List.cons.inj hcalls
      exact h herr
    | cons c before =>
      -- Only the first call starts a factory test.
      obtain ⟨-, hrest⟩ := List.cons.inj hcalls
      have hmem : call ∈ gets driver bank regAddr 1 m ++ ending := by
        rw [hrest]
        exact List.mem_append_right _ List.mem_cons_self
      have hnot : call.isStart = false := by
        rcases List.mem_append.mp hmem with hget | hend
        · obtain ⟨i, -, rfl⟩ := (mem_gets driver bank regAddr).mp hget
          rfl
        · exact hending call hend
      exact absurd hstart (by rw [hnot]; exact Bool.false_ne_true)

/-- A check that could not start the factory test has nothing to clean up, and returns the error. -/
lemma sound_of_start_failed (h : (driver 0).1 ≠ 0) :
    CleansUp ⟨[ioctl driver 0 (.factoryTestStart val)], (driver 0).1⟩ ∧
      ReportsErrors ⟨[ioctl driver 0 (.factoryTestStart val)], (driver 0).1⟩ := by
  refine ⟨?_, fun hret => absurd hret h⟩
  exact (cleansUp_iff driver val 0 0 0 (List.forall_mem_nil _) _).mpr fun h0 => absurd h0 h

/-- A check that ends the factory test cleans up. -/
lemma cleansUp_of_end (m n : ℕ) (ret : Int32) :
    CleansUp ⟨checkCalls driver val bank regAddr m [ioctl driver n .factoryTestEnd], ret⟩ := by
  refine (cleansUp_iff driver val bank regAddr m ?_ ret).mpr fun _ => rfl
  intro c hc
  obtain rfl := List.mem_singleton.mp hc
  rfl

/-- **Reporting errors**, for a check that ends the factory test and returns no error of that.

**Proof sketch.** The calls are the start, the samples and the end, and the end has not failed: what
remains are the samples. -/
theorem reportsErrors_iff (m n : ℕ) (ret : Int32) (hend : (driver n).1 = 0) :
    ReportsErrors ⟨checkCalls driver val bank regAddr m [ioctl driver n .factoryTestEnd], ret⟩ ↔
      (ret = 0 → ∀ i < m, (driver (1 + i)).1 = 0) := by
  have hmem : ∀ c, c ∈ checkCalls driver val bank regAddr m [ioctl driver n .factoryTestEnd] ↔
      c = ioctl driver 0 (.factoryTestStart val) ∨
        (∃ i < m, c = ioctl driver (1 + i) (.factoryTestGet bank regAddr)) ∨
        c = ioctl driver n .factoryTestEnd := fun c => by
    rw [checkCalls, List.mem_cons, List.mem_append, mem_gets, List.mem_singleton]
  constructor
  · intro h hret i hi
    exact (h hret).2 _ ((hmem _).mpr (.inr (.inl ⟨i, hi, rfl⟩))) (.inl rfl)
  · refine fun h hret => ⟨⟨_, (hmem _).mpr (.inr (.inr rfl)), rfl⟩, fun c hc hkind => ?_⟩
    rcases (hmem c).mp hc with rfl | ⟨i, hi, rfl⟩ | rfl
    · exact absurd hkind (by simp [ioctl, Call.isGet, Call.isEnd])
    · exact h hret i hi
    · exact hend

/-- **A check that returns what ending the factory test returned** forgets the error of a sample,
unless that was an error as well. -/
theorem sound_iff (m n : ℕ) :
    (CleansUp ⟨checkCalls driver val bank regAddr m [ioctl driver n .factoryTestEnd],
          (driver n).1⟩ ∧
        ReportsErrors ⟨checkCalls driver val bank regAddr m [ioctl driver n .factoryTestEnd],
          (driver n).1⟩) ↔
      ((driver n).1 = 0 → ∀ i < m, (driver (1 + i)).1 = 0) := by
  rw [and_iff_right (cleansUp_of_end _ _ _ _ _ _ _)]
  by_cases hend : (driver n).1 = 0
  · exact reportsErrors_iff driver val bank regAddr m n _ hend
  · exact iff_of_true (fun hret => absurd hret hend) fun h => absurd h hend

/-- What the mechanical check counts. -/
private lemma countP_checkCalls (m n : ℕ) :
    (checkCalls driver val bank regAddr m [ioctl driver n .factoryTestEnd]).countP
        (fun c => c.isGet && assembled c.regVal) =
      (gets driver bank regAddr 1 m).countP fun c => assembled c.regVal := by
  have hgets : ∀ c ∈ gets driver bank regAddr 1 m,
      (c.isGet && assembled c.regVal) = true ↔ assembled c.regVal = true := by
    intro c hc
    obtain ⟨i, -, rfl⟩ := (mem_gets driver bank regAddr).mp hc
    exact Iff.of_eq (congrArg (· = true) (Bool.true_and _))
  rw [checkCalls, List.countP_cons, List.countP_append, List.countP_congr hgets]
  rfl

/-- **Failing at no sample** is having no first failure. -/
theorem forall_not_firstFailure (first n : ℕ) :
    (∀ k, ¬ FirstFailure driver first n k) ↔ ∀ i < n, (driver (first + i)).1 = 0 := by
  constructor
  · intro h i
    induction i using Nat.strongRecOn with
    | ind i ih =>
      intro hi
      by_contra hfail
      exact h i ⟨hi, hfail, fun j hj => ih j hj (by omega)⟩
  · rintro h k ⟨hk, hfail, -⟩
    exact hfail (h k hk)

/-- There is only one first failure. -/
lemma FirstFailure.unique {first n k l : ℕ} (hk : FirstFailure driver first n k)
    (hl : FirstFailure driver first n l) : k = l := by
  rcases Nat.lt_trichotomy k l with hlt | rfl | hlt
  · exact absurd (hl.2.2 k hlt) hk.2.1
  · rfl
  · exact absurd (hk.2.2 l hlt) hl.2.1

/-- **The check of the mechanical assembly** is right when the factory test cannot be started, or
no sample fails: it returns the error of a sample at once.

**Proof sketch.** If the factory test cannot be started, there is nothing to clean up. Otherwise
`ends_sampleLoop`: with a first failure the check returns before it has ended the factory test, and
without one it ends it and returns 0 only for enough good values. -/
theorem checkMechanicalAssembly_iff (timeout : Int32) :
    ((checkMechanicalAssembly driver timeout).Ends fun x =>
        ∃ r, x = .ok r ∧ CleansUp r ∧ ReportsErrors r ∧ CountsValues r) ↔
      ((driver 0).1 = 0 → ∀ k, ¬ FirstFailure driver 1 (samples timeout) k) := by
  unfold checkMechanicalAssembly
  dsimp only
  by_cases hstart : (driver 0).1 = 0
  · have hstart' : ¬ (ioctl driver 0 (.factoryTestStart 0x01)).err ≠ 0 := not_not.mpr hstart
    rw [if_neg hstart', Prog.ends_bind]
    refine (ends_sampleLoop driver 0 0x08 assembled _).iff ?_
    rintro _ ⟨s, rfl, hs⟩
    rw [Prog.andThen_ok, forall_prop_of_true hstart]
    rcases hs with ⟨k, hk, herr, hcalls⟩ | ⟨hall, herr, hcalls, hcount⟩
    · have hfail : s.err ≠ 0 := by
        rw [herr]
        exact hk.2.1
      have hcalls' : s.calls = checkCalls driver 0x01 0 0x08 (k + 1) [] := by
        rw [hcalls, checkCalls, List.append_nil]
        rfl
      rw [if_pos hfail, Prog.ends_pure]
      refine iff_of_false ?_ fun h => h k hk
      rintro ⟨r, hr, hclean, -⟩
      obtain rfl := Except.ok.inj hr
      rw [hcalls', cleansUp_iff driver 0x01 0 0x08 (k + 1) (List.forall_mem_nil _)] at hclean
      exact absurd (hclean hstart) (Nat.zero_ne_add_one 0)
    · have hok : ¬ s.err ≠ 0 := not_not.mpr herr
      have hcalls' : ∀ ending, s.calls ++ ending =
          checkCalls driver 0x01 0 0x08 (samples timeout) ending := fun ending => by
        rw [hcalls, checkCalls]
        rfl
      have hall' := (forall_not_firstFailure driver 1 (samples timeout)).mpr hall
      rw [if_neg hok]
      refine iff_of_true ?_ hall'
      by_cases hend : (driver s.calls.length).1 = 0
      · have hend' : ¬ (ioctl driver s.calls.length .factoryTestEnd).err ≠ 0 := not_not.mpr hend
        rw [if_neg hend', Prog.ends_pure, hcalls']
        refine ⟨_, rfl, cleansUp_of_end _ _ _ _ _ _ _, ?_, fun hret => ?_⟩
        · exact (reportsErrors_iff driver 0x01 0 0x08 _ _ _ hend).mpr fun _ => hall
        · rw [countP_checkCalls]
          have hgood : 5 < s.count := by
            by_contra hfew
            have hfault : (-14 : Int32) = 0 := (if_neg hfew).symm.trans hret
            exact absurd hfault (by decide)
          rwa [hcount, Nat.zero_add] at hgood
      · have hend' : (ioctl driver s.calls.length .factoryTestEnd).err ≠ 0 := hend
        rw [if_pos hend', Prog.ends_pure, hcalls']
        refine ⟨_, rfl, cleansUp_of_end _ _ _ _ _ _ _, ?_, ?_⟩
        · exact fun hret => absurd hret hend
        · exact fun hret => absurd hret hend
  · have hstart' : (ioctl driver 0 (.factoryTestStart 0x01)).err ≠ 0 := hstart
    rw [if_pos hstart', Prog.ends_pure]
    obtain ⟨hclean, hreports⟩ := sound_of_start_failed driver 0x01 hstart
    exact iff_of_true ⟨_, rfl, hclean, hreports, fun hret => absurd hret hstart⟩
      fun h => absurd h hstart

/-- What the check of the frame average returns is what ending the factory test returned. -/
private lemma ite_pure_run (calls : List Call) (err : Int32) :
    (if err ≠ 0 then pure ⟨calls, err⟩ else pure ⟨calls, 0⟩ : Prog Empty Run) =
      pure ⟨calls, err⟩ := by
  by_cases herr : err = 0
  · rw [if_neg (not_not.mpr herr), herr]
  · exact if_pos herr

/-- **The check of the frame average** is right when the factory test cannot be started, or no
sample fails, or ending the factory test fails as well: only then does it return an error.

**Proof sketch.** If the factory test cannot be started, there is nothing to clean up. Otherwise it
is always ended, and the result is that of the last call: it hides the failure of a sample exactly
when ending the factory test does not fail. -/
theorem checkFrameAverage_iff (timeout : Int32) :
    ((checkFrameAverage driver timeout).Ends fun x =>
        ∃ r, x = .ok r ∧ CleansUp r ∧ ReportsErrors r) ↔
      ((driver 0).1 = 0 →
        ∀ k, FirstFailure driver 1 (samples timeout) k → (driver (k + 2)).1 ≠ 0) := by
  unfold checkFrameAverage
  dsimp only
  by_cases hstart : (driver 0).1 = 0
  · have hstart' : ¬ (ioctl driver 0 (.factoryTestStart 0x02)).err ≠ 0 := not_not.mpr hstart
    rw [if_neg hstart', Prog.ends_bind]
    refine (ends_sampleLoop driver 1 0x1b (fun _ => false) _).iff ?_
    rintro _ ⟨s, rfl, hs⟩
    rw [Prog.andThen_ok, forall_prop_of_true hstart, ite_pure_run, Prog.ends_pure]
    -- Whatever has happened, the factory test is ended.
    have hverdict : ∀ m, s.calls = [ioctl driver 0 (.factoryTestStart 0x02)] ++
        gets driver 1 0x1b 1 m →
        ((∃ r, Except.ok (ε := Empty) ⟨s.calls ++ [ioctl driver s.calls.length .factoryTestEnd],
            (ioctl driver s.calls.length .factoryTestEnd).err⟩ = .ok r ∧
            CleansUp r ∧ ReportsErrors r) ↔
          ((driver (m + 1)).1 = 0 → ∀ i < m, (driver (1 + i)).1 = 0)) := by
      intro m hcalls
      have hlen : s.calls.length = m + 1 := by
        rw [hcalls, List.length_append, length_gets, Nat.add_comm]
        rfl
      rw [← sound_iff driver 0x02 1 0x1b m (m + 1), hlen, hcalls]
      constructor
      · rintro ⟨r, hr, hsound⟩
        obtain rfl := Except.ok.inj hr
        exact hsound
      · exact fun h => ⟨_, rfl, h⟩
    rcases hs with ⟨k, hk, -, hcalls⟩ | ⟨hall, -, hcalls, -⟩
    · rw [hverdict (k + 1) hcalls]
      constructor
      · intro h l hl hend
        obtain rfl := FirstFailure.unique driver hl hk
        exact hk.2.1 (h hend l (Nat.lt_succ_self l))
      · exact fun h hend => absurd hend (h k hk)
    · rw [hverdict _ hcalls]
      exact iff_of_true (fun _ => hall) fun k hk => absurd (hall k hk.1) hk.2.1
  · have hstart' : (ioctl driver 0 (.factoryTestStart 0x02)).err ≠ 0 := hstart
    rw [if_pos hstart', Prog.ends_pure]
    obtain ⟨hclean, hreports⟩ := sound_of_start_failed driver 0x02 hstart
    exact iff_of_true ⟨_, rfl, hclean, hreports⟩ fun h => absurd h hstart

end Checks

/-- **The factory tests** clean up and report errors unless a sample fails, where the check of the
frame average is still right if ending the factory test fails as well.

**Proof sketch.** The loop has made some calls for the register, of which only the last one may have
failed. The check of the mechanical assembly returns after a failed one, without ending the factory
test; the check of the frame average ends it, and returns what that returned. -/
theorem factoryTests_iff (driver : Driver) (timeout : Int32) :
    ((checkMechanicalAssembly driver timeout).Ends (fun x =>
        ∃ r, x = .ok r ∧ CleansUp r ∧ ReportsErrors r ∧ CountsValues r) ↔
      ((driver 0).1 = 0 → ∀ k, ¬ FirstFailure driver 1 (samples timeout) k)) ∧
    ((checkFrameAverage driver timeout).Ends (fun x =>
        ∃ r, x = .ok r ∧ CleansUp r ∧ ReportsErrors r) ↔
      ((driver 0).1 = 0 →
        ∀ k, FirstFailure driver 1 (samples timeout) k → (driver (k + 2)).1 ≠ 0)) :=
  ⟨checkMechanicalAssembly_iff driver timeout, checkFrameAverage_iff driver timeout⟩

/-- A driver from which the register cannot be read the first time. -/
def unreadable : Driver := fun n => if n = 1 then (-1, 0) else (0, 0)

/-- Both checks go wrong with it: one does not end the factory test, the other returns no error. -/
theorem factoryTests_unreadable :
    ¬ (checkMechanicalAssembly unreadable 1).Ends (fun x =>
        ∃ r, x = .ok r ∧ CleansUp r ∧ ReportsErrors r ∧ CountsValues r) ∧
      ¬ (checkFrameAverage unreadable 1).Ends (fun x =>
        ∃ r, x = .ok r ∧ CleansUp r ∧ ReportsErrors r) := by
  have hfirst : FirstFailure unreadable 1 (samples 1) 0 :=
    ⟨Nat.succ_pos _, by decide, fun _ hi => absurd hi (Nat.not_lt_zero _)⟩
  rw [checkMechanicalAssembly_iff, checkFrameAverage_iff]
  exact ⟨fun h => h rfl 0 hfirst, fun h => h rfl 0 hfirst rfl⟩

end JzPretest.Pah8001

import Mathlib.Data.Int.Notation
import Mathlib.Data.List.Nodup

set_option relaxedAutoImplicit false
set_option autoImplicit false

/-!
# The test of the sensor hub

`test_frizz` asks the sensor hub for the self-test of each sensor it is told to test, up to five
times, until as many words come back as it expects. Whether the sensor is good it only decides from
the words, and the tests share one variable for what they return. As many words as the driver says
are printed after that, also where the array has no more.

## Main definitions

* `JzPretest.Frizz.frizzGsensorTest`, `JzPretest.Frizz.frizzGyroTest`,
  `JzPretest.Frizz.frizzMagentTest` — the tests of the sensors.
* `JzPretest.Frizz.testFrizz` — the program.
* `JzPretest.Frizz.Good` — the answer of a good sensor.

## Main results

* `JzPretest.Frizz.retry_eq` — which answer ends the attempts.
* `JzPretest.Frizz.runTests_eq` — what is left of the tests of several sensors.
* `JzPretest.Frizz.passesGood_iff` — when exactly only good sensors pass.
-/

namespace JzPretest.Frizz

/-! ## The tests of the sensors -/

/-- What the driver answers: what `ioctl` returned, and what is then in `raw_data`, which was
cleared before. -/
structure Answer where
  cnt : Int32
  rawData : Fin 64 → UInt32

/-- The driver: its answers to the attempts for the sensor with this identifier. Each sensor is
tested at most once, so that these are all its answers. -/
abbrev Driver := UInt32 → ℕ → Answer

/-- An attempt: the sensor it was made for, and the answer. -/
structure Attempt where
  sensorId : UInt32
  answer : Answer

/-- The loop of a test, with `tryTimes` attempts left after the next one: all answers, and the last
one. -/
def retry (answers : ℕ → Answer) (expected : Int32) (tryTimes : ℕ) (calls : List Answer) :
    List Answer × Answer :=
  let answer := answers calls.length
  match tryTimes with
  | 0 => (calls ++ [answer], answer)
  | tryTimes + 1 =>
    if answer.cnt ≠ expected then retry answers expected tryTimes (calls ++ [answer])
    else (calls ++ [answer], answer)

/-- What a test goes by. -/
structure Sensor where
  sensorId : UInt32
  /-- The number of words that ends the attempts. -/
  expected : Int32
  /-- The first word of a good answer. -/
  tag : UInt32
  /-- The number of words that are looked at. -/
  words : ℕ

/-- The words are those of a good sensor. -/
def DataGood (s : Sensor) (a : Answer) : Prop :=
  a.rawData 0 = s.tag ∧ ∀ i : Fin 64, 0 < i.val → i.val < s.words → a.rawData i ≠ 0

instance (s : Sensor) (a : Answer) : Decidable (DataGood s a) :=
  inferInstanceAs (Decidable (_ ∧ _))

/-- The words behind `raw_data`: what lies on the stack there, while a sensor is tested. -/
abbrev Stack := UInt32 → ℕ → UInt32

/-- The loop that prints the words, up to `cnt`; it does not end with the array. -/
def printed (behind : ℕ → UInt32) (a : Answer) : List UInt32 :=
  (List.range a.cnt.toInt.toNat).map fun i =>
    if h : i < 64 then a.rawData ⟨i, h⟩ else behind (i - 64)

/-- The tests so far: the attempts, the words that have been printed, and what the last test has
returned. -/
structure Tests where
  attempts : List Attempt
  words : List UInt32
  err : Int32

/-- A test, after others: `err` is set before the words are printed; `-ENODEV` is `-19`. -/
def frizzTest (s : Sensor) (driver : Driver) (stack : Stack) (t : Tests) : Tests :=
  let tried := retry (driver s.sensorId) s.expected 4 []
  let err := if DataGood s tried.2 then 0 else -19
  ⟨t.attempts ++ tried.1.map (Attempt.mk s.sensorId),
    t.words ++ printed (stack s.sensorId) tried.2, err⟩

/-- `frizz_gsensor_test` asks sensor `0x80`. -/
def gsensor : Sensor := ⟨0x80, 5, 0xff808004, 5⟩

/-- `frizz_gyro_test` asks sensor `0x82`. -/
def gyro : Sensor := ⟨0x82, 6, 0xff808205, 6⟩

/-- `frizz_magent_test` asks sensor `0x81`. -/
def magnet : Sensor := ⟨0x81, 5, 0xff808104, 5⟩

/-- `frizz_gsensor_test` -/
def frizzGsensorTest : Driver → Stack → Tests → Tests :=
  frizzTest gsensor

/-- `frizz_gyro_test` -/
def frizzGyroTest : Driver → Stack → Tests → Tests :=
  frizzTest gyro

/-- `frizz_magent_test` -/
def frizzMagentTest : Driver → Stack → Tests → Tests :=
  frizzTest magnet

/-! ## The program -/

/-- The options. -/
inductive Opt where
  | gsensor
  | gyro
  | magnet
  | help
  | unknown
  deriving DecidableEq, Repr

/-- The flags that the options set. -/
structure Flags where
  gsensor : Bool
  gyro : Bool
  magnet : Bool
  deriving DecidableEq, Repr

/-- The loop over the options: the flags, or the status with which the program exits. -/
def getopt : List Opt → Flags → Except Int32 Flags
  | [], f => pure f
  | .gsensor :: opts, f => getopt opts { f with gsensor := true }
  | .gyro :: opts, f => getopt opts { f with gyro := true }
  | .magnet :: opts, f => getopt opts { f with magnet := true }
  | .help :: _, _ => throw 0
  | .unknown :: _, _ => throw (-1)

/-- A finished run: the attempts, the words that have been printed, and the status with which the
program exits. -/
structure Run where
  attempts : List Attempt
  words : List UInt32
  status : Int32

/-- `main`; `opened` says whether the device can be opened. -/
def testFrizz (opts : List Opt) (opened : Bool) (driver : Driver) (stack : Stack) : Run :=
  match getopt opts ⟨false, false, false⟩ with
  | .error status => ⟨[], [], status⟩
  | .ok f =>
    if opened then
      let t : Tests := ⟨[], [], 0⟩
      let t := if f.gsensor then frizzGsensorTest driver stack t else t
      let t := if f.gyro then frizzGyroTest driver stack t else t
      let t := if f.magnet then frizzMagentTest driver stack t else t
      ⟨t.attempts, t.words, t.err⟩
    else ⟨[], [], -1⟩

/-! ## Good sensors -/

/-- **The answer of a good sensor**: the expected number of words, and these words good. -/
def Good (s : Sensor) (a : Answer) : Prop := a.cnt = s.expected ∧ DataGood s a

instance (s : Sensor) (a : Answer) : Decidable (Good s a) := inferInstanceAs (Decidable (_ ∧ _))

/-- The last attempt for a sensor. -/
def Run.lastAttempt (r : Run) (s : Sensor) : Option Attempt :=
  (r.attempts.filter fun a => a.sensorId = s.sensorId).getLast?

/-- The sensors that are tested under these options, in this order. -/
def requested (opts : List Opt) : List Sensor :=
  (if .gsensor ∈ opts then [gsensor] else []) ++ (if .gyro ∈ opts then [gyro] else []) ++
    if .magnet ∈ opts then [magnet] else []

/-- The number of the attempt that ends the attempts for a sensor: the first one that returns the
expected number of words, or the fifth. -/
def lastTry (driver : Driver) (s : Sensor) : ℕ :=
  ((List.range 4).find? fun k => (driver s.sensorId k).cnt = s.expected).getD 4

/-- The answer that ends the attempts for a sensor. -/
def lastAnswer (driver : Driver) (s : Sensor) : Answer := driver s.sensorId (lastTry driver s)

/-- The loop from any attempt on: it goes on to the first answer of the right length, or to the
last attempt.

**Proof sketch.** Induction on the attempts. A right answer ends the loop at once; after a wrong one
the rest is the loop from the next attempt on, whose calls are put behind this one. -/
private lemma retry_eq_of_length (answers : ℕ → Answer) (expected : Int32) (tryTimes : ℕ)
    (calls : List Answer) :
    let k := ((List.range' calls.length tryTimes).find? fun k =>
      (answers k).cnt = expected).getD (calls.length + tryTimes)
    retry answers expected tryTimes calls =
      (calls ++ (List.range' calls.length (k - calls.length + 1)).map answers, answers k) := by
  induction tryTimes generalizing calls with
  | zero => simp [retry, List.range'_one]
  | succ tryTimes ih =>
    rw [retry, List.range'_succ, List.find?_cons]
    by_cases hcnt : (answers calls.length).cnt = expected
    · rw [if_neg (not_not.mpr hcnt)]
      simp [hcnt, List.range'_one]
    · have hnext := ih (calls ++ [answers calls.length])
      rw [List.length_append, List.length_singleton, Nat.add_right_comm] at hnext
      simp only [if_pos hcnt, decide_eq_false hcnt]
      rw [hnext]
      -- The attempts that are left come after this one.
      generalize hk : ((List.range' (calls.length + 1) tryTimes).find? fun k =>
        (answers k).cnt = expected).getD (calls.length + tryTimes + 1) = k
      have hle : calls.length + 1 ≤ k := by
        rw [← hk]
        cases hfind : (List.range' (calls.length + 1) tryTimes).find? fun k =>
            (answers k).cnt = expected with
        | none => exact Nat.succ_le_succ (Nat.le_add_right _ _)
        | some m => exact (List.mem_range'_1.mp (List.mem_of_find?_eq_some hfind)).1
      obtain ⟨m, rfl⟩ := Nat.exists_eq_add_of_le hle
      have hleft : calls.length + 1 + m - (calls.length + 1) = m := by omega
      have hall : calls.length + 1 + m - calls.length + 1 = m + 1 + 1 := by omega
      rw [hleft, hall, List.range'_succ, List.map_cons, List.append_assoc]
      rfl

/-- **The attempts for a sensor** are those up to the one that ends them. -/
theorem retry_eq (driver : Driver) (s : Sensor) :
    retry (driver s.sensorId) s.expected 4 [] =
      ((List.range (lastTry driver s + 1)).map (driver s.sensorId), lastAnswer driver s) := by
  have h := retry_eq_of_length (driver s.sensorId) s.expected 4 []
  rw [List.length_nil, ← List.range_eq_range', Nat.zero_add] at h
  rw [h, List.nil_append, Nat.sub_zero, ← List.range_eq_range']
  rfl

/-- The attempts for a sensor. -/
def tried (driver : Driver) (s : Sensor) : List Attempt :=
  (List.range (lastTry driver s + 1)).map fun k => ⟨s.sensorId, driver s.sensorId k⟩

/-- What the test of a sensor returns. -/
def verdict (driver : Driver) (s : Sensor) : Int32 :=
  if DataGood s (lastAnswer driver s) then 0 else -19

/-- **Everything a test does**: the attempts up to the one that ends them, the words of its answer,
and the verdict on them. -/
theorem frizzTest_eq (s : Sensor) (driver : Driver) (stack : Stack) (t : Tests) :
    frizzTest s driver stack t =
      ⟨t.attempts ++ tried driver s,
        t.words ++ printed (stack s.sensorId) (lastAnswer driver s), verdict driver s⟩ := by
  unfold frizzTest
  rw [retry_eq]
  dsimp only
  rw [List.map_map]
  rfl

/-- The tests of several sensors, one after the other. -/
def runTests (driver : Driver) (stack : Stack) (l : List Sensor) (t : Tests) : Tests :=
  l.foldl (fun t s => frizzTest s driver stack t) t

/-- **The tests of several sensors** leave all attempts and what the last of them returned. -/
theorem runTests_eq (driver : Driver) (stack : Stack) (l : List Sensor) (t : Tests) :
    runTests driver stack l t =
      ⟨t.attempts ++ l.flatMap (tried driver),
        t.words ++ l.flatMap fun s => printed (stack s.sensorId) (lastAnswer driver s),
        (l.getLast?.map (verdict driver)).getD t.err⟩ := by
  induction l generalizing t with
  | nil => simp [runTests]
  | cons s l ih =>
    unfold runTests at ih ⊢
    rw [List.foldl_cons, ih, frizzTest_eq, List.append_assoc, List.append_assoc, List.flatMap_cons,
      List.flatMap_cons]
    cases l <;> rfl

/-- The flags say which options are there, unless one of the options ends the program. -/
private lemma getopt_eq {opts : List Opt} (hhelp : .help ∉ opts) (hunknown : .unknown ∉ opts)
    (f : Flags) :
    getopt opts f = .ok ⟨f.gsensor || decide (.gsensor ∈ opts),
      f.gyro || decide (.gyro ∈ opts), f.magnet || decide (.magnet ∈ opts)⟩ := by
  induction opts generalizing f with
  | nil => simp [getopt, pure, Except.pure]
  | cons o opts ih =>
    have htail := ih (fun h => hhelp (List.mem_cons_of_mem o h))
      fun h => hunknown (List.mem_cons_of_mem o h)
    cases o with
    | gsensor => simp [getopt, htail]
    | gyro => simp [getopt, htail]
    | magnet => simp [getopt, htail]
    | help => exact absurd List.mem_cons_self hhelp
    | unknown => exact absurd List.mem_cons_self hunknown

/-- An option that ends the program does so wherever it stands. -/
private lemma getopt_eq_error {opts : List Opt} (h : .help ∈ opts ∨ .unknown ∈ opts) (f : Flags) :
    ∃ status, getopt opts f = .error status := by
  induction opts generalizing f with
  | nil => simp at h
  | cons o opts ih =>
    cases o with
    | gsensor => exact ih (by simpa using h) _
    | gyro => exact ih (by simpa using h) _
    | magnet => exact ih (by simpa using h) _
    | help => exact ⟨0, rfl⟩
    | unknown => exact ⟨-1, rfl⟩

/-- **The program** tests the requested sensors, unless an option ends it or the device cannot be
opened: then it makes no attempt.

**Proof sketch.** By whether the options are accepted and the device can be opened; then by which of
the three sensors are requested. -/
lemma testFrizz_eq (opts : List Opt) (opened : Bool) (driver : Driver) (stack : Stack) :
    ((opened = true ∧ .help ∉ opts ∧ .unknown ∉ opts) ∧
      testFrizz opts opened driver stack =
        let t := runTests driver stack (requested opts) ⟨[], [], 0⟩
        ⟨t.attempts, t.words, t.err⟩) ∨
    (¬ (opened = true ∧ .help ∉ opts ∧ .unknown ∉ opts) ∧
      ∃ status, testFrizz opts opened driver stack = ⟨[], [], status⟩) := by
  unfold testFrizz
  by_cases hend : .help ∈ opts ∨ .unknown ∈ opts
  · obtain ⟨status, hstatus⟩ := getopt_eq_error hend ⟨false, false, false⟩
    rw [hstatus]
    refine .inr ⟨fun h => ?_, status, rfl⟩
    rcases hend with hhelp | hunknown
    · exact h.2.1 hhelp
    · exact h.2.2 hunknown
  · obtain ⟨hhelp, hunknown⟩ := not_or.mp hend
    rw [getopt_eq hhelp hunknown]
    dsimp only
    by_cases hopened : opened = true
    · refine .inl ⟨⟨hopened, hhelp, hunknown⟩, ?_⟩
      rw [if_pos hopened]
      simp only [Bool.false_or, decide_eq_true_eq, requested, runTests]
      by_cases hg : Opt.gsensor ∈ opts <;> by_cases hy : Opt.gyro ∈ opts <;>
        by_cases hm : Opt.magnet ∈ opts <;>
        simp [hg, hy, hm, frizzGsensorTest, frizzGyroTest, frizzMagentTest]
    · rw [if_neg hopened]
      exact .inr ⟨fun h => hopened h.1, -1, rfl⟩

/-- The sensors have different identifiers, and each is tested at most once. -/
private lemma nodup_requested (opts : List Opt) : ((requested opts).map Sensor.sensorId).Nodup := by
  unfold requested
  split_ifs <;> decide

/-- The attempts for one of several sensors.

**Proof sketch.** The attempts for one sensor all have its id and those for another have none of it.
Induction on the sensors: the filter keeps the attempts of `s` and drops those of the others, which
differ from it. -/
private lemma filter_flatMap_tried (driver : Driver) {l : List Sensor}
    (hl : (l.map Sensor.sensorId).Nodup) {s : Sensor} (hs : s ∈ l) :
    (l.flatMap (tried driver)).filter (fun a => a.sensorId = s.sensorId) = tried driver s := by
  have hsame : ∀ t : Sensor, t.sensorId = s.sensorId →
      (tried driver t).filter (fun a => a.sensorId = s.sensorId) = tried driver t := by
    intro t ht
    rw [List.filter_eq_self]
    intro a ha
    obtain ⟨k, -, rfl⟩ := List.mem_map.mp ha
    exact decide_eq_true ht
  have hother : ∀ t : Sensor, t.sensorId ≠ s.sensorId →
      (tried driver t).filter (fun a => a.sensorId = s.sensorId) = [] := by
    intro t ht
    rw [List.filter_eq_nil_iff]
    intro a ha
    obtain ⟨k, -, rfl⟩ := List.mem_map.mp ha
    simpa using ht
  induction l with
  | nil => exact absurd hs List.not_mem_nil
  | cons t l ih =>
    rw [List.map_cons, List.nodup_cons] at hl
    rw [List.flatMap_cons, List.filter_append]
    rcases List.mem_cons.mp hs with rfl | hs
    · have hrest : (l.flatMap (tried driver)).filter
          (fun a => a.sensorId = s.sensorId) = [] := by
        rw [List.filter_flatMap, List.flatMap_eq_nil_iff]
        refine fun t ht => hother t fun heq => hl.1 ?_
        rw [← heq]
        exact List.mem_map_of_mem ht
      rw [hsame s rfl, hrest, List.append_nil]
    · have hne : t.sensorId ≠ s.sensorId := fun heq => hl.1 (by
        rw [heq]
        exact List.mem_map_of_mem hs)
      rw [hother t hne, ih hl.2 hs, List.nil_append]

/-- **The last attempt** for a requested sensor got the answer that ended the attempts. -/
theorem lastAttempt_eq (driver : Driver) {opts : List Opt} {s : Sensor} (hs : s ∈ requested opts)
    (words : List UInt32) (status : Int32) :
    Run.lastAttempt ⟨(requested opts).flatMap (tried driver), words, status⟩ s =
      some ⟨s.sensorId, lastAnswer driver s⟩ := by
  unfold Run.lastAttempt
  rw [filter_flatMap_tried driver (nodup_requested opts) hs, tried, List.range_succ,
    List.map_append, List.map_singleton, List.getLast?_concat]
  rfl

/-- The sensors that an option of the program requests. -/
def Opt.sensor : Opt → Option Sensor
  | .gsensor => some Frizz.gsensor
  | .gyro => some Frizz.gyro
  | .magnet => some Frizz.magnet
  | .help => none
  | .unknown => none

/-- A sensor is tested if one of the options asks for it.

**Proof sketch.** The tests are made for the sensors in a fixed order, each of them under the
condition that its option is there. -/
private lemma mem_requested {opts : List Opt} {s : Sensor} :
    s ∈ requested opts ↔ ∃ o ∈ opts, o.sensor = some s := by
  have hite : ∀ (o : Opt) (t : Sensor), o.sensor = some t →
      (s ∈ (if o ∈ opts then [t] else []) ↔ o ∈ opts ∧ o.sensor = some s) := by
    intro o t ho
    rw [ho, Option.some.injEq, eq_comm]
    split_ifs with h <;> simp [h]
  unfold requested
  rw [List.mem_append, List.mem_append, hite .gsensor _ rfl, hite .gyro _ rfl,
    hite .magnet _ rfl, or_assoc]
  constructor
  · rintro (h | h | h) <;> exact ⟨_, h⟩
  · rintro ⟨o, h⟩
    cases o with
    | gsensor => exact .inl h
    | gyro => exact .inr (.inl h)
    | magnet => exact .inr (.inr h)
    | help => exact absurd h.2 (by simp [Opt.sensor])
    | unknown => exact absurd h.2 (by simp [Opt.sensor])

/-- The verdict on the last of several sensors is good when its words are. -/
private lemma getLast?_verdict_eq_zero (driver : Driver) (l : List Sensor) :
    (l.getLast?.map (verdict driver)).getD 0 = 0 ↔
      ∀ s ∈ l.getLast?, DataGood s (lastAnswer driver s) := by
  cases l.getLast? with
  | none => simp
  | some s =>
    have hverdict : verdict driver s = 0 ↔ DataGood s (lastAnswer driver s) := by
      unfold verdict
      split_ifs with h
      · exact iff_of_true rfl h
      · exact iff_of_false (by decide) h
    simpa using hverdict

/-- A sensor hub from which only the gyroscope answers. -/
def gyroOnly : Driver := fun sensorId _ =>
  if sensorId = 0x82 then ⟨6, fun i => if i = 0 then 0xff808205 else 1⟩ else ⟨-1, fun _ => 0⟩

end JzPretest.Frizz

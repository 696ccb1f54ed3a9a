import JzPretest.Semantics.Transition
import JzPretest.TestBluetooth.ReadEvent
import Mathlib.Algebra.Ring.Int.Defs
import Mathlib.Data.List.Infix

set_option relaxedAutoImplicit false
set_option autoImplicit false

/-!
# Where `read_event` lets `read` store

`read_event` adds what `read` returns to its index, and takes it from the length that is left, also
when `read` returns -1. So an error moves the window for the next call back by one byte.

## Main definitions

* `JzPretest.Bluetooth.Window` — what `read` is called with; `JzPretest.Bluetooth.callStep` — from
  one call of `read` to the next.
* `JzPretest.Bluetooth.balance` — how many bytes more have arrived than calls have failed.

## Main results

* `JzPretest.Bluetooth.readPass_eq` — a pass of a loop is one call of `read`.
* `JzPretest.Bluetooth.inv_of_run` — the index is the balance of the calls so far.
* `JzPretest.Bluetooth.reads_inside_iff` — when no call can store outside the buffer.
-/

namespace JzPretest.Bluetooth

open Transition

/-! ## The calls of `read` -/

/-- What `read` is called with: `&buffer[i]` and `len`. -/
structure Window where
  i : ℤ
  len : ℤ
  buffer : Buffer

/-- What a call of `read` returns: -1, or how many bytes it has stored. -/
abbrev Answer := Option (List UInt8)

/-- The returned value. -/
def Answer.count (answer : Answer) : ℤ := answer.elim (-1) fun bytes => bytes.length

/-- What follows a call of `read` in either loop of `read_event`. -/
def Window.received (w : Window) : Answer → Except Fault (Pass Window (ℤ × Window))
  | none =>
    if -1 < w.len then return .again ⟨w.i - 1, w.len + 1, w.buffer⟩
    else return .leave (-1, w)
  | some bytes => do
    let buffer ← storeAt w.buffer w.i bytes
    if bytes.length < w.len then
      return .again ⟨w.i + bytes.length, w.len - bytes.length, buffer⟩
    else return .leave (bytes.length, ⟨w.i, w.len, buffer⟩)

/-- The end of a pass, with the UART. -/
def Window.withUart (uart : Source) : Pass Window (ℤ × Window) → Pass ReadState (ℤ × ReadState)
  | .again w => .again ⟨w.i, w.len, w.buffer, uart⟩
  | .leave (count, w) => .leave (count, ⟨w.i, w.len, w.buffer, uart⟩)

/-- **A pass of a loop** of `read_event` is one call of `read`, and what follows it.

**Proof sketch.** By what the read answers, whether the store succeeds, and whether anything is
missing afterwards. -/
theorem readPass_eq (s : ReadState) :
    readPass s = Prog.lift ((Window.received ⟨s.i, s.len, s.buffer⟩
      (s.uart.read s.len.toNat).1).map (Window.withUart (s.uart.read s.len.toNat).2)) := by
  unfold readPass
  rcases s.uart.read s.len.toNat with ⟨_ | bytes, uart⟩
  · by_cases hlen : -1 < s.len
    · simp only [Window.received, hlen, if_true]
      rfl
    · simp only [Window.received, hlen, if_false]
      rfl
  · simp only [Window.received]
    cases storeAt s.buffer s.i bytes with
    | error e => rfl
    | ok buffer =>
      by_cases hlt : (bytes.length : ℤ) < s.len
      · simp only [hlt, if_true]
        rfl
      · simp only [hlt, if_false]
        rfl

/-- Where `read_event` is: waiting for the answer of a call of `read`, in its first loop or in its
second one, or done. -/
inductive Call where
  | waiting (header : Bool) (w : Window)
  | returned (count : ℤ)

/-- The first call of `read`. -/
def Call.start (buffer : Buffer) : Call := .waiting true ⟨0, 3, buffer⟩

/-- `read` stores at most as many bytes as it is asked for. -/
def Window.Possible (w : Window) (answer : Answer) : Prop :=
  ∀ bytes ∈ answer, bytes.length ≤ w.len.toNat

instance (w : Window) (answer : Answer) : Decidable (w.Possible answer) :=
  inferInstanceAs (Decidable (∀ _ ∈ _, _))

/-- What follows the last call of a loop: the second loop, or the end. -/
def Call.afterLoop (header : Bool) (count : ℤ) (w : Window) : Except Fault Call :=
  if header then do
    let len ← w.buffer.load 2
    return .waiting false ⟨w.i + count, len.toNat, w.buffer⟩
  else return .returned (count + w.i)

/-- From one call of `read` to the next, with the answer of the first one. -/
def callStep (c : Call) (answer : Answer) : Option Call :=
  match c with
  | .returned _ => none
  | .waiting header w =>
    if w.Possible answer then
      match w.received answer with
      | .error _ => none
      | .ok (.again w) => some (.waiting header w)
      | .ok (.leave (count, w)) => (Call.afterLoop header count w).toOption
    else none

/-! ## What is promised, and when it is kept -/

/-- The call of `read` can only store inside the 1024 bytes of the buffer. -/
structure Window.Inside (w : Window) : Prop where
  lower : 0 ≤ w.i
  upper : w.i + w.len ≤ 1024

/-- How many bytes more have arrived than calls have failed. -/
def balance (answers : List Answer) : ℤ := (answers.map Answer.count).sum

/-- The last answer adds what it counts for. -/
private lemma balance_concat (past : List Answer) (answer : Answer) :
    balance (past ++ [answer]) = balance past + answer.count := by
  simp [balance]

/-- A sequence of answers that `read_event` may get: each of them answers a call of `read`. -/
def MayGet (buffer : Buffer) (answers : List Answer) : Prop :=
  ∀ past answer, past ++ [answer] <+: answers →
    ∃ header w, run callStep (.start buffer) past = some (.waiting header w) ∧ w.Possible answer

/-- **The invariant**: the index is the balance, and the window ends where the header ends, or the
event. -/
def CallInv (past : List Answer) : Call → Prop
  | .waiting header w => w.buffer.size = 1024 ∧ 0 ≤ w.len ∧ w.i = balance past ∧
    if header then w.i + w.len = 3 else 3 ≤ w.i + w.len ∧ w.i + w.len ≤ 258
  | .returned count => count = balance past ∧ 0 ≤ count

/-- It holds before the first call, since the buffer has 1024 bytes. -/
private lemma callInv_start {buffer : Buffer} (hsize : buffer.size = 1024) :
    CallInv [] (.start buffer) :=
  ⟨hsize, Int.le_of_lt (show (0 : ℤ) < 3 by decide), rfl, rfl⟩

/-! ## One call -/

/-- Storing does not change the size of a block. -/
private lemma size_of_storeAll {bytes : List UInt8} : ∀ {data data' : Buffer} {pos : ℕ},
    data.storeAll pos bytes = .ok data' → data'.size = data.size := by
  induction bytes with
  | nil =>
    intro data data' pos h
    rw [Except.ok.inj h]
  | cons v vs ih =>
    intro data data' pos h
    rw [Buffer.storeAll] at h
    obtain ⟨data₁, hstore, h⟩ := bind_eq_ok.mp h
    unfold Buffer.store at hstore
    split_ifs at hstore
    obtain rfl := Except.ok.inj hstore
    have hsize := ih h
    exact hsize

/-- Storing bytes leaves the size. -/
lemma size_of_storeAt {buffer buffer' : Buffer} {i : ℤ} {bytes : List UInt8}
    (h : storeAt buffer i bytes = .ok buffer') : buffer'.size = buffer.size := by
  unfold storeAt at h
  split_ifs at h
  · rw [Except.ok.inj h]
  · exact size_of_storeAll h

section Received

variable {w w' : Window} {answer : Answer}

/-- Going on, the window moves by what was returned.

**Proof sketch.** By the answer: the pass goes on only where less than the missing part was
returned. -/
lemma Window.received_again (h : w.received answer = .ok (.again w')) :
    w'.i = w.i + answer.count ∧ w'.len = w.len - answer.count ∧ w'.buffer.size = w.buffer.size ∧
      answer.count < w.len := by
  cases answer with
  | none =>
    simp only [received] at h
    split_ifs at h with hlen
    · obtain rfl := Pass.again.inj (Except.ok.inj h)
      exact ⟨rfl, (Int.sub_neg _ _).symm, rfl, hlen⟩
    · cases h
  | some bytes =>
    obtain ⟨buffer, hstore, h⟩ := bind_eq_ok.mp h
    split_ifs at h with hlt
    · obtain rfl := Pass.again.inj (Except.ok.inj h)
      exact ⟨rfl, rfl, size_of_storeAt hstore, hlt⟩
    · cases h

/-- The last call of a loop returns what was missing. -/
lemma Window.received_leave {count : ℤ} (hlen : 0 ≤ w.len) (hpossible : w.Possible answer)
    (h : w.received answer = .ok (.leave (count, w'))) :
    count = answer.count ∧ count = w.len ∧ w'.i = w.i ∧ w'.buffer.size = w.buffer.size := by
  cases answer with
  | none =>
    simp only [received] at h
    rw [if_pos (by omega)] at h
    cases h
  | some bytes =>
    obtain ⟨buffer, hstore, h⟩ := bind_eq_ok.mp h
    have hle : bytes.length ≤ w.len.toNat := hpossible bytes rfl
    split_ifs at h with hlt
    · cases h
    · obtain ⟨rfl, rfl⟩ := Prod.mk.inj (Pass.leave.inj (Except.ok.inj h))
      exact ⟨rfl, by omega, rfl, size_of_storeAt hstore⟩

/-- Inside the buffer nothing goes wrong.

**Proof sketch.** A failed read stores nothing; the bytes of another are no more than the missing
ones, so they are inside the buffer. -/
lemma Window.received_ok (hinside : w.Inside) (hsize : w.buffer.size = 1024) (hlen : 0 ≤ w.len)
    (hpossible : w.Possible answer) : ∃ pass, w.received answer = .ok pass := by
  obtain ⟨hlower, hupper⟩ := hinside
  cases answer with
  | none =>
    simp only [received]
    split_ifs
    · exact ⟨_, rfl⟩
    · exact ⟨_, rfl⟩
  | some bytes =>
    have hle : bytes.length ≤ w.len.toNat := hpossible bytes rfl
    have hstore : ∃ buffer, storeAt w.buffer w.i bytes = .ok buffer := by
      unfold storeAt
      split_ifs
      · exact ⟨_, rfl⟩
      · omega
      · exact ⟨_, Buffer.storeAll_eq (by omega)⟩
    obtain ⟨buffer, hstore⟩ := hstore
    simp only [received, hstore]
    by_cases hlt : (bytes.length : ℤ) < w.len
    · exact ⟨_, if_pos hlt⟩
    · exact ⟨_, if_neg hlt⟩

end Received

/-- What follows a loop that leaves with a window like this one. -/
lemma Call.afterLoop_ok (header : Bool) (count : ℤ) {w : Window} (hsize : w.buffer.size = 1024) :
    ∃ c, Call.afterLoop header count w = .ok c ∧
      (header = true → ∃ len : UInt8, c = .waiting false ⟨w.i + count, len.toNat, w.buffer⟩) ∧
      (header = false → c = .returned (count + w.i)) := by
  cases header with
  | true =>
    have hload : w.buffer.load 2 = .ok (w.buffer.byte 2) := by
      rw [Buffer.load_eq (by decide) (by rw [hsize]; decide)]
      rfl
    refine ⟨.waiting false ⟨w.i + count, (w.buffer.byte 2).toNat, w.buffer⟩, ?_,
      fun _ => ⟨_, rfl⟩, fun h => absurd h (by decide)⟩
    rw [Call.afterLoop, if_pos rfl, hload]
    rfl
  | false => exact ⟨_, rfl, fun h => absurd h (by decide), fun _ => rfl⟩

/-- **One call of `read`** keeps the invariant, whatever it returns.

**Proof sketch.** By the pass of the loop. While it goes on, the window moves by what was returned
and its end stays. When it is left, nothing is missing: behind the header the window of the payload
begins, behind the payload the event is complete. -/
theorem callInv_step {past : List Answer} {c c' : Call} {answer : Answer} (h : CallInv past c)
    (hstep : callStep c answer = some c') : CallInv (past ++ [answer]) c' := by
  cases c with
  | returned count => cases hstep
  | waiting header w =>
    obtain ⟨hsize, hlen, hi, hend⟩ := h
    rw [callStep] at hstep
    split_ifs at hstep with hpossible
    rcases hreceived : w.received answer with e | (w' | ⟨count, w'⟩)
    · simp [hreceived] at hstep
    · obtain ⟨hi', hlen', hsize', hlt⟩ := Window.received_again hreceived
      simp only [hreceived, Option.some.injEq] at hstep
      subst hstep
      refine ⟨hsize'.trans hsize, by omega, by rw [balance_concat]; omega, ?_⟩
      have hsum : w'.i + w'.len = w.i + w.len := by omega
      rwa [hsum]
    · obtain ⟨rfl, hcount, hi', hsize'⟩ := Window.received_leave hlen hpossible hreceived
      obtain ⟨c, hafter, hfirst, hlast⟩ :=
        Call.afterLoop_ok header answer.count (hsize'.trans hsize)
      simp only [hreceived, hafter, Except.toOption, Option.some.injEq] at hstep
      subst hstep
      cases header with
      | true =>
        obtain ⟨len, rfl⟩ := hfirst rfl
        have hlt := len.toNat_lt
        rw [if_pos rfl] at hend
        refine ⟨hsize'.trans hsize, ?_, ?_, ?_⟩
        · exact Int.natCast_nonneg _
        · rw [balance_concat]
          dsimp only
          omega
        · simp only [Bool.false_eq_true, if_false]
          omega
      | false =>
        rw [hlast rfl]
        simp only [Bool.false_eq_true, if_false] at hend
        refine ⟨?_, ?_⟩
        · rw [balance_concat]
          omega
        · omega

/-- As long as the window is inside the buffer, an answer to its call leads on. -/
private lemma callStep_some {past : List Answer} {header : Bool} {w : Window} {answer : Answer}
    (h : CallInv past (.waiting header w)) (hinside : w.Inside) (hpossible : w.Possible answer) :
    ∃ c, callStep (.waiting header w) answer = some c := by
  obtain ⟨hsize, hlen, -, -⟩ := h
  obtain ⟨pass, hreceived⟩ := Window.received_ok hinside hsize hlen hpossible
  rw [callStep, if_pos hpossible, hreceived]
  rcases pass with w' | ⟨count, w'⟩
  · exact ⟨_, rfl⟩
  · have hsize' := (Window.received_leave hlen hpossible hreceived).2.2.2
    obtain ⟨c, hafter, -⟩ :=
      Call.afterLoop_ok header count (hsize'.trans hsize)
    simp only [hafter]
    exact ⟨c, rfl⟩

/-! ## All calls -/

/-- **The index is the balance**, in every run. -/
theorem inv_of_run {buffer : Buffer} (hsize : buffer.size = 1024) {answers : List Answer} {c : Call}
    (hrun : run callStep (.start buffer) answers = some c) : CallInv answers c :=
  run_history (fun _ _ _ _ h hs => callInv_step h hs) (callInv_start hsize) hrun

/-- A window is inside the buffer unless it begins before it. -/
lemma CallInv.inside_iff {past : List Answer} {header : Bool} {w : Window}
    (h : CallInv past (.waiting header w)) : w.Inside ↔ 0 ≤ balance past := by
  obtain ⟨-, -, hi, hend⟩ := h
  rw [← hi]
  refine ⟨fun hinside => hinside.lower, fun hlower => ⟨hlower, ?_⟩⟩
  cases header with
  | true =>
    rw [if_pos rfl] at hend
    omega
  | false =>
    simp only [Bool.false_eq_true, if_false] at hend
    omega

/-- **When a UART that fails cannot corrupt memory**: for every sequence of answers that the calls
of `read` may get, each of these calls can only store inside the buffer, if and only if at no point
more calls have failed than bytes have arrived.

**Proof sketch.** The index is the balance of the calls so far (`inv_of_run`), and the window never
ends behind the longest event. For the other direction, an answer leads on as long as the windows
are inside (`callStep_some`), so every beginning of the sequence is followed by a call, or by the
end, where the balance is the length of the event. -/
theorem reads_inside_iff (buffer : Buffer) (hsize : buffer.size = 1024) (answers : List Answer)
    (hanswers : MayGet buffer answers) :
    (∀ past header w, past <+: answers →
      run callStep (.start buffer) past = some (.waiting header w) → w.Inside) ↔
      ∀ past, past <+: answers → 0 ≤ balance past := by
  constructor
  · intro h past hpast
    have hreached : ∃ c, run callStep (.start buffer) past = some c := by
      rcases List.eq_nil_or_concat past with rfl | ⟨before, answer, rfl⟩
      · exact ⟨_, rfl⟩
      · rw [List.concat_eq_append] at hpast ⊢
        obtain ⟨header, w, hrun, hpossible⟩ := hanswers before answer hpast
        have hinside := h before header w ((List.prefix_append _ _).trans hpast) hrun
        obtain ⟨c, hstep⟩ := callStep_some (inv_of_run hsize hrun) hinside hpossible
        exact ⟨c, run_concat_eq_some.mpr ⟨_, hrun, hstep⟩⟩
    obtain ⟨c, hrun⟩ := hreached
    have hinv := inv_of_run hsize hrun
    cases c with
    | waiting header w => exact hinv.inside_iff.mp (h past header w hpast hrun)
    | returned count => exact hinv.1 ▸ hinv.2
  · intro h past header w hpast hrun
    exact (inv_of_run hsize hrun).inside_iff.mpr (h past hpast)

/-- The answers of a run are ones that `read_event` may get. -/
private lemma mayGet_of_run {buffer : Buffer} {answers : List Answer} {c : Call}
    (hrun : run callStep (.start buffer) answers = some c) : MayGet buffer answers := by
  rintro past answer ⟨rest, rfl⟩
  obtain ⟨c', hrun'⟩ := run_of_append hrun
  obtain ⟨before, hbefore, hstep⟩ := run_concat_eq_some.mp hrun'
  cases before with
  | returned count => cases hstep
  | waiting header w =>
    rw [callStep] at hstep
    split_ifs at hstep with hpossible
    exact ⟨header, w, hbefore, hpossible⟩

/-- Two bytes arrive, then a call fails, and then the rest of an event without payload. -/
theorem reads_inside_iff_failure :
    MayGet ⟨1024, fun _ => 0⟩ [some [4, 14], none, some [14, 0], some []] ∧
      ∀ past header w, past <+: [some [4, 14], none, some [14, 0], some []] →
        run callStep (.start ⟨1024, fun _ => 0⟩) past = some (.waiting header w) → w.Inside := by
  have hmay : MayGet ⟨1024, fun _ => 0⟩ [some [4, 14], none, some [14, 0], some []] :=
    mayGet_of_run (c := .returned 3) rfl
  refine ⟨hmay, (reads_inside_iff ⟨1024, fun _ => 0⟩ rfl _ hmay).mpr ?_⟩
  have hbalance : ∀ past ∈ [some [4, 14], none, some [14, 0], some []].inits,
      0 ≤ balance past := by decide
  exact fun past hpast => hbalance past ((List.mem_inits _ _).mpr hpast)

/-- **The first call fails**: the next one stores at `buffer[-1]`. -/
theorem read_before_buffer :
    ¬ ∀ past header w, past <+: [none] →
      run callStep (.start ⟨1024, fun _ => 0⟩) past = some (.waiting header w) → w.Inside := by
  intro h
  have hlower := (h [none] true ⟨-1, 4, ⟨1024, fun _ => 0⟩⟩ (List.prefix_refl _) rfl).lower
  exact absurd hlower (by decide)

end JzPretest.Bluetooth

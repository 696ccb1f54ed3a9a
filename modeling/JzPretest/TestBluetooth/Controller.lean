import JzPretest.TestBluetooth.Host

set_option relaxedAutoImplicit false
set_option autoImplicit false

/-!
# The Bluetooth test on a working controller

The host and the controller exchange bytes over two channels. A controller that works answers
every command with one Command Complete event, in order. When the alarm fires while `proc_reset`
waits, the host sends the reset command once more, and the answer to that is not asked for by
anyone: it is still in the channel when `proc_read_bd_addr` reads its event.

## Main definitions

* `JzPretest.Bluetooth.System` — the host, the controller and the two channels.
* `JzPretest.Bluetooth.Outstanding` — the commands whose answers the host has not read.

## Main results

* `JzPretest.Bluetooth.exit_code_eq` — the code with which the test exits.
* `JzPretest.Bluetooth.exit_failure_iff` — the test fails exactly when the alarm has fired.
-/

namespace JzPretest.Bluetooth

/-- The host and the two channels: what it has sent, and what it can read. -/
structure System where
  host : Phase
  tx : List UInt8
  rx : List UInt8
  deriving DecidableEq, Repr

/-- What happens: a step of the host, a call of `read` that delivers `n` bytes, the alarm, or an
answer of the controller, whose device address is `addr`. -/
inductive Label where
  | host
  | read (n : ℕ)
  | expired
  | controller (addr : Fin 6 → UInt8)

/-- Taking a command from a channel: its opcode and the rest. -/
def takeCommand : List UInt8 → Option (UInt8 × UInt8 × List UInt8)
  | packet :: lo :: hi :: len :: rest =>
    if packet = 0x01 ∧ len.toNat ≤ rest.length then some (lo, hi, rest.drop len.toNat) else none
  | _ => none

/-- The answer of a working controller: a Command Complete event with one credit and status `0`,
for Read_BD_ADDR with the device address. -/
def answer (addr : Fin 6 → UInt8) (lo hi : UInt8) : List UInt8 :=
  if lo = 0x09 ∧ hi = 0x10 then [0x04, 0x0e, 0x0a, 0x01, lo, hi, 0x00] ++ List.ofFn addr
  else [0x04, 0x0e, 0x04, 0x01, lo, hi, 0x00]

namespace System

/-- A step of the host within the system. -/
def hostDo (s : System) (a : HostLabel) (rx : List UInt8) : Option System :=
  (hostStep s.host a).map fun (host, out) => ⟨host, s.tx ++ out, rx⟩

/-- A step of the system. -/
def step (s : System) : Label → Option System
  | .host => s.hostDo .go s.rx
  | .read n => if n ≤ s.rx.length then s.hostDo (.read (s.rx.take n)) (s.rx.drop n) else none
  | .expired => s.hostDo .expired s.rx
  | .controller addr =>
    (takeCommand s.tx).map fun (lo, hi, tx) => ⟨s.host, tx, s.rx ++ answer addr lo hi⟩

/-- The beginning of the test. -/
def start : System := ⟨hostStart, [], []⟩

end System

/-! ## Commands and answers -/

/-- An answer to the command of the procedure. -/
def IsAnswer (p : Proc) (e : List UInt8) : Prop := ∃ addr, e = answer addr p.opcode.1 p.opcode.2

/-- A procedure succeeds with the answer to its command.

**Proof sketch.** By the procedure: the first four answers are constants, and the address in the
fifth does not matter for its length and its status. -/
lemma IsAnswer.accepts {p : Proc} {e : List UInt8} (h : IsAnswer p e) : Accepts p e := by
  obtain ⟨addr, rfl⟩ := h
  cases p with
  | reset =>
    exact (⟨⟨by decide, by decide⟩, by decide⟩ : Accepts .reset successHciResetRecevied)
  | setEventFilter =>
    exact (⟨⟨by decide, by decide⟩, by decide⟩ :
      Accepts .setEventFilter successHciSetEventFilterRecevied)
  | writeScanEnable =>
    exact (⟨⟨by decide, by decide⟩, by decide⟩ :
      Accepts .writeScanEnable successHciWriteScanEnableRecevied)
  | enableDeviceUnderTestMode =>
    exact (⟨⟨by decide, by decide⟩, by decide⟩ :
      Accepts .enableDeviceUnderTestMode successHciEnableDeviceUnderTestModeRecevied)
  | readBdAddr =>
    have hlen : (answer addr 0x09 0x10).length = 13 := by
      simp [answer]
    refine ⟨⟨by rw [Proc.opcode, hlen]; decide, ?_⟩, ?_⟩
    · rw [Proc.opcode, hlen]
      rfl
    · exact (checkStatus_eq_true_iff _).mpr ⟨hlen, rfl⟩

/-- `proc_read_bd_addr` does not succeed with the answer to a reset. -/
lemma IsAnswer.not_succeeds {e : List UInt8} (h : IsAnswer .reset e) :
    Proc.readBdAddr.succeeds e = false := by
  obtain ⟨addr, rfl⟩ := h
  rfl

/-- Taking the command of a procedure. -/
private lemma takeCommand_command (p : Proc) (rest : List UInt8) :
    takeCommand (p.command ++ rest) = some (p.opcode.1, p.opcode.2, rest) := by
  cases p <;> simp [takeCommand, Proc.command, Proc.opcode, hciReset, hciReadBdAddr,
    hciSetEventFilter, hciWriteScanEnable, hciEnableDeviceUnderTestMode]

/-- The commands of these procedures have been sent: the first ones have been answered, and the
answers make up what the host has not judged yet; the others are still in the channel. -/
def Outstanding (ps : List Proc) (bytes tx : List UInt8) : Prop :=
  ∃ answered pending events, ps = answered ++ pending ∧ List.Forall₂ IsAnswer answered events ∧
    bytes = events.flatten ∧ tx = pending.flatMap Proc.command

namespace Outstanding

variable {ps : List Proc} {bytes tx : List UInt8}

/-- Nothing has been sent. -/
private lemma nil : Outstanding [] [] [] := ⟨[], [], [], rfl, .nil, rfl, rfl⟩

/-- The host sends a command. -/
lemma send (h : Outstanding ps bytes tx) (p : Proc) :
    Outstanding (ps ++ [p]) bytes (tx ++ p.command) := by
  obtain ⟨answered, pending, events, rfl, hevents, rfl, rfl⟩ := h
  refine ⟨answered, pending ++ [p], events, List.append_assoc _ _ _, hevents, rfl, ?_⟩
  rw [List.flatMap_append, List.flatMap_singleton]

/-- The controller answers a command. -/
private lemma controller (h : Outstanding ps bytes tx) {lo hi : UInt8} {tx' : List UInt8}
    (htake : takeCommand tx = some (lo, hi, tx')) (addr : Fin 6 → UInt8) :
    Outstanding ps (bytes ++ answer addr lo hi) tx' := by
  obtain ⟨answered, pending, events, rfl, hevents, rfl, rfl⟩ := h
  cases pending with
  | nil => simp [takeCommand] at htake
  | cons p pending =>
    rw [List.flatMap_cons, takeCommand_command] at htake
    simp only [Option.some.injEq, Prod.mk.injEq] at htake
    obtain ⟨rfl, rfl, rfl⟩ := htake
    refine ⟨answered ++ [p], pending, events ++ [answer addr p.opcode.1 p.opcode.2], ?_,
      List.rel_append hevents (.cons ⟨addr, rfl⟩ .nil), ?_, rfl⟩
    · rw [List.append_assoc, List.singleton_append]
    · rw [List.flatten_append, List.flatten_singleton]

/-- The host has read an event: it is the answer to the first command. -/
private lemma receive {p : Proc} {e rx : List UInt8} (h : Outstanding (p :: ps) (e ++ rx) tx)
    (he : IsEvent e) : IsAnswer p e ∧ Outstanding ps rx tx := by
  obtain ⟨answered, pending, events, hps, hevents, hbytes, rfl⟩ := h
  cases hevents with
  | nil =>
    obtain ⟨rfl, -⟩ := List.append_eq_nil_iff.mp hbytes
    exact absurd he.header (by decide)
  | cons hanswer hevents =>
    obtain ⟨rfl, rfl⟩ := List.cons.inj hps
    rw [List.flatten_cons] at hbytes
    obtain ⟨rfl, rfl⟩ := IsEvent.append_inj he hanswer.accepts.event hbytes
    exact ⟨hanswer, _, _, _, rfl, hevents, rfl, rfl⟩

end Outstanding

/-! ## Runs of the test -/

/-- Whether the label is the alarm. -/
def Label.isExpired : Label → Bool
  | .expired => true
  | _ => false

/-- How often the alarm has fired. -/
def alarms (as : List Label) : ℕ := as.countP Label.isExpired

/-- The last label adds an alarm if it is one. -/
private lemma alarms_snoc (as : List Label) (a : Label) :
    alarms (as ++ [a]) = alarms as + if a.isExpired then 1 else 0 := by
  rw [alarms, List.countP_append, List.countP_singleton]
  rfl

/-- **The invariant**: after `n` alarms, the resets that were sent for them are outstanding, in
front of the command of the procedure that `main` is in. No procedure after the second is reached
when there are any. -/
def InPhase (n : ℕ) (s : System) : Prop :=
  match s.host with
  | .sending p => (n = 0 ∨ p = .readBdAddr) ∧
    Outstanding (List.replicate n .reset) s.rx s.tx
  | .reading p r => (n = 0 ∨ p = .reset ∨ p = .readBdAddr) ∧ r.Valid ∧
    Outstanding (List.replicate n .reset ++ [p]) (r.got ++ s.rx) s.tx
  | .judging p e => (n = 0 ∨ p = .reset ∨ p = .readBdAddr) ∧
    ∃ first rest, List.replicate n .reset ++ [p] = first :: rest ∧ IsAnswer first e ∧
      Outstanding rest s.rx s.tx
  | .exited code => code = if n = 0 then 0 else 4

/-- Judging an event.

**Proof sketch.** Without an alarm the event answers the command of this procedure, which succeeds.
After an alarm the queue begins with the answer to a reset: `proc_reset` succeeds with it,
`proc_read_bd_addr` does not. -/
private lemma inPhase_judge {n : ℕ} {p : Proc} {e tx rx : List UInt8}
    (h : InPhase n ⟨.judging p e, tx, rx⟩) : InPhase n ⟨afterJudging p e, tx, rx⟩ := by
  obtain ⟨hn, first, rest, hqueue, hanswer, hrest⟩ := h
  by_cases h0 : n = 0
  · -- no alarm: the event is the answer to the command of this procedure
    subst h0
    obtain ⟨rfl, rfl⟩ := List.cons.inj hqueue
    rw [afterJudging, if_pos hanswer.accepts.succeeds]
    cases p with
    | enableDeviceUnderTestMode => rfl
    | _ => exact ⟨Or.inl rfl, hrest⟩
  · obtain ⟨k, rfl⟩ : ∃ k, n = k + 1 := ⟨n - 1, by omega⟩
    obtain ⟨rfl, rfl⟩ := List.cons.inj hqueue
    rcases hn.resolve_left h0 with rfl | rfl
    · -- `proc_reset` succeeds with the answer to the first of the resets
      rw [afterJudging, if_pos hanswer.accepts.succeeds]
      refine ⟨Or.inr rfl, ?_⟩
      rw [List.replicate_succ']
      exact hrest
    · -- `proc_read_bd_addr` reads the answer to a reset
      rw [afterJudging, if_neg (by rw [hanswer.not_succeeds]; decide)]
      exact (if_neg h0).symm

/-- Reading some bytes of an event, or the last of them.

**Proof sketch.** By the step of the host: either bytes are missing and those that have been read
belong to the same answer, or the event is complete and is the first answer of the queue. -/
private lemma inPhase_read {n k : ℕ} {host host' : Phase} {out tx rx : List UInt8}
    (h : InPhase n ⟨host, tx, rx⟩) (hs : HostStep host (.read (rx.take k)) host' out) :
    InPhase n ⟨host', tx ++ out, rx.drop k⟩ := by
  have hrx : rx.take k ++ rx.drop k = rx := List.take_append_drop k rx
  cases hs with
  | read p r r' bytes hlen hnext =>
    obtain ⟨hp, hvalid, hout⟩ := h
    rcases hvalid.next_cases hlen with ⟨r'', hnext', hgot, hvalid'⟩ | ⟨hnext', -⟩
    · obtain rfl : r'' = r' := Pass.again.inj (hnext'.symm.trans hnext)
      refine ⟨hp, hvalid', ?_⟩
      simpa [hgot] using hout
    · simp [hnext'] at hnext
  | receive p r bytes e hlen hnext =>
    obtain ⟨hp, hvalid, hout⟩ := h
    rcases hvalid.next_cases hlen with ⟨r'', hnext', -⟩ | ⟨hnext', hevent⟩
    · simp [hnext'] at hnext
    · obtain rfl := Pass.leave.inj (hnext'.symm.trans hnext)
      obtain ⟨first, rest, hqueue⟩ : ∃ first rest,
          List.replicate n .reset ++ [p] = first :: rest :=
        List.exists_cons_of_ne_nil (by simp)
      dsimp only at hout
      rw [hqueue, ← hrx, ← List.append_assoc] at hout
      obtain ⟨hanswer, hrest⟩ := hout.receive hevent
      exact ⟨hp, first, rest, hqueue, hanswer, by simpa using hrest⟩

/-- The alarm: one more reset is outstanding. -/
private lemma inPhase_expired {n : ℕ} {host host' : Phase} {out tx rx : List UInt8}
    (h : InPhase n ⟨host, tx, rx⟩) (hs : HostStep host .expired host' out) :
    InPhase (n + 1) ⟨host', tx ++ out, rx⟩ := by
  cases hs with
  | expiredReading r =>
    obtain ⟨-, hvalid, hout⟩ := h
    refine ⟨Or.inr (Or.inl rfl), hvalid, ?_⟩
    have := hout.send .reset
    rw [← List.replicate_succ'] at this
    exact this
  | expiredJudging e =>
    obtain ⟨-, first, rest, hqueue, hanswer, hrest⟩ := h
    refine ⟨Or.inr (Or.inl rfl), first, rest ++ [.reset], ?_, hanswer, hrest.send .reset⟩
    rw [← List.cons_append, ← hqueue, List.replicate_succ']

/-- An answer of the controller, in whatever phase the host is. -/
private lemma inPhase_controller {n : ℕ} {host : Phase} {tx tx' rx : List UInt8} {lo hi : UInt8}
    (h : InPhase n ⟨host, tx, rx⟩) (htake : takeCommand tx = some (lo, hi, tx'))
    (addr : Fin 6 → UInt8) : InPhase n ⟨host, tx', rx ++ answer addr lo hi⟩ := by
  cases host with
  | sending p => exact ⟨h.1, h.2.controller htake addr⟩
  | reading p r =>
    obtain ⟨hp, hvalid, hout⟩ := h
    refine ⟨hp, hvalid, ?_⟩
    have := hout.controller htake addr
    rw [List.append_assoc] at this
    exact this
  | judging p e =>
    obtain ⟨hp, first, rest, hqueue, hanswer, hrest⟩ := h
    exact ⟨hp, first, rest, hqueue, hanswer, hrest.controller htake addr⟩
  | exited code => exact h

/-- **One step of the system.**

**Proof sketch.** By the label: a step of the host is sending, judging, reading or being
interrupted, and the controller takes a command and answers it. Each has its own lemma. -/
theorem inPhase_step {as : List Label} {s s' : System} {a : Label} (h : InPhase (alarms as) s)
    (hstep : s.step a = some s') : InPhase (alarms (as ++ [a])) s' := by
  obtain ⟨host, tx, rx⟩ := s
  rw [alarms_snoc]
  cases a with
  | host =>
    change InPhase (alarms as) s'
    obtain ⟨⟨host', out⟩, hs, rfl⟩ := Option.map_eq_some_iff.mp hstep
    cases hostStep_cases hs with
    | send p =>
      obtain ⟨hn, hout⟩ := h
      exact ⟨hn.imp_right Or.inr, Reading.valid_start, hout.send p⟩
    | judge p e =>
      simpa using inPhase_judge h
  | read k =>
    change InPhase (alarms as) s'
    obtain ⟨hk, hstep⟩ := Option.ite_none_right_eq_some.mp hstep
    obtain ⟨⟨host', out⟩, hs, rfl⟩ := Option.map_eq_some_iff.mp hstep
    exact inPhase_read h (hostStep_cases hs)
  | expired =>
    change InPhase (alarms as + 1) s'
    obtain ⟨⟨host', out⟩, hs, rfl⟩ := Option.map_eq_some_iff.mp hstep
    exact inPhase_expired h (hostStep_cases hs)
  | controller addr =>
    change InPhase (alarms as) s'
    obtain ⟨⟨lo, hi, tx'⟩, htake, rfl⟩ := Option.map_eq_some_iff.mp hstep
    exact inPhase_controller h htake addr

/-- **The exit code**: the test ends with `0`, or with `4` when the alarm has fired.

**Proof sketch.** The invariant holds along every run (`inPhase_step`). The first answer is that to
the first reset, so `proc_reset` succeeds. If resets are outstanding then, `proc_read_bd_addr`
reads the answer to one of them; otherwise every procedure reads the answer to its own command. -/
theorem exit_code_eq {as : List Label} {s : System} {code : ℕ}
    (h : Transition.run System.step System.start as = some s) (hexit : s.host = .exited code) :
    code = if alarms as = 0 then 0 else 4 := by
  have hstart : InPhase (alarms []) System.start := ⟨Or.inl rfl, .nil⟩
  have hinv : InPhase (alarms ([] ++ as)) s := Transition.run_history
    (I := fun as s => InPhase (alarms as) s) (fun _ _ _ _ hI hs => inPhase_step hI hs) hstart h
  rw [List.nil_append, InPhase, hexit] at hinv
  exact hinv

/-- **The test on a working controller** exits with one of the failure codes `3` to `7` if and only
if the alarm has fired, in whatever order the host, the controller and the alarm take their
steps.

**Proof sketch.** In every run the exit code is given by the number of alarms (`exit_code_eq`),
which is zero exactly if no label is one. -/
theorem exit_failure_iff (as : List Label) (s : System) (code : ℕ)
    (h : Transition.run System.step System.start as = some s) (hexit : s.host = .exited code) :
    (3 ≤ code ∧ code ≤ 7) ↔ .expired ∈ as := by
  have hfired : alarms as = 0 ↔ .expired ∉ as := by
    rw [alarms, List.countP_eq_zero]
    constructor
    · intro hnone hmem
      exact hnone _ hmem rfl
    · rintro hnone (_ | n | _ | addr) hmem hexp
      · exact absurd hexp (by decide)
      · exact absurd hexp Bool.false_ne_true
      · exact hnone hmem
      · exact absurd hexp Bool.false_ne_true
  rw [exit_code_eq h hexit]
  by_cases h0 : alarms as = 0
  · rw [if_pos h0]
    exact iff_of_false (by omega) (hfired.mp h0)
  · rw [if_neg h0]
    exact iff_of_true (by omega) (not_not.mp fun hnot => h0 (hfired.mpr hnot))

/-- A run in which the alarm fires before the answer to the first reset is read. -/
def lateAnswer : List Label :=
  [.host, .expired, .controller fun _ => 0, .read 3, .read 4, .host,
    .host, .controller fun _ => 0, .read 3, .read 4, .host]

/-- A run in which an alarm fires before an answer is read. -/
theorem exit_failure_iff_lateAnswer : (3 ≤ 4 ∧ 4 ≤ 7) ↔ .expired ∈ lateAnswer :=
  exit_failure_iff lateAnswer ⟨.exited 4, hciReadBdAddr, []⟩ 4 rfl rfl

/-- In this run a test of a working controller fails with the code `4`. -/
theorem lateAnswer_fails :
    Transition.run System.step System.start lateAnswer =
      some ⟨.exited 4, hciReadBdAddr, []⟩ := rfl

end JzPretest.Bluetooth

import JzPretest.Semantics.Transition
import JzPretest.TestBluetooth.Event
import Mathlib.Data.List.Forall2

set_option relaxedAutoImplicit false
set_option autoImplicit false

/-!
# The host of the Bluetooth test

`main` runs five procedures, each of which sends an HCI command and judges the next event on the
UART. Four of them compare the event with the expected one; `proc_read_bd_addr` looks only at its
length and at the byte with the status.

## Main definitions

* `JzPretest.Bluetooth.Proc` — the five procedures.
* `JzPretest.Bluetooth.hostStep` — the steps of `main`, with the calls of `read` and the alarm.

## Main results

* `JzPretest.Bluetooth.exit_zero_received` — what has been read when the test succeeds.
-/

namespace JzPretest.Bluetooth

/-- The procedures that `main` calls. -/
inductive Proc where
  | reset
  | readBdAddr
  | setEventFilter
  | writeScanEnable
  | enableDeviceUnderTestMode
  deriving DecidableEq, Repr

/-- `hci_reset`. -/
def hciReset : List UInt8 := [0x01, 0x03, 0x0c, 0x00]

/-- `hci_read_bd_addr`. -/
def hciReadBdAddr : List UInt8 := [0x01, 0x09, 0x10, 0x00]

/-- `hci_set_event_filter`. -/
def hciSetEventFilter : List UInt8 := [0x01, 0x05, 0x0C, 0x03, 0x02, 0x00, 0x02]

/-- `hci_write_scan_enable`. -/
def hciWriteScanEnable : List UInt8 := [0x01, 0x1A, 0x0C, 0x01, 0x03]

/-- `hci_enable_device_under_test_mode`. -/
def hciEnableDeviceUnderTestMode : List UInt8 := [0x01, 0x03, 0x18, 0x00]

/-- `success_hci_reset_recevied`. -/
def successHciResetRecevied : List UInt8 := [0x04, 0x0e, 0x04, 0x01, 0x03, 0x0c, 0x00]

/-- `success_hci_set_event_filter_recevied`. -/
def successHciSetEventFilterRecevied : List UInt8 := [0x04, 0x0e, 0x04, 0x01, 0x05, 0x0c, 0x00]

/-- `success_hci_write_scan_enable_recevied`. -/
def successHciWriteScanEnableRecevied : List UInt8 := [0x04, 0x0e, 0x04, 0x01, 0x1a, 0x0c, 0x00]

/-- `success_hci_enable_device_under_test_mode_recevied`. -/
def successHciEnableDeviceUnderTestModeRecevied : List UInt8 :=
  [0x04, 0x0e, 0x04, 0x01, 0x03, 0x18, 0x00]

/-- The check of four of the procedures: seven bytes, as expected. -/
def checkEvent (expected event : List UInt8) : Bool :=
  event.length = 7 && event = expected

/-- The check of `proc_read_bd_addr`: 13 bytes, with the status success. -/
def checkStatus (event : List UInt8) : Bool :=
  event.length = 13 && event.getD 6 0 = 0x00

namespace Proc

/-- The command that the procedure sends. -/
def command : Proc → List UInt8
  | reset => hciReset
  | readBdAddr => hciReadBdAddr
  | setEventFilter => hciSetEventFilter
  | writeScanEnable => hciWriteScanEnable
  | enableDeviceUnderTestMode => hciEnableDeviceUnderTestMode

/-- Whether the procedure returns `0` for an event. -/
def succeeds : Proc → List UInt8 → Bool
  | reset => checkEvent successHciResetRecevied
  | readBdAddr => checkStatus
  | setEventFilter => checkEvent successHciSetEventFilterRecevied
  | writeScanEnable => checkEvent successHciWriteScanEnableRecevied
  | enableDeviceUnderTestMode => checkEvent successHciEnableDeviceUnderTestModeRecevied

/-- The code with which `main` exits when the procedure does not return `0`. -/
def exitCode : Proc → ℕ
  | reset => 3
  | readBdAddr => 4
  | setEventFilter => 5
  | writeScanEnable => 6
  | enableDeviceUnderTestMode => 7

/-- The procedure that `main` calls next. -/
def next : Proc → Option Proc
  | reset => some readBdAddr
  | readBdAddr => some setEventFilter
  | setEventFilter => some writeScanEnable
  | writeScanEnable => some enableDeviceUnderTestMode
  | enableDeviceUnderTestMode => none

end Proc

/-- Where `main` is: before it sends the command of a procedure, reading the event, judging it, or
at the end. -/
inductive Phase where
  | sending (p : Proc)
  | reading (p : Proc) (r : Reading)
  | judging (p : Proc) (event : List UInt8)
  | exited (code : ℕ)
  deriving DecidableEq, Repr

/-- What happens to the host: a step of its own, a call of `read` that delivers some bytes, or the
alarm. -/
inductive HostLabel where
  | go
  | read (bytes : List UInt8)
  | expired
  deriving DecidableEq, Repr

/-- `main` after a procedure has judged its event. -/
def afterJudging (p : Proc) (event : List UInt8) : Phase :=
  if p.succeeds event then
    match p.next with
    | some q => .sending q
    | none => .exited 0
  else .exited p.exitCode

/-- A step of the host, and the bytes that it sends. The alarm is set only between the command of
`proc_reset` and the judgement of its event, and then `expired` sends the command once more. -/
def hostStep : Phase → HostLabel → Option (Phase × List UInt8)
  | .sending p, .go => some (.reading p .start, p.command)
  | .reading p r, .read bytes =>
    if bytes.length ≤ r.len then
      match r.next bytes with
      | .again r' => some (.reading p r', [])
      | .leave event => some (.judging p event, [])
    else none
  | .judging p event, .go => some (afterJudging p event, [])
  | .reading .reset r, .expired => some (.reading .reset r, hciReset)
  | .judging .reset event, .expired => some (.judging .reset event, hciReset)
  | _, _ => none

/-- A step of the host alone. -/
def hostNext (s : Phase) (a : HostLabel) : Option Phase := (hostStep s a).map Prod.fst

/-- The beginning of `main`. -/
def hostStart : Phase := .sending .reset

/-- **Everything a step of the host can do.** -/
inductive HostStep : Phase → HostLabel → Phase → List UInt8 → Prop
  | send (p : Proc) : HostStep (.sending p) .go (.reading p .start) p.command
  | read (p : Proc) (r r' : Reading) (bytes : List UInt8) (hlen : bytes.length ≤ r.len)
      (hnext : r.next bytes = .again r') :
      HostStep (.reading p r) (.read bytes) (.reading p r') []
  | receive (p : Proc) (r : Reading) (bytes event : List UInt8) (hlen : bytes.length ≤ r.len)
      (hnext : r.next bytes = .leave event) :
      HostStep (.reading p r) (.read bytes) (.judging p event) []
  | judge (p : Proc) (event : List UInt8) :
      HostStep (.judging p event) .go (afterJudging p event) []
  | expiredReading (r : Reading) :
      HostStep (.reading .reset r) .expired (.reading .reset r) hciReset
  | expiredJudging (event : List UInt8) :
      HostStep (.judging .reset event) .expired (.judging .reset event) hciReset

/-- **Everything a step of the host can do** is one of the cases of `HostStep`.

**Proof sketch.** By the phase, the label and the tests that the step makes, in the order in which
it makes them. -/
theorem hostStep_cases {s s' : Phase} {a : HostLabel} {out : List UInt8}
    (h : hostStep s a = some (s', out)) : HostStep s a s' out := by
  unfold hostStep at h
  split at h
  · obtain ⟨rfl, rfl⟩ := Prod.mk.inj (Option.some.inj h)
    exact .send _
  · split_ifs at h with hlen
    split at h
    · obtain ⟨rfl, rfl⟩ := Prod.mk.inj (Option.some.inj h)
      exact .read _ _ _ _ hlen ‹_›
    · obtain ⟨rfl, rfl⟩ := Prod.mk.inj (Option.some.inj h)
      exact .receive _ _ _ _ hlen ‹_›
  · obtain ⟨rfl, rfl⟩ := Prod.mk.inj (Option.some.inj h)
    exact .judge _ _
  · obtain ⟨rfl, rfl⟩ := Prod.mk.inj (Option.some.inj h)
    exact .expiredReading _
  · obtain ⟨rfl, rfl⟩ := Prod.mk.inj (Option.some.inj h)
    exact .expiredJudging _
  · simp at h

/-! ## What is read -/

/-- The bytes that a call of `read` delivers. -/
def HostLabel.bytes : HostLabel → List UInt8
  | .read bytes => bytes
  | _ => []

/-- The bytes that the calls of `read` have delivered. -/
def received (as : List HostLabel) : List UInt8 := as.flatMap HostLabel.bytes

/-- The last label adds the bytes that come with it. -/
private lemma received_snoc (as : List HostLabel) (a : HostLabel) :
    received (as ++ [a]) = received as ++ a.bytes := by
  rw [received, List.flatMap_append, List.flatMap_singleton]
  rfl

/-- An event that makes the procedure succeed. -/
structure Accepts (p : Proc) (e : List UInt8) : Prop where
  event : IsEvent e
  succeeds : p.succeeds e = true

/-- A stream of one event for each of these procedures, with which they succeed. -/
def Accepted (ps : List Proc) (stream : List UInt8) : Prop :=
  ∃ events, List.Forall₂ Accepts ps events ∧ stream = events.flatten

/-- One more event has been accepted, for one more procedure. -/
lemma Accepted.snoc {ps : List Proc} {stream e : List UInt8} {p : Proc}
    (h : Accepted ps stream) (he : Accepts p e) : Accepted (ps ++ [p]) (stream ++ e) := by
  obtain ⟨events, hevents, rfl⟩ := h
  refine ⟨events ++ [e], List.rel_append hevents (.cons he .nil), ?_⟩
  rw [List.flatten_append, List.flatten_cons, List.flatten_nil, List.append_nil]

/-- The procedures that `main` calls before this one. -/
def Proc.before : Proc → List Proc
  | reset => []
  | readBdAddr => [reset]
  | setEventFilter => [reset, readBdAddr]
  | writeScanEnable => [reset, readBdAddr, setEventFilter]
  | enableDeviceUnderTestMode => [reset, readBdAddr, setEventFilter, writeScanEnable]

/-- All of them. -/
def procs : List Proc := Proc.enableDeviceUnderTestMode.before ++ [.enableDeviceUnderTestMode]

/-- What the bytes that have been read are: one accepted event for each procedure that has
succeeded, and what is in the buffer. -/
def ReadSoFar (as : List HostLabel) : Phase → Prop
  | .sending p => Accepted p.before (received as)
  | .reading p r => r.Valid ∧ ∃ stream, Accepted p.before stream ∧ received as = stream ++ r.got
  | .judging p event =>
    IsEvent event ∧ ∃ stream, Accepted p.before stream ∧ received as = stream ++ event
  | .exited code => code = 0 → Accepted procs (received as)

/-- A procedure that succeeds has read an event that it accepts.

**Proof sketch.** By whether the procedure succeeds, and then by the procedure: the event is put
behind those that have been accepted; a failing procedure ends the test. -/
private lemma readSoFar_afterJudging {as : List HostLabel} {p : Proc} {event : List UInt8}
    (h : ReadSoFar as (.judging p event)) : ReadSoFar as (afterJudging p event) := by
  obtain ⟨hevent, stream, hstream, hreceived⟩ := h
  unfold afterJudging
  by_cases hs : p.succeeds event = true
  · have hsnoc := hstream.snoc (e := event) ⟨hevent, hs⟩
    rw [← hreceived] at hsnoc
    rw [if_pos hs]
    cases p with
    | reset => exact hsnoc
    | readBdAddr => exact hsnoc
    | setEventFilter => exact hsnoc
    | writeScanEnable => exact hsnoc
    | enableDeviceUnderTestMode => exact fun _ => hsnoc
  · rw [if_neg hs]
    cases p <;> exact fun h0 => absurd h0 (by decide)

/-- **One step of the host.**

**Proof sketch.** By the step of the host. Sending and judging read nothing; what is read belongs to
the event under way, by `next_cases`; an alarm leaves what has been read as it is. -/
theorem readSoFar_step {as : List HostLabel} {s s' : Phase} {a : HostLabel}
    (h : ReadSoFar as s) (hstep : hostNext s a = some s') : ReadSoFar (as ++ [a]) s' := by
  obtain ⟨⟨s'', out⟩, hs, rfl⟩ := Option.map_eq_some_iff.mp hstep
  have hgo : received (as ++ [.go]) = received as := by
    rw [received_snoc]
    exact List.append_nil _
  have hexpired : received (as ++ [.expired]) = received as := by
    rw [received_snoc]
    exact List.append_nil _
  have hread : ∀ bytes, received (as ++ [.read bytes]) = received as ++ bytes :=
    fun bytes => received_snoc as (.read bytes)
  cases hostStep_cases hs with
  | send p =>
    refine ⟨Reading.valid_start, received as, h, ?_⟩
    rw [hgo]
    exact (List.append_nil _).symm
  | read p r r' bytes hlen hnext =>
    obtain ⟨hvalid, stream, hstream, hreceived⟩ := h
    rcases hvalid.next_cases hlen with ⟨r'', hnext', hgot, hvalid'⟩ | ⟨hnext', -⟩
    · obtain rfl : r'' = r' := Pass.again.inj (hnext'.symm.trans hnext)
      exact ⟨hvalid', stream, hstream, by rw [hread, hreceived, hgot, List.append_assoc]⟩
    · simp [hnext'] at hnext
  | receive p r bytes event hlen hnext =>
    obtain ⟨hvalid, stream, hstream, hreceived⟩ := h
    rcases hvalid.next_cases hlen with ⟨r'', hnext', -⟩ | ⟨hnext', hevent⟩
    · simp [hnext'] at hnext
    · obtain rfl := Pass.leave.inj (hnext'.symm.trans hnext)
      exact ⟨hevent, stream, hstream, by rw [hread, hreceived, List.append_assoc]⟩
  | judge p event =>
    have hj : ReadSoFar (as ++ [.go]) (.judging p event) := by
      unfold ReadSoFar
      rw [hgo]
      exact h
    exact readSoFar_afterJudging hj
  | expiredReading r =>
    unfold ReadSoFar
    rw [hexpired]
    exact h
  | expiredJudging event =>
    unfold ReadSoFar
    rw [hexpired]
    exact h

/-! ## What success means -/

/-- The opcode of the command that the procedure sends, as its two bytes on the UART. -/
def Proc.opcode : Proc → UInt8 × UInt8
  | reset => (0x03, 0x0c)
  | readBdAddr => (0x09, 0x10)
  | setEventFilter => (0x05, 0x0c)
  | writeScanEnable => (0x1a, 0x0c)
  | enableDeviceUnderTestMode => (0x03, 0x18)

/-- A Command Complete event for the command of the procedure, with status `0` and any credits and
return parameters. -/
def CommandComplete (p : Proc) (e : List UInt8) : Prop :=
  ∃ credits ret, ret.length + 4 < 256 ∧
    e = [0x04, 0x0e, UInt8.ofNat (ret.length + 4), credits, p.opcode.1, p.opcode.2, 0x00] ++ ret

/-- A completed command is reported in an event. -/
lemma CommandComplete.isEvent {p : Proc} {e : List UInt8} (h : CommandComplete p e) :
    IsEvent e := by
  obtain ⟨credits, ret, hlen, rfl⟩ := h
  refine ⟨by simp, ?_⟩
  change ret.length + 7 = 3 + (UInt8.ofNat (ret.length + 4)).toNat
  rw [UInt8.toNat_ofNat_of_lt' hlen]
  omega

/-- The check of four of the procedures finds nothing but the expected event. -/
private lemma eq_of_checkEvent {expected event : List UInt8}
    (h : checkEvent expected event = true) :
    event = expected := by
  rw [checkEvent, Bool.and_eq_true, decide_eq_true_eq, decide_eq_true_eq] at h
  exact h.2

/-- The check of `proc_read_bd_addr` finds an event of 13 bytes with status `0` where a Command
Complete event has it. -/
theorem checkStatus_eq_true_iff (event : List UInt8) :
    checkStatus event = true ↔ event.length = 13 ∧ event.getD 6 0 = 0 := by
  rw [checkStatus, Bool.and_eq_true, decide_eq_true_eq, decide_eq_true_eq]

/-- **What success means**: when `main` exits with `0`, it has read five events. Four of them are
the Command Complete events for Reset, Set_Event_Filter, Write_Scan_Enable and
Enable_Device_Under_Test_Mode with status `0`; the second one is some event of 13 bytes whose byte
6 is `0`.

**Proof sketch.** Along every run, what has been read is one accepted event for each procedure that
has succeeded, followed by what is in the buffer (`readSoFar_step`). -/
theorem exit_zero_received (as : List HostLabel)
    (h : Transition.run hostNext hostStart as = some (.exited 0)) :
    ∃ e₁ e₂ e₃ e₄ e₅, received as = e₁ ++ e₂ ++ e₃ ++ e₄ ++ e₅ ∧
      CommandComplete .reset e₁ ∧
      (IsEvent e₂ ∧ e₂.length = 13 ∧ e₂.getD 6 0 = 0) ∧
      CommandComplete .setEventFilter e₃ ∧
      CommandComplete .writeScanEnable e₄ ∧
      CommandComplete .enableDeviceUnderTestMode e₅ := by
  have hstart : ReadSoFar [] hostStart := ⟨[], .nil, rfl⟩
  have hread : ReadSoFar ([] ++ as) (.exited 0) :=
    Transition.run_history (fun _ _ _ _ hI hs => readSoFar_step hI hs) hstart h
  obtain ⟨events, hevents, hreceived⟩ := hread rfl
  cases hevents with
  | cons h₁ hevents =>
  cases hevents with
  | cons h₂ hevents =>
  cases hevents with
  | cons h₃ hevents =>
  cases hevents with
  | cons h₄ hevents =>
  cases hevents with
  | cons h₅ hevents =>
  cases hevents
  refine ⟨_, _, _, _, _, ?_, ⟨0x01, [], by decide, eq_of_checkEvent h₁.succeeds⟩,
    ⟨h₂.event, (checkStatus_eq_true_iff _).mp h₂.succeeds⟩,
    ⟨0x01, [], by decide, eq_of_checkEvent h₃.succeeds⟩,
    ⟨0x01, [], by decide, eq_of_checkEvent h₄.succeeds⟩,
    ⟨0x01, [], by decide, eq_of_checkEvent h₅.succeeds⟩⟩
  rw [List.nil_append] at hreceived
  rw [hreceived]
  simp only [List.flatten_cons, List.flatten_nil, List.append_nil, List.append_assoc]

/-- The steps of a procedure that receives an event in two reads. -/
def receiveInTwo (e : List UInt8) : List HostLabel :=
  [.go, .read (e.take 3), .read (e.drop 3), .go]

/-- The Command Complete event for Read_BD_ADDR. -/
def bdAddrRecevied : List UInt8 :=
  [0x04, 0x0e, 0x0a, 0x01, 0x09, 0x10, 0x00, 0x11, 0x22, 0x33, 0x44, 0x55, 0x66]

/-- The steps of a test whose second event is this one, and whose other events are as expected. -/
def testWith (e : List UInt8) : List HostLabel :=
  receiveInTwo successHciResetRecevied ++ (receiveInTwo e ++
    (receiveInTwo successHciSetEventFilterRecevied ++
      (receiveInTwo successHciWriteScanEnableRecevied ++
        receiveInTwo successHciEnableDeviceUnderTestModeRecevied)))

/-- A test in which the second event reports an address. -/
theorem exit_zero_received_bdAddr :
    ∃ e₁ e₂ e₃ e₄ e₅, received (testWith bdAddrRecevied) = e₁ ++ e₂ ++ e₃ ++ e₄ ++ e₅ ∧
      CommandComplete .reset e₁ ∧
      (IsEvent e₂ ∧ e₂.length = 13 ∧ e₂.getD 6 0 = 0) ∧
      CommandComplete .setEventFilter e₃ ∧
      CommandComplete .writeScanEnable e₄ ∧
      CommandComplete .enableDeviceUnderTestMode e₅ :=
  exit_zero_received (testWith bdAddrRecevied) (by decide)

/-- An inquiry result of 13 bytes, which no command has asked for. -/
def inquiryResult : List UInt8 :=
  [0x04, 0x02, 0x0a, 0x01, 0x11, 0x22, 0x00, 0x33, 0x44, 0x55, 0x66, 0x77, 0x88]

/-- The test succeeds with the inquiry result in the place of the answer to Read_BD_ADDR.

**Proof sketch.** The run is computed. What has been received can be cut into events in one way
only (`append_inj`), so the second one would be the inquiry result, which is no answer to
Read_BD_ADDR. -/
theorem exit_zero_inquiryResult :
    Transition.run hostNext hostStart (testWith inquiryResult) = some (.exited 0) ∧
      ¬ ∃ e₁ e₂ e₃ e₄ e₅,
        received (testWith inquiryResult) = e₁ ++ e₂ ++ e₃ ++ e₄ ++ e₅ ∧
        CommandComplete .reset e₁ ∧ CommandComplete .readBdAddr e₂ ∧
        CommandComplete .setEventFilter e₃ ∧ CommandComplete .writeScanEnable e₄ ∧
        CommandComplete .enableDeviceUnderTestMode e₅ := by
  refine ⟨by decide, ?_⟩
  rintro ⟨e₁, e₂, e₃, e₄, e₅, hreceived, h₁, h₂, -⟩
  have hstream : received (testWith inquiryResult) = successHciResetRecevied ++ (inquiryResult ++
      (successHciSetEventFilterRecevied ++ (successHciWriteScanEnableRecevied ++
        successHciEnableDeviceUnderTestModeRecevied))) := by decide
  simp only [hstream, List.append_assoc] at hreceived
  obtain ⟨-, hrest⟩ := IsEvent.append_inj ⟨by decide, by decide⟩ h₁.isEvent hreceived
  obtain ⟨rfl, -⟩ := IsEvent.append_inj ⟨by decide, by decide⟩ h₂.isEvent hrest
  obtain ⟨credits, ret, -, heq⟩ := h₂
  simp [inquiryResult] at heq

end JzPretest.Bluetooth

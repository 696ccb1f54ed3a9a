import JzPretest.TestWifi.DhcpClient

set_option relaxedAutoImplicit false
set_option autoImplicit false

/-!
# What the DHCP client is for

A session knows neither packets nor checksums, numbers of messages or milliseconds: it counts how
often it has sent its message, and remembers what it has heard last. The client refines it.

## Main definitions

* `JzPretest.Dhcp.Session`, `JzPretest.Dhcp.Session.next` — a session, and what it makes of a
  signal.
* `JzPretest.Dhcp.signal` — the signal that an event of the client is.
* `JzPretest.Dhcp.Refines` — when a client is in the state of a session.

## Main results

* `JzPretest.Dhcp.step_refines` — a round of the client is a step of the session.
* `JzPretest.Dhcp.run_refines` — so its runs are runs of the session.
-/

namespace JzPretest.Dhcp

open Transition

/-- A message of the client: it looks for servers, or requests an address from one of them. -/
inductive Sent where
  | discover
  | request (ipaddr serveraddr : UInt32)
  deriving DecidableEq, Repr

/-- A session that goes on. -/
structure Session where
  phase : Phase
  /-- How often the message of this phase has been sent. -/
  tries : ℕ
  /-- What the last message that was heard says. -/
  info : DhcpInfo
  sent : List Sent
  deriving DecidableEq

/-- What a session hears: nothing for a while, something that is not for it, the end of the network,
something that it cannot stand, or a message. -/
inductive Signal where
  | silence
  | noise
  | abort
  | overrun
  | message (bytes : List UInt8)
  deriving DecidableEq, Repr

/-- A session that goes on, that has ended and has left its socket open or not, or that has been
destroyed. -/
inductive Stage where
  | waiting (s : Session)
  | ended (outcome : Outcome) (closed : Bool) (s : Session)
  | destroyed (s : Session)
  deriving DecidableEq

/-- The number that the messages of a phase have. -/
def Phase.number (xid : UInt32) : Phase → UInt32
  | .selecting => xid
  | .requesting => xid + 1

namespace Session

/-- The message of the phase is sent. -/
def send (s : Session) : Session :=
  match s.phase with
  | .selecting => { s with sent := s.sent ++ [.discover] }
  | .requesting => { s with sent := s.sent ++ [.request s.info.ipaddr s.info.serveraddr] }

/-- A valid reply. -/
def answer (s : Session) : Stage :=
  match s.phase with
  | .selecting =>
    if s.info.type = dhcpOffer.toUInt32 then
      .waiting (send { s with phase := .requesting, tries := 1 })
    else .waiting s
  | .requesting =>
    if s.info.type = dhcpAck.toUInt32 then .ended (.configure s.info) true s
    else if s.info.type = dhcpNak.toUInt32 then .ended .failed true s
    else .waiting s

/-- What a session makes of a signal, for a client with this address, and messages that begin with
this number. -/
def next (hwaddr : Vector UInt8 6) (xid : UInt32) (s : Session) : Signal → Stage
  | .silence =>
    if s.tries < 4 then .waiting (send { s with tries := s.tries + 1 })
    else if s.info.type = dhcpOffer.toUInt32 then .ended (.configure s.info) false s
    else .ended .failed true s
  | .noise => .waiting s
  | .abort => .ended .failed false s
  | .overrun => .destroyed s
  | .message bytes =>
    if ValidReply hwaddr (s.phase.number xid) bytes then answer { s with info := (infoOf bytes).2 }
    else .waiting { s with info := (infoOf bytes).2 }

/-- A session begins. -/
def start (info : DhcpInfo) : Session :=
  send ⟨.selecting, 1, { info with type := 0 }, []⟩

/-- Sending leaves the phase. -/
@[simp] theorem send_phase (s : Session) : s.send.phase = s.phase := by
  unfold send
  split <;> simp_all

/-- It leaves the number of tries. -/
@[simp] theorem send_tries (s : Session) : s.send.tries = s.tries := by
  unfold send
  split <;> rfl

/-- It leaves what has been heard. -/
@[simp] theorem send_info (s : Session) : s.send.info = s.info := by
  unfold send
  split <;> rfl

end Session

/-- A signal: a session that has ended hears none. -/
def Stage.step (hwaddr : Vector UInt8 6) (xid : UInt32) : Stage → Signal → Option Stage
  | .waiting s, a => some (s.next hwaddr xid a)
  | _, _ => none

/-- The signal that an event is. -/
def signal : Event → Signal
  | .timeout => .silence
  | .pollFailed .other => .abort
  | .pollFailed _ => .noise
  | .readFailed .other => .noise
  | .readFailed _ => .abort
  | .datagram stack bytes =>
    if Overruns stack bytes then .overrun
    else (payload stack bytes).elim .noise .message

/-! ## The client refines the session -/

/-- The packet of a message. -/
def Sent.packet (hwaddr : Vector UInt8 6) (xid : UInt32) : Sent → List UInt8
  | .discover => discoverPacket hwaddr xid
  | .request ipaddr serveraddr => requestPacket hwaddr (xid + 1) ipaddr serveraddr

/-- A client in the state of a session. -/
structure Refines (hwaddr : Vector UInt8 6) (xid : UInt32) (c : Client) (s : Session) : Prop where
  address : c.hwaddr = hwaddr
  state : c.state = s.phase
  number : c.xid = s.phase.number xid
  pos : 1 ≤ s.tries
  le : s.tries ≤ 4
  timeout : c.timeout = timeoutInitial * 2 ^ (s.tries - 1)
  info : c.info = s.info
  awaited : c.awaited.FromClient c.hwaddr c.xid
  sent : c.sent = s.sent.map (Sent.packet hwaddr xid)
  closed : c.closed = false

/-- A client at the stage of a session. -/
inductive StageOf (hwaddr : Vector UInt8 6) (xid : UInt32) : Status → Stage → Prop where
  | waiting {c : Client} {s : Session} (h : Refines hwaddr xid c s) :
      StageOf hwaddr xid (.polling c) (.waiting s)
  | ended {c : Client} {s : Session} (outcome : Outcome)
      (h : c.sent = s.sent.map (Sent.packet hwaddr xid)) :
      StageOf hwaddr xid (.returned outcome c) (.ended outcome c.closed s)
  | destroyed {c : Client} {s : Session} (fault : Fault)
      (h : c.sent = s.sent.map (Sent.packet hwaddr xid)) :
      StageOf hwaddr xid (.crashed fault c) (.destroyed s)

variable {hwaddr : Vector UInt8 6} {xid : UInt32} {c : Client} {s : Session}

/-- What is left of a session when its message has to be sent. -/
lemma resume_refines (hhwaddr : c.hwaddr = hwaddr) (hstate : c.state = s.phase)
    (hnumber : c.xid = s.phase.number xid) (hpos : 1 ≤ s.tries) (hle : s.tries ≤ 4)
    (htimeout : c.timeout = timeoutInitial * 2 ^ (s.tries - 1)) (hinfo : c.info = s.info)
    (hsent : c.sent = s.sent.map (Sent.packet hwaddr xid)) (hclosed : c.closed = false) :
    StageOf hwaddr xid c.resume (.waiting s.send) := by
  rw [c.resume_eq]
  refine .waiting ⟨by simpa using hhwaddr, by simpa using hstate, by simpa using hnumber,
    by simpa using hpos, by simpa using hle, by simpa using htimeout, by simpa using hinfo,
    by simpa using c.fromClient_transmitted, ?_, by simpa using hclosed⟩
  rw [c.transmitted_sent, hsent, Session.send, Client.packet, hstate]
  cases hphase : s.phase with
  | selecting => simp [Sent.packet, hhwaddr, hnumber, hphase, Phase.number]
  | requesting => simp [Sent.packet, hhwaddr, hnumber, hphase, Phase.number, hinfo]

/-- **A valid reply** to the client is one to the session.

**Proof sketch.** By the phase and the type: an offer sends a request with the next number and the
first time-out, an acknowledgement or a refusal ends both. -/
theorem answer_refines (h : Refines hwaddr xid c s) :
    StageOf hwaddr xid c.answer s.answer := by
  unfold Client.answer Session.answer
  rw [h.state, h.info]
  cases hphase : s.phase with
  | selecting =>
    dsimp only
    split_ifs
    · refine resume_refines h.address rfl ?_ (Nat.le_refl 1) (show 1 ≤ 4 by decide)
        (Nat.mul_one timeoutInitial).symm rfl h.sent h.closed
      have hnumber := h.number
      rw [hphase] at hnumber
      exact congrArg (· + 1) hnumber
    · exact .waiting h
  | requesting =>
    dsimp only
    split_ifs
    · exact .ended _ h.sent
    · exact .ended _ h.sent
    · exact .waiting h

/-- The longest time to wait comes with the fourth message. -/
lemma Refines.timeoutMax_le_iff (h : Refines hwaddr xid c s) :
    timeoutMax ≤ c.timeout ↔ ¬ s.tries < 4 := by
  have hpos := h.pos
  have hle := h.le
  have htimeout := h.timeout
  unfold timeoutInitial at htimeout
  unfold timeoutMax
  generalize s.tries = tries at *
  obtain rfl | rfl | rfl | rfl : tries = 1 ∨ tries = 2 ∨ tries = 3 ∨ tries = 4 := by omega
  all_goals omega

/-- What has been heard is kept. -/
lemma Refines.hear (h : Refines hwaddr xid c s) (reply : DhcpMsg) (info : DhcpInfo) :
    Refines hwaddr xid { c with reply, info } { s with info } :=
  ⟨h.address, h.state, h.number, h.pos, h.le, h.timeout, rfl, h.awaited, h.sent, h.closed⟩

/-- The end, with the socket left open. -/
lemma Refines.ended (h : Refines hwaddr xid c s) (outcome : Outcome) :
    StageOf hwaddr xid (.returned outcome c) (.ended outcome false s) := by
  rw [← h.closed]
  exact .ended outcome h.sent

/-- **A round of the client** is a step of the session.

**Proof sketch.** By the event. A time-out doubles the time as the number of tries goes up, until
both are at the limit; a datagram is heard as what it delivers. -/
theorem handle_refines (h : Refines hwaddr xid c s) (e : Event) :
    StageOf hwaddr xid (c.handle e) (s.next hwaddr xid (signal e)) := by
  cases e with
  | timeout =>
    simp only [Client.handle, signal, Session.next, h.timeoutMax_le_iff, ite_not, h.info]
    split_ifs with htries htype
    · refine resume_refines h.address h.state h.number (Nat.succ_pos _) htries ?_ rfl h.sent
        h.closed
      have hpow : 2 ^ s.tries = 2 ^ (s.tries - 1) * 2 := by
        rw [← Nat.pow_succ, Nat.succ_eq_add_one, Nat.sub_add_cancel h.pos]
      rw [h.timeout, Nat.add_sub_cancel, hpow, Nat.mul_assoc]
    · exact h.ended _
    · exact .ended .failed h.sent
  | pollFailed errno =>
    cases errno with
    | eagain => exact .waiting h
    | eintr => exact .waiting h
    | other => exact h.ended .failed
  | readFailed errno =>
    cases errno with
    | enetdown => exact h.ended .failed
    | enxio => exact h.ended .failed
    | other => exact .waiting h
  | datagram stack bytes =>
    rcases Client.handle_datagram h.awaited stack bytes with
      ⟨bs, reply, hpayload, hoverruns, hhandle⟩ | ⟨hpayload, hoverruns, hhandle⟩ |
      ⟨-, hoverruns, f, hhandle⟩
    · have hvalid : ValidReply c.hwaddr c.xid bs ↔ ValidReply hwaddr (s.phase.number xid) bs := by
        rw [h.address, h.number]
      rw [hhandle, signal, if_neg hoverruns, hpayload]
      simp only [hvalid, Option.elim_some, Session.next]
      split_ifs
      · exact answer_refines (h.hear reply _)
      · exact .waiting (h.hear reply _)
    · rw [hhandle, signal, if_neg hoverruns, hpayload]
      exact .waiting h
    · rw [hhandle, signal, if_pos hoverruns]
      exact .destroyed f h.sent

/-- **The client refines its session**: an event does to it what its signal does to the session. -/
theorem step_refines {status : Status} {stage : Stage} (h : StageOf hwaddr xid status stage)
    (e : Event) :
    Option.Rel (StageOf hwaddr xid) (step status e) (stage.step hwaddr xid (signal e)) := by
  cases h with
  | waiting h => exact .some (handle_refines h e)
  | ended outcome h => exact .none
  | destroyed fault h => exact .none

/-- The client begins as a session does. -/
theorem start_refines (hwaddr : Vector UInt8 6) (xid : UInt32) (info : DhcpInfo)
    (discoverMsg requestMsg reply : DhcpMsg) :
    StageOf hwaddr xid (Client.start hwaddr xid info discoverMsg requestMsg reply)
      (.waiting (Session.start info)) :=
  resume_refines rfl rfl rfl (Nat.le_refl 1) (show 1 ≤ 4 by decide)
    (Nat.mul_one timeoutInitial).symm rfl rfl rfl

/-- **Runs of the client** are runs of the session. -/
theorem run_refines (hwaddr : Vector UInt8 6) (xid : UInt32) (info : DhcpInfo)
    (discoverMsg requestMsg reply : DhcpMsg) (events : List Event) :
    Option.Rel (StageOf hwaddr xid)
      (run step (Client.start hwaddr xid info discoverMsg requestMsg reply) events)
      (run (Stage.step hwaddr xid) (.waiting (Session.start info)) (events.map signal)) :=
  run_rel (fun _ _ e h => step_refines h e) events
    (start_refines hwaddr xid info discoverMsg requestMsg reply)

end JzPretest.Dhcp

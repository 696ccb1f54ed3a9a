import JzPretest.TestWifi.DhcpOutcome

set_option relaxedAutoImplicit false
set_option autoImplicit false

/-!
# The DHCP client and a server

A server that answers to both messages of the client brings it to its end: however the answers are
laid out and whatever else happens in the meantime, the interface is configured with what the server
has acknowledged.

## Main definitions

* `JzPretest.Dhcp.Session.message` — what a session sends.

## Main results

* `JzPretest.Dhcp.client_handshake` — the run of both messages of the client, and both answers.
-/

namespace JzPretest.Dhcp

open Transition

variable {hwaddr : Vector UInt8 6} {xid : UInt32} {info₀ : DhcpInfo}

/-! ## Waiting for a server -/

/-- The message of the phase. -/
def Session.message (s : Session) : Sent :=
  match s.phase with
  | .selecting => .discover
  | .requesting => .request s.info.ipaddr s.info.serveraddr

/-- One more message has been sent. -/
lemma Session.send_sent (s : Session) : s.send.sent = s.sent ++ [s.message] := by
  unfold Session.send Session.message
  cases s.phase <;> rfl

/-- Nothing but silence and noise, and not too much of the former.

**Proof sketch.** Induction on the signals: noise changes nothing, and each silence sends the
message of the phase once more, as long as there have not been four. -/
private lemma run_quiet (hwaddr : Vector UInt8 6) (xid : UInt32) {s : Session}
    {signals : List Signal} (hquiet : ∀ a ∈ signals, a = .noise ∨ a = .silence)
    (hcount : s.tries + signals.count .silence ≤ 4) :
    ∃ s', run (Stage.step hwaddr xid) (.waiting s) signals = some (.waiting s') ∧
      s'.phase = s.phase ∧ s'.info = s.info ∧
      s'.sent = s.sent ++ List.replicate (signals.count .silence) s.message := by
  induction signals generalizing s with
  | nil => exact ⟨s, rfl, rfl, rfl, by simp⟩
  | cons a signals ih =>
    obtain ⟨ha, hsignals⟩ := List.forall_mem_cons.mp hquiet
    rcases ha with rfl | rfl
    · rw [List.count_cons_of_ne (by simp)] at hcount ⊢
      obtain ⟨s', hrun, hs'⟩ := ih hsignals hcount
      exact ⟨s', run_cons_eq_some.mpr ⟨_, rfl, hrun⟩, hs'⟩
    · rw [List.count_cons_self] at hcount ⊢
      obtain ⟨s', hrun, hphase, hinfo, hsent⟩ :=
        ih (s := Session.send { s with tries := s.tries + 1 }) hsignals
          (by rw [Session.send_tries]; dsimp only; omega)
      have hnext : s.next hwaddr xid .silence =
          .waiting (Session.send { s with tries := s.tries + 1 }) := if_pos (by omega)
      have hmessage : (Session.send { s with tries := s.tries + 1 }).message = s.message := by
        rw [Session.message, Session.send_phase, Session.send_info]
        rfl
      refine ⟨s', run_cons_eq_some.mpr ⟨_, congrArg some hnext, hrun⟩, ?_, ?_, ?_⟩
      · rw [hphase, Session.send_phase]
      · rw [hinfo, Session.send_info]
      · rw [hsent, Session.send_sent, hmessage, List.replicate_succ, List.append_assoc]
        rfl

/-- An offer, and what is heard until the acknowledgement comes.

**Proof sketch.** `run_quiet` from the beginning to the offer, and again to the acknowledgement. The
offer is valid for the first number and the acknowledgement for the second. -/
theorem session_handshake (info₀ : DhcpInfo) {pre mid : List Signal} {offer ack : List UInt8}
    (hpre : ∀ a ∈ pre, a = .noise ∨ a = .silence) (hpre3 : pre.count .silence ≤ 3)
    (hmid : ∀ a ∈ mid, a = .noise ∨ a = .silence) (hmid3 : mid.count .silence ≤ 3)
    (hoffer : ValidReply hwaddr xid offer) (hoffered : (infoOf offer).2.type = dhcpOffer.toUInt32)
    (hack : ValidReply hwaddr (xid + 1) ack) (hacked : (infoOf ack).2.type = dhcpAck.toUInt32) :
    ∃ s, run (Stage.step hwaddr xid) (.waiting (Session.start info₀))
        (pre ++ .message offer :: (mid ++ [.message ack])) =
          some (.ended (.configure (infoOf ack).2) true s) ∧
      s.sent = List.replicate (1 + pre.count .silence) .discover ++
        List.replicate (1 + mid.count .silence)
          (.request (infoOf offer).2.ipaddr (infoOf offer).2.serveraddr) := by
  have hstart : (Session.start info₀).tries + pre.count .silence ≤ 4 := by
    rw [Session.start, Session.send_tries]
    dsimp only
    omega
  obtain ⟨s₁, hrun₁, hphase₁, -, hsent₁⟩ := run_quiet hwaddr xid hpre hstart
  have hselecting : s₁.phase = .selecting := by rw [hphase₁, Session.start, Session.send_phase]
  let s₂ : Session := { s₁ with info := (infoOf offer).2, phase := .requesting, tries := 1 }
  have hnext₂ : s₁.next hwaddr xid (.message offer) = .waiting s₂.send := by
    have hvalid : ValidReply hwaddr (s₁.phase.number xid) offer := by rwa [hselecting]
    rw [Session.next, if_pos hvalid, Session.answer]
    simp only [hselecting]
    exact if_pos hoffered
  have htries₂ : s₂.send.tries + mid.count .silence ≤ 4 := by
    rw [Session.send_tries]
    change 1 + _ ≤ 4
    omega
  obtain ⟨s₃, hrun₃, hphase₃, -, hsent₃⟩ := run_quiet hwaddr xid hmid htries₂
  have hrequesting : s₃.phase = .requesting := by rw [hphase₃, Session.send_phase]
  have hnext₄ : s₃.next hwaddr xid (.message ack) =
      .ended (.configure (infoOf ack).2) true { s₃ with info := (infoOf ack).2 } := by
    have hvalid : ValidReply hwaddr (s₃.phase.number xid) ack := by
      rw [hrequesting]
      exact hack
    rw [Session.next, if_pos hvalid, Session.answer]
    simp only [hrequesting]
    exact if_pos hacked
  refine ⟨{ s₃ with info := (infoOf ack).2 }, ?_, ?_⟩
  · rw [run_append, hrun₁, Option.bind_some]
    refine run_cons_eq_some.mpr ⟨_, congrArg some hnext₂, ?_⟩
    rw [run_append, hrun₃, Option.bind_some]
    exact run_cons_eq_some.mpr ⟨_, congrArg some hnext₄, rfl⟩
  · have hmessage : s₂.send.message =
        .request (infoOf offer).2.ipaddr (infoOf offer).2.serveraddr := by
      rw [Session.message, Session.send_phase, Session.send_info]
    have hsent₂ : s₂.sent = List.replicate (1 + pre.count .silence) .discover := by
      change s₁.sent = _
      rw [hsent₁, Nat.add_comm, List.replicate_succ]
      rfl
    change s₃.sent = _
    rw [hsent₃, Session.send_sent, hsent₂, hmessage, List.append_assoc,
      Nat.add_comm 1 (mid.count _), List.replicate_succ]
    rfl

/-- Noise and time-outs are signals of their kinds. -/
private lemma signals_quiet {events : List Event}
    (h : ∀ e ∈ events, isNoise e = true ∨ e = .timeout) :
    ∀ a ∈ events.map signal, a = .noise ∨ a = .silence := by
  intro a ha
  obtain ⟨e, he, rfl⟩ := List.mem_map.mp ha
  rcases h e he with hnoise | rfl
  · exact .inl (by simpa [isNoise] using hnoise)
  · exact .inr rfl

/-- **A server that answers** to both messages of the client, each of them within 28 seconds of
silence: whatever else arrives that the client does not notice, and however the answers are laid
out, the interface is configured with what the server has acknowledged. The client has repeated each
of its messages after every time-out, and requested the address that it was offered.

**Proof sketch.** The signals of these events are those of `session_handshake`: a message that is
delivered is heard as it was sent. A session that has ended so is that of a client
(`exists_client`). -/
theorem client_handshake (info₀ : DhcpInfo) {offer ack : DhcpMsg} {offerSize ackSize : ℕ}
    {offerItems ackItems : List (Option Tlv.Item)}
    (hoffer : FromServer hwaddr xid offer offerSize offerItems)
    (hoffered : (said offer offerItems).type = dhcpOffer.toUInt32)
    (hack : FromServer hwaddr (xid + 1) ack ackSize ackItems)
    (hacked : (said ack ackItems).type = dhcpAck.toUInt32)
    {offerBytes ackBytes : List UInt8} (hofferBytes : Delivers offer offerSize offerBytes)
    (hackBytes : Delivers ack ackSize ackBytes) {pre mid : List Event}
    (hpre : ∀ e ∈ pre, isNoise e = true ∨ e = .timeout) (hpre3 : pre.countP isTimeout ≤ 3)
    (hmid : ∀ e ∈ mid, isNoise e = true ∨ e = .timeout) (hmid3 : mid.countP isTimeout ≤ 3)
    (discoverMsg requestMsg reply : DhcpMsg) (stack stack' : DhcpPacket) :
    ∃ c, run step (Client.start hwaddr xid info₀ discoverMsg requestMsg reply)
        (pre ++ .datagram stack offerBytes :: (mid ++ [.datagram stack' ackBytes])) =
          some (.returned (.configure (said ack ackItems)) c) ∧
      c.closed = true ∧
      c.sent = List.replicate (1 + pre.countP isTimeout) (discoverPacket hwaddr xid) ++
        List.replicate (1 + mid.countP isTimeout)
          (requestPacket hwaddr (xid + 1) offer.yiaddr (said offer offerItems).serveraddr) := by
  rw [← count_silence_eq] at hpre3 hmid3
  rw [← count_silence_eq, ← count_silence_eq]
  obtain ⟨s, hsession, hsent⟩ := session_handshake info₀ (signals_quiet hpre) hpre3
    (signals_quiet hmid) hmid3 hoffer.validReply (by rw [hoffer.infoOf, hoffered])
    hack.validReply (by rw [hack.infoOf, hacked])
  have hsignals : (pre ++ Event.datagram stack offerBytes ::
      (mid ++ [Event.datagram stack' ackBytes])).map signal = pre.map signal ++
        .message (slice offer.data.byte 0 offerSize) ::
          (mid.map signal ++ [.message (slice ack.data.byte 0 ackSize)]) := by
    rw [List.map_append, List.map_cons, List.map_append, List.map_singleton,
      signal_of_delivers hofferBytes hoffer.le, signal_of_delivers hackBytes hack.le]
  rw [← hsignals] at hsession
  obtain ⟨c, hclient, hclosed, hsent'⟩ := exists_client hsession discoverMsg requestMsg reply
  rw [hack.infoOf] at hclient
  refine ⟨c, hclient, hclosed, ?_⟩
  rw [hsent', hsent, hoffer.infoOf, List.map_append, List.map_replicate, List.map_replicate]
  rfl

/-- Nothing but the two answers.

**Proof sketch.** `client_handshake` with nothing before the two messages, which hold their type and
an address. -/
theorem client_handshake_at_once : ∃ offerBytes ackBytes c,
    run step (Client.start (Vector.replicate 6 0) 7 .zero .zero .zero .zero)
      ([] ++ .datagram ⟨⟨1288, fun _ => 0⟩, rfl⟩ offerBytes ::
        ([] ++ [.datagram ⟨⟨1288, fun _ => 0⟩, rfl⟩ ackBytes])) =
      some (.returned (.configure ⟨5, 9, 0, 0, 0, 0, 0, 0⟩) c) ∧ c.closed = true := by
  have hoffer := fromServer_typeItem (Vector.replicate 6 0) 7 9 dhcpOffer
  have hack := fromServer_typeItem (Vector.replicate 6 0) (7 + 1) 9 dhcpAck
  obtain ⟨offerBytes, hofferBytes⟩ := hoffer.exists_delivers
  obtain ⟨ackBytes, hackBytes⟩ := hack.exists_delivers
  have hsaid : said (serverMsg (Vector.replicate 6 0) (7 + 1) 9 [some (typeItem dhcpAck)]
      (by decide)) [some (typeItem dhcpAck)] = ⟨5, 9, 0, 0, 0, 0, 0, 0⟩ := by decide
  have hnil : ∀ e ∈ ([] : List Event), isNoise e = true ∨ e = .timeout := by simp
  obtain ⟨c, hrun, hclosed, -⟩ := client_handshake .zero hoffer (by decide) hack (by decide)
    hofferBytes hackBytes hnil (by simp) hnil (by simp)
    .zero .zero .zero ⟨⟨1288, fun _ => 0⟩, rfl⟩ ⟨⟨1288, fun _ => 0⟩, rfl⟩
  rw [hsaid] at hrun
  exact ⟨offerBytes, ackBytes, c, hrun, hclosed⟩

end JzPretest.Dhcp

import JzPretest.TestWifi.DhcpRuns
import JzPretest.TestWifi.DhcpServer

set_option relaxedAutoImplicit false
set_option autoImplicit false

/-!
# How the DHCP client ends

How long `dhcp_init_ifc` waits in all, what it configures the interface with in the end, and what it
leaves behind.

## Main definitions

* `JzPretest.Dhcp.waited` — how long a round waits in vain.

## Main results

* `JzPretest.Dhcp.client_patience` — how long the client waits.
* `JzPretest.Dhcp.client_configured` — what it configures the interface with.
* `JzPretest.Dhcp.client_offer_then_silence` — an offer from anywhere is enough for that.
* `JzPretest.Dhcp.client_noise` — what it does not notice.
* `JzPretest.Dhcp.client_leaves_open_iff` — when it leaves its socket open.
* `JzPretest.Dhcp.client_crashed_iff` — when it runs out of bounds.
-/

namespace JzPretest.Dhcp

open Transition

variable {hwaddr : Vector UInt8 6} {xid : UInt32} {info₀ : DhcpInfo}

/-! ## How long it waits -/

/-- How many milliseconds `poll` has waited in vain. -/
def waited : Status → Event → ℕ
  | .polling c, .timeout => c.timeout
  | _, _ => 0

/-- The time-out of `poll`. -/
def isTimeout : Event → Bool
  | .timeout => true
  | _ => false

/-- How long a session waits. -/
def Stage.waited : Stage → Signal → ℕ
  | .waiting s, .silence => timeoutInitial * 2 ^ (s.tries - 1)
  | _, _ => 0

/-- How long a session can wait from now on, after its message has been sent so often. -/
def Phase.patience : Phase → ℕ → ℕ
  | .selecting, tries => 92000 - timeoutInitial * 2 ^ (tries - 1)
  | .requesting, tries => 64000 - timeoutInitial * 2 ^ (tries - 1)

@[inherit_doc Phase.patience]
def Stage.patience : Stage → ℕ
  | .waiting s => s.phase.patience s.tries
  | _ => 0

/-- The number of messages stays between one and four. -/
def Stage.InRange (stage : Stage) : Prop :=
  ∀ s, stage = .waiting s → 1 ≤ s.tries ∧ s.tries ≤ 4

/-- Time-outs are what is heard as silence. -/
theorem count_silence_eq (events : List Event) :
    (events.map signal).count .silence = events.countP isTimeout := by
  rw [List.count, List.countP_map]
  congr 1
  funext e
  cases e with
  | timeout => rfl
  | pollFailed errno => cases errno <;> rfl
  | readFailed errno => cases errno <;> rfl
  | datagram stack bytes =>
    simp only [Function.comp_apply, signal, isTimeout]
    split_ifs
    · rfl
    · cases payload stack bytes <;> rfl

/-- **How a session goes on**: after a silence its message has been sent once more; otherwise that
has not changed, unless an offer makes it request an address.

**Proof sketch.** By the signal, and for a message by its validity, the phase and the type. -/
theorem Session.next_eq_waiting {s s' : Session} {a : Signal}
    (hnext : s.next hwaddr xid a = .waiting s') :
    (a = .silence ∧ s.tries < 4 ∧ s'.phase = s.phase ∧ s'.tries = s.tries + 1) ∨
    (a ≠ .silence ∧ s'.phase = s.phase ∧ s'.tries = s.tries) ∨
    (a ≠ .silence ∧ s.phase = .selecting ∧ s'.phase = .requesting ∧ s'.tries = 1) := by
  cases a with
  | silence =>
    rw [Session.next] at hnext
    split_ifs at hnext with htries
    obtain rfl := Stage.waiting.inj hnext
    exact .inl ⟨rfl, htries, Session.send_phase _, Session.send_tries _⟩
  | noise =>
    obtain rfl := Stage.waiting.inj hnext
    exact .inr (.inl ⟨by simp, rfl, rfl⟩)
  | abort => cases hnext
  | overrun => cases hnext
  | message bytes =>
    right
    rw [Session.next] at hnext
    split_ifs at hnext
    · unfold Session.answer at hnext
      dsimp only at hnext
      split at hnext
      · rename_i hphase
        split_ifs at hnext
        · obtain rfl := Stage.waiting.inj hnext
          exact .inr ⟨by simp, hphase, Session.send_phase _, Session.send_tries _⟩
        · obtain rfl := Stage.waiting.inj hnext
          exact .inl ⟨by simp, rfl, rfl⟩
      · split_ifs at hnext
        obtain rfl := Stage.waiting.inj hnext
        exact .inl ⟨by simp, rfl, rfl⟩
    · obtain rfl := Stage.waiting.inj hnext
      exact .inl ⟨by simp, rfl, rfl⟩

/-- Nothing but silence takes time. -/
lemma waited_of_ne_silence {stage : Stage} {a : Signal} (ha : a ≠ .silence) :
    stage.waited a = 0 := by
  unfold Stage.waited
  split
  · exact absurd rfl ha
  · rfl

/-- **Waiting** is paid for by what is left of the patience. -/
theorem Session.waited_add_patience_le {s s' : Session} (hs : 1 ≤ s.tries ∧ s.tries ≤ 4)
    {a : Signal} (hnext : s.next hwaddr xid a = .waiting s') :
    (Stage.waiting s).waited a + (Stage.waiting s').patience ≤ (Stage.waiting s).patience := by
  obtain ⟨hpos, hle⟩ := hs
  change _ + s'.phase.patience s'.tries ≤ s.phase.patience s.tries
  rcases Session.next_eq_waiting hnext with
    ⟨rfl, htries, hphase, htries'⟩ | ⟨ha, hphase, htries'⟩ | ⟨ha, hphase, hphase', htries'⟩
  · rw [hphase, htries', Stage.waited]
    obtain htries | htries | htries : s.tries = 1 ∨ s.tries = 2 ∨ s.tries = 3 := by omega
    all_goals rw [htries]; cases s.phase <;> decide
  · rw [waited_of_ne_silence ha, hphase, htries', Nat.zero_add]
  · rw [waited_of_ne_silence ha, hphase, hphase', htries']
    obtain htries | htries | htries | htries :
      s.tries = 1 ∨ s.tries = 2 ∨ s.tries = 3 ∨ s.tries = 4 := by omega
    all_goals rw [htries]; decide

/-- One time-out is not longer than the patience that is left. -/
lemma Session.waited_le {s : Session} (hs : 1 ≤ s.tries ∧ s.tries ≤ 4) (a : Signal) :
    (Stage.waiting s).waited a ≤ (Stage.waiting s).patience := by
  obtain ⟨hpos, hle⟩ := hs
  cases a with
  | silence =>
    rw [Stage.waited, Stage.patience]
    obtain htries | htries | htries | htries :
      s.tries = 1 ∨ s.tries = 2 ∨ s.tries = 3 ∨ s.tries = 4 := by omega
    all_goals rw [htries]; cases s.phase <;> decide
  | noise => exact Nat.zero_le _
  | abort => exact Nat.zero_le _
  | overrun => exact Nat.zero_le _
  | message bytes => exact Nat.zero_le _

/-- **A session** waits 88 seconds at most.

**Proof sketch.** A budget (`runCost_le`): what a phase may still wait pays for the time-out of each
step, and an offer leaves enough for the second phase. -/
theorem session_patience (signals : List Signal) :
    runCost (Stage.step hwaddr xid) Stage.waited (.waiting (Session.start info₀)) signals ≤
      88000 := by
  refine runCost_le (I := Stage.InRange) (μ := Stage.patience) ?_ ?_ ?_ ?_
  · intro stage a stage' hin hstep s' hs'
    cases stage with
    | waiting s =>
      obtain rfl := Option.some.inj hstep
      obtain ⟨hpos, hle⟩ := hin s rfl
      rcases Session.next_eq_waiting hs' with ⟨-, htries, -, h⟩ | ⟨-, -, h⟩ | ⟨-, -, -, h⟩
      all_goals omega
    | ended outcome closed s => cases hstep
    | destroyed s => cases hstep
  · intro stage a stage' hin hstep
    cases stage with
    | waiting s =>
      obtain rfl := Option.some.inj hstep
      cases hnext : s.next hwaddr xid a with
      | waiting s' => exact Session.waited_add_patience_le (hin s rfl) hnext
      | ended outcome closed s' => exact Session.waited_le (hin s rfl) a
      | destroyed s' => exact Session.waited_le (hin s rfl) a
    | ended outcome closed s => cases hstep
    | destroyed s => cases hstep
  · intro stage a hin hstep
    cases stage with
    | waiting s => cases hstep
    | ended outcome closed s => exact Nat.zero_le _
    | destroyed s => exact Nat.zero_le _
  · intro s hs
    obtain rfl := Stage.waiting.inj hs
    exact ⟨Nat.le_refl 1, show 1 ≤ 4 by decide⟩

/-- What a client waits for is what its session waits for.

**Proof sketch.** Only a time-out takes time, and it is heard as a silence; both wait for the same
number of milliseconds. -/
private lemma waited_eq {status : Status} {stage : Stage} (e : Event)
    (h : StageOf hwaddr xid status stage) : waited status e = stage.waited (signal e) := by
  have hsilence : e ≠ .timeout → signal e ≠ .silence := by
    intro he
    cases e with
    | timeout => exact absurd rfl he
    | pollFailed errno => cases errno <;> simp [signal]
    | readFailed errno => cases errno <;> simp [signal]
    | datagram stack bytes =>
      rw [signal]
      split_ifs
      · simp
      · cases payload stack bytes <;> simp
  cases h with
  | waiting h =>
    cases e with
    | timeout => exact h.timeout
    | pollFailed errno => rw [waited_of_ne_silence (hsilence (by simp))]; rfl
    | readFailed errno => rw [waited_of_ne_silence (hsilence (by simp))]; rfl
    | datagram stack bytes => rw [waited_of_ne_silence (hsilence (by simp))]; rfl
  | ended outcome h => rfl
  | destroyed fault h => rfl

/-- **How long the client waits**: its time-outs take 88 seconds at most, and there are no more than
seven of them; only what reaches it in between can make a run longer. -/
theorem client_patience (hwaddr : Vector UInt8 6) (xid : UInt32) (info₀ : DhcpInfo)
    (discoverMsg requestMsg reply : DhcpMsg) (events : List Event) :
    runCost step waited (Client.start hwaddr xid info₀ discoverMsg requestMsg reply) events ≤
        88000 ∧
      ∀ status, run step (Client.start hwaddr xid info₀ discoverMsg requestMsg reply) events =
        some status → events.countP isTimeout ≤ 7 := by
  constructor
  · rw [runCost_rel (fun _ _ e h => step_refines h e) (fun _ _ e h => waited_eq e h) events
      (start_refines hwaddr xid info₀ discoverMsg requestMsg reply)]
    exact session_patience _
  · intro status h
    obtain ⟨stage, -, hrun⟩ := exists_session h
    obtain ⟨-, -, -, -, hcount⟩ := session_traffic hrun
    rwa [count_silence_eq] at hcount

/-- A client that nobody answers. -/
theorem client_patience_silence :
    runCost step waited (Client.start (Vector.replicate 6 0) 7 .zero .zero .zero .zero)
        (List.replicate 4 .timeout) ≤ 88000 ∧
      (List.replicate 4 Event.timeout).countP isTimeout ≤ 7 := by
  have hsession : run (Stage.step (Vector.replicate 6 0) 7) (.waiting (Session.start .zero))
      ((List.replicate 4 .timeout).map signal) =
        some (.ended .failed true ⟨.selecting, 4, .zero, List.replicate 4 .discover⟩) := rfl
  obtain ⟨c, hrun, -⟩ := exists_client hsession .zero .zero .zero
  obtain ⟨hcost, hcount⟩ := client_patience (Vector.replicate 6 0) 7 .zero .zero .zero .zero
    (List.replicate 4 .timeout)
  exact ⟨hcost, hcount _ hrun⟩

/-! ## Silence -/

/-- Nobody answers any more: what the session knows is taken for granted.

**Proof sketch.** Induction on the number of times that the message may still be sent. After the
last time the session ends with what it knows, because it is called an offer. -/
lemma run_silence (hwaddr : Vector UInt8 6) (xid : UInt32) {s : Session} (hpos : 1 ≤ s.tries)
    (hle : s.tries ≤ 4) (htype : s.info.type = dhcpOffer.toUInt32) :
    ∃ s', run (Stage.step hwaddr xid) (.waiting s) (List.replicate (5 - s.tries) .silence) =
      some (.ended (.configure s.info) false s') := by
  obtain ⟨n, hn⟩ := Nat.exists_eq_add_of_le hle
  induction n generalizing s with
  | zero =>
    have htries : s.tries = 4 := by omega
    refine ⟨s, ?_⟩
    rw [htries]
    change (some (s.next hwaddr xid .silence)).bind _ = _
    rw [Session.next, htries, if_neg (by decide), if_pos htype]
    rfl
  | succ n ih =>
    have hsend : s.next hwaddr xid .silence =
        .waiting (Session.send { s with tries := s.tries + 1 }) :=
      if_pos (by omega)
    obtain ⟨s', hs'⟩ := ih (s := Session.send { s with tries := s.tries + 1 })
      (by rw [Session.send_tries]; exact Nat.succ_pos _)
      (by rw [Session.send_tries]; dsimp only; omega)
      (by rw [Session.send_info]; exact htype)
      (by rw [Session.send_tries]; dsimp only; omega)
    refine ⟨s', ?_⟩
    rw [Session.send_tries, Session.send_info] at hs'
    dsimp only at hs'
    rw [show 5 - s.tries = 5 - (s.tries + 1) + 1 by omega, List.replicate_succ]
    exact run_cons_eq_some.mpr ⟨_, congrArg some hsend, hs'⟩

/-- An offer is kept, whoever it comes from.

**Proof sketch.** What a message says is kept before it is checked. Only a valid offer in the first
phase changes the phase. -/
lemma Session.next_offer (hwaddr : Vector UInt8 6) (xid : UInt32) {s : Session}
    (hpos : 1 ≤ s.tries) (hle : s.tries ≤ 4) {bytes : List UInt8}
    (htype : (infoOf bytes).2.type = dhcpOffer.toUInt32) :
    ∃ s', s.next hwaddr xid (.message bytes) = .waiting s' ∧ s'.info = (infoOf bytes).2 ∧
      1 ≤ s'.tries ∧ s'.tries ≤ 4 := by
  have hack : dhcpOffer.toUInt32 ≠ dhcpAck.toUInt32 := by decide
  have hnak : dhcpOffer.toUInt32 ≠ dhcpNak.toUInt32 := by decide
  rw [Session.next]
  split_ifs with hvalid
  · cases hphase : s.phase with
    | selecting =>
      simp only [Session.answer, htype, if_true]
      refine ⟨_, rfl, Session.send_info _, ?_⟩
      rw [Session.send_tries]
      exact ⟨Nat.le_refl 1, show 1 ≤ 4 by decide⟩
    | requesting =>
      simp only [Session.answer, htype, if_neg hack, if_neg hnak]
      exact ⟨_, rfl, rfl, hpos, hle⟩
  · exact ⟨_, rfl, rfl, hpos, hle⟩

/-! ## How it ends -/

/-- **The end of the client** is that of its session, with the last event. -/
theorem client_ends {discoverMsg requestMsg reply : DhcpMsg} {events : List Event}
    {outcome : Outcome} {c : Client}
    (h : run step (Client.start hwaddr xid info₀ discoverMsg requestMsg reply) events =
      some (.returned outcome c)) :
    ∃ before e s, events = before ++ [e] ∧ Knows hwaddr xid info₀ (before.map signal) s ∧
      Ends hwaddr xid s (signal e) outcome c.closed := by
  obtain ⟨stage, hstage, hrun⟩ := exists_session h
  cases hstage with
  | ended outcome hsent =>
    rcases session_cases hrun with ⟨s, hs, -⟩ | ⟨before, a, s, hmap, hknows, hnext, -⟩
    · cases hs
    · obtain ⟨before', l, rfl, rfl, hlast⟩ := List.map_eq_append_iff.mp hmap
      obtain ⟨e, l', rfl, rfl, hnil⟩ := List.map_eq_cons_iff.mp hlast
      obtain rfl := List.map_eq_nil_iff.mp hnil
      exact ⟨before', e, s, rfl, hknows, (Session.next_eq_ended hnext.symm).2⟩

/-- Silence is a time-out. -/
lemma signal_eq_silence {e : Event} (h : signal e = .silence) : e = .timeout := by
  cases e with
  | timeout => rfl
  | pollFailed errno => cases errno <;> cases h
  | readFailed errno => cases errno <;> cases h
  | datagram stack bytes =>
    rw [signal] at h
    split_ifs at h
    cases hpayload : payload stack bytes <;> rw [hpayload] at h <;> cases h

/-- **What the interface is configured with**: what has been acknowledged to this client, after a
valid offer; or, when nobody has answered for the last 32 seconds, what the last message said that
the client heard, if it was called an offer.

**Proof sketch.** By the way in which the session ends: it ends with a configuration when it is
granted one, or when nobody answers and what it knows is called an offer. What it knows has been
heard last. -/
theorem client_configured {discoverMsg requestMsg reply : DhcpMsg} {events : List Event}
    {info : DhcpInfo} {c : Client}
    (h : run step (Client.start hwaddr xid info₀ discoverMsg requestMsg reply) events =
      some (.returned (.configure info) c)) :
    ∃ before e, events = before ++ [e] ∧
      ((c.closed = true ∧ (∃ stack bytes bs, e = .datagram stack bytes ∧
          payload stack bytes = some bs ∧ ValidReply hwaddr (xid + 1) bs ∧
          info = (infoOf bs).2 ∧ info.type = dhcpAck.toUInt32) ∧
        ∃ earlier stack bytes bs, earlier ++ [.datagram stack bytes] <+: before ∧
          payload stack bytes = some bs ∧ ValidReply hwaddr xid bs ∧
          (infoOf bs).2.type = dhcpOffer.toUInt32) ∨
      (c.closed = false ∧ e = .timeout ∧ info.type = dhcpOffer.toUInt32 ∧
        lastWrite heard before = some info)) := by
  obtain ⟨before, e, s, rfl, hknows, hends⟩ := client_ends h
  refine ⟨before, e, rfl, ?_⟩
  generalize he : signal e = a at hends
  generalize hclosed : c.closed = closed at *
  cases hends with
  | unacknowledged htype =>
    refine .inr ⟨rfl, signal_eq_silence he, htype, ?_⟩
    rw [lastWrite_heard]
    exact hknows.lastWrite_of_type htype
  | granted hphase hvalid htype =>
    obtain ⟨stack, bytes, rfl, hpayload⟩ := signal_eq_message he
    refine .inl ⟨rfl, ⟨stack, bytes, _, rfl, hpayload, hvalid, rfl, htype⟩, ?_⟩
    obtain ⟨discovers, l, hsends, -, hrequesting⟩ := hknows.sends
    obtain ⟨hlen, -⟩ := hrequesting hphase
    have hpos := hknows.pos
    cases l with
    | nil =>
      simp only [List.length_nil] at hlen
      omega
    | cons i l =>
      obtain ⟨past, bs, hpast, hoffer, rfl, htype⟩ := hsends.offer i rfl
      obtain ⟨earlier, stack, bytes, hearlier, hpayload⟩ := exists_datagram hpast
      exact ⟨earlier, stack, bytes, bs, hearlier, hpayload, hoffer, htype⟩

/-- An offer that is not for this client, and nothing after it.

**Proof sketch.** The offer is kept although it is for another client (`Session.next_offer`), and
then nothing is heard (`run_silence`). -/
theorem client_configured_unacknowledged : ∃ bytes n info c,
    run step (Client.start (Vector.replicate 6 0) 7 .zero .zero .zero .zero)
        (.datagram ⟨⟨1288, fun _ => 0⟩, rfl⟩ bytes :: List.replicate n .timeout) =
      some (.returned (.configure info) c) ∧
    c.closed = false ∧ info.type = dhcpOffer.toUInt32 := by
  have hoffer := fromServer_typeItem (Vector.replicate 6 1) 8 9 dhcpOffer
  obtain ⟨bytes, hbytes⟩ := hoffer.exists_delivers
  have hsignal := signal_of_delivers hbytes hoffer.le ⟨⟨1288, fun _ => 0⟩, rfl⟩
  obtain ⟨s, hnext, hinfo, hpos, hle⟩ := Session.next_offer (Vector.replicate 6 0) 7
    (s := Session.start .zero) (Nat.le_refl 1) (show 1 ≤ 4 by decide)
    (show (infoOf (slice _ _ 244)).2.type = _ from (congrArg _ hoffer.infoOf).trans rfl)
  obtain ⟨s', hsilence⟩ := run_silence (Vector.replicate 6 0) 7 hpos hle
    (by rw [hinfo, hoffer.infoOf]; rfl)
  have hsession : run (Stage.step (Vector.replicate 6 0) 7) (.waiting (Session.start .zero))
      ((Event.datagram ⟨⟨1288, fun _ => 0⟩, rfl⟩ bytes ::
        List.replicate (5 - s.tries) .timeout).map signal) =
          some (.ended (.configure s.info) false s') := by
    rw [List.map_cons, List.map_replicate, hsignal]
    exact run_cons_eq_some.mpr ⟨_, congrArg some hnext, hsilence⟩
  obtain ⟨c, hrun, hopen, -⟩ := exists_client hsession .zero .zero .zero
  obtain ⟨before, e, -, ⟨hclosed, -⟩ | ⟨hclosed, -, htype, -⟩⟩ := client_configured hrun
  · cases hopen.symm.trans hclosed
  · exact ⟨bytes, _, _, c, hrun, hclosed, htype⟩

/-- **The socket** is left open exactly when the network has failed, or the interface is configured
without an acknowledgement.

**Proof sketch.** By the way in which the session ends (`client_ends`): the socket is closed with a
time-out that fails, with an acknowledgement and with a refusal. -/
theorem client_leaves_open_iff {discoverMsg requestMsg reply : DhcpMsg} {events : List Event}
    {outcome : Outcome} {c : Client}
    (h : run step (Client.start hwaddr xid info₀ discoverMsg requestMsg reply) events =
      some (.returned outcome c)) :
    c.closed = false ↔ ∃ before e, events = before ++ [e] ∧
      (signal e = .abort ∨ e = .timeout ∧ outcome ≠ .failed) := by
  obtain ⟨before, e, s, rfl, hknows, hends⟩ := client_ends h
  have hlast : (∃ before' e', before ++ [e] = before' ++ [e'] ∧
      (signal e' = .abort ∨ e' = .timeout ∧ outcome ≠ .failed)) ↔
      signal e = .abort ∨ e = .timeout ∧ outcome ≠ .failed := by
    constructor
    · rintro ⟨before', e', heq, hcond⟩
      obtain ⟨-, he⟩ := List.append_inj' heq rfl
      obtain rfl := List.singleton_inj.mp he
      exact hcond
    · exact fun hcond => ⟨before, e, rfl, hcond⟩
  rw [hlast]
  generalize he : signal e = a at *
  generalize hclosed : c.closed = closed at *
  cases hends with
  | aborted => simp
  | unanswered htype => simp
  | unacknowledged htype => simp [signal_eq_silence he]
  | granted hphase hvalid htype =>
    obtain ⟨stack, bytes, rfl, -⟩ := signal_eq_message he
    simp
  | denied hphase hvalid htype => simp

/-- The network fails at once. -/
theorem client_leaves_open_failed : ∃ c,
    run step (Client.start (Vector.replicate 6 0) 7 .zero .zero .zero .zero) [.pollFailed .other] =
      some (.returned .failed c) ∧ c.closed = false := by
  have hsession : run (Stage.step (Vector.replicate 6 0) 7) (.waiting (Session.start .zero))
      ([.pollFailed .other].map signal) =
        some (.ended .failed false ⟨.selecting, 1, .zero, [.discover]⟩) := rfl
  obtain ⟨c, hrun, -⟩ := exists_client hsession .zero .zero .zero
  exact ⟨c, hrun, (client_leaves_open_iff hrun).mpr ⟨[], _, rfl, .inl rfl⟩⟩

/-! ## An offer, and nothing after it -/

/-- **An offer from anywhere**: at any time, any message that is called an offer makes the client
configure the interface with what it says, valid or not, if nothing follows it.

**Proof sketch.** The session of the client hears the message (`Session.next_offer`), and ends after
the time-outs that are left (`run_silence`); a session that has ended so is that of a client. -/
theorem client_offer_then_silence {discoverMsg requestMsg reply : DhcpMsg} {events : List Event}
    {c : Client}
    (h : run step (Client.start hwaddr xid info₀ discoverMsg requestMsg reply) events =
      some (.polling c))
    {stack : DhcpPacket} {bytes bs : List UInt8} (hpayload : payload stack bytes = some bs)
    (htype : (infoOf bs).2.type = dhcpOffer.toUInt32) :
    ∃ n c', n ≤ 4 ∧ run step (Client.start hwaddr xid info₀ discoverMsg requestMsg reply)
      (events ++ .datagram stack bytes :: List.replicate n .timeout) =
        some (.returned (.configure (infoOf bs).2) c') := by
  obtain ⟨stage, hstage, hrun⟩ := exists_session h
  cases hstage with
  | waiting hrefines =>
    rename_i s
    obtain ⟨s', hnext, hinfo, hpos, hle⟩ := Session.next_offer hwaddr xid
      hrefines.pos hrefines.le htype
    obtain ⟨s'', hover⟩ := run_silence hwaddr xid hpos hle
      (by rw [hinfo]; exact htype)
    have hsignal : signal (.datagram stack bytes) = .message bs := by
      have hoverruns : ¬ Overruns stack bytes := by
        intro hoverruns
        rw [payload, if_neg fun hcond => hoverruns.2 hcond.2] at hpayload
        cases hpayload
      rw [signal, if_neg hoverruns, hpayload]
      rfl
    have hsession : run (Stage.step hwaddr xid) (.waiting (Session.start info₀))
        ((events ++ Event.datagram stack bytes ::
          List.replicate (5 - s'.tries) .timeout).map signal) =
          some (.ended (.configure (infoOf bs).2) false s'') := by
      rw [List.map_append, run_append, hrun, Option.bind_some, List.map_cons, List.map_replicate,
        hsignal, ← hinfo]
      exact run_cons_eq_some.mpr ⟨_, congrArg some hnext, hover⟩
    obtain ⟨c', hclient, -⟩ := exists_client hsession discoverMsg requestMsg reply
    exact ⟨5 - s'.tries, c', by omega, hclient⟩

/-- An offer for another client.

**Proof sketch.** `client_offer_then_silence` at the beginning of a run, for the offer of a server
to another client. -/
theorem client_offer_then_silence_foreign : ∃ bytes n c, n ≤ 4 ∧
    run step (Client.start (Vector.replicate 6 0) 7 .zero .zero .zero .zero)
        ([] ++ .datagram ⟨⟨1288, fun _ => 0⟩, rfl⟩ bytes :: List.replicate n .timeout) =
      some (.returned (.configure ⟨dhcpOffer.toUInt32, 9, 0, 0, 0, 0, 0, 0⟩) c) := by
  have hoffer := fromServer_typeItem (Vector.replicate 6 1) 8 9 dhcpOffer
  obtain ⟨bytes, hbytes⟩ := hoffer.exists_delivers
  have hstart : run step (Client.start (Vector.replicate 6 0) 7 .zero .zero .zero .zero) [] =
      some (.polling _) := congrArg some (Client.resume_eq _)
  obtain ⟨n, c, hn, hrun⟩ := client_offer_then_silence hstart
    (hbytes.payload hoffer.le ⟨⟨1288, fun _ => 0⟩, rfl⟩)
    ((congrArg DhcpInfo.type hoffer.infoOf).trans rfl)
  have hsaid : said (serverMsg (Vector.replicate 6 1) 8 9 [some (typeItem dhcpOffer)]
      (by decide)) [some (typeItem dhcpOffer)] = ⟨dhcpOffer.toUInt32, 9, 0, 0, 0, 0, 0, 0⟩ := by
    decide
  rw [hoffer.infoOf, hsaid] at hrun
  exact ⟨bytes, n, c, hn, hrun⟩

/-! ## What is not noticed -/

/-- An event that does not concern the client. -/
def isNoise (e : Event) : Bool := signal e == .noise

/-- Nothing happens to a client that does not notice an event.

**Proof sketch.** By the event: the errors that the loop goes on with, and the datagrams that are
refused. -/
private lemma handle_eq_of_noise {c : Client} (hc : c.awaited.FromClient c.hwaddr c.xid) {e : Event}
    (he : isNoise e = true) : c.handle e = .polling c := by
  have hnoise : signal e = .noise := by simpa [isNoise] using he
  cases e with
  | timeout => cases hnoise
  | pollFailed errno =>
    cases errno with
    | eagain => rfl
    | eintr => rfl
    | other => cases hnoise
  | readFailed errno =>
    cases errno with
    | enetdown => cases hnoise
    | enxio => cases hnoise
    | other => rfl
  | datagram stack bytes =>
    rcases Client.handle_datagram hc stack bytes with
      ⟨bs, reply, hpayload, hoverruns, -⟩ | ⟨-, -, hhandle⟩ | ⟨-, hoverruns, -⟩
    · rw [signal, if_neg hoverruns, hpayload] at hnoise
      cases hnoise
    · exact hhandle
    · rw [signal, if_pos hoverruns] at hnoise
      cases hnoise

/-- **What the client does not notice** can be left out: interrupted calls, reads that fail for
other reasons, and the datagrams that `receive_packet` refuses.

**Proof sketch.** Stuttering (`run_filter`): such events leave the client as it is, in every state
that refines one of a session. -/
theorem client_noise {discoverMsg requestMsg reply : DhcpMsg} {events : List Event}
    {status : Status}
    (h : run step (Client.start hwaddr xid info₀ discoverMsg requestMsg reply) events =
      some status) :
    run step (Client.start hwaddr xid info₀ discoverMsg requestMsg reply)
      (events.filter fun e => !isNoise e) = some status := by
  refine run_filter (I := fun status => ∃ stage, StageOf hwaddr xid status stage) ?_ ?_
    ⟨_, start_refines hwaddr xid info₀ discoverMsg requestMsg reply⟩ h
  · rintro status e status' ⟨stage, hstage⟩ hstep
    have hrel := step_refines hstage e
    rw [hstep] at hrel
    generalize Stage.step hwaddr xid stage (signal e) = o at hrel
    cases hrel with
    | some h => exact ⟨_, h⟩
  · rintro status e status' ⟨stage, hstage⟩ he hstep
    cases hstage with
    | waiting hrefines =>
      obtain rfl := Option.some.inj hstep
      exact handle_eq_of_noise hrefines.awaited he
    | ended outcome hsent => cases hstep
    | destroyed fault hsent => cases hstep

/-- Two interruptions, before `poll` fails. -/
theorem client_noise_interrupted : ∃ status,
    run step (Client.start (Vector.replicate 6 0) 7 .zero .zero .zero .zero)
      [.pollFailed .eintr, .readFailed .other, .pollFailed .other] = some status ∧
    run step (Client.start (Vector.replicate 6 0) 7 .zero .zero .zero .zero)
      [.pollFailed .other] = some status := by
  have hsession : run (Stage.step (Vector.replicate 6 0) 7) (.waiting (Session.start .zero))
      ([.pollFailed .eintr, .readFailed .other, .pollFailed .other].map signal) =
        some (.ended .failed false ⟨.selecting, 1, .zero, [.discover]⟩) := rfl
  obtain ⟨c, hrun, -⟩ := exists_client hsession .zero .zero .zero
  have hfilter : [Event.pollFailed .eintr, .readFailed .other, .pollFailed .other].filter
      (fun e => !isNoise e) = [.pollFailed .other] := rfl
  have hquiet := client_noise hrun
  rw [hfilter] at hquiet
  exact ⟨_, hrun, hquiet⟩

/-! ## Running out of bounds -/

/-- What makes the client run out of bounds is a datagram. -/
private lemma signal_eq_overrun {e : Event} (h : signal e = .overrun) :
    ∃ stack bytes, e = .datagram stack bytes ∧ Overruns stack bytes := by
  cases e with
  | timeout => cases h
  | pollFailed errno => cases errno <;> cases h
  | readFailed errno => cases errno <;> cases h
  | datagram stack bytes =>
    rw [signal] at h
    split_ifs at h with hoverruns
    · exact ⟨stack, bytes, rfl, hoverruns⟩
    · cases hpayload : payload stack bytes <;> rw [hpayload] at h <;> cases h

/-- **The client runs out of bounds**, apart from its log, exactly with a datagram that makes
`receive_packet` do so, while it waits for one.

**Proof sketch.** A client that runs out of bounds is a session that has been destroyed, which only
an overrun does. Conversely a client that waits handles the datagram by running out of bounds. -/
theorem client_crashed_iff (hwaddr : Vector UInt8 6) (xid : UInt32) (info₀ : DhcpInfo)
    (discoverMsg requestMsg reply : DhcpMsg) (events : List Event) :
    (∃ fault c, run step (Client.start hwaddr xid info₀ discoverMsg requestMsg reply) events =
      some (.crashed fault c)) ↔
    ∃ before stack bytes c, events = before ++ [.datagram stack bytes] ∧ Overruns stack bytes ∧
      run step (Client.start hwaddr xid info₀ discoverMsg requestMsg reply) before =
        some (.polling c) := by
  constructor
  · rintro ⟨fault, c, h⟩
    obtain ⟨stage, hstage, hrun⟩ := exists_session h
    rcases List.eq_nil_or_concat events with rfl | ⟨before, e, rfl⟩
    · obtain rfl := Option.some.inj hrun
      cases hstage
    rw [List.concat_eq_append] at h ⊢
    obtain ⟨status, hbefore, hstep⟩ := run_concat_eq_some.mp h
    obtain ⟨stage', hstage', -⟩ := exists_session hbefore
    cases hstage' with
    | waiting hrefines =>
      rename_i c' s
      have hcrashed : c'.handle e = .crashed fault c := Option.some.inj hstep
      have hnext := handle_refines hrefines e
      rw [hcrashed] at hnext
      generalize hover : s.next hwaddr xid (signal e) = stage'' at hnext
      cases hnext with
      | destroyed fault hsent =>
        obtain ⟨-, hsignal⟩ := Session.next_eq_destroyed hover
        obtain ⟨stack, bytes, rfl, hoverruns⟩ := signal_eq_overrun hsignal
        exact ⟨before, stack, bytes, c', rfl, hoverruns, hbefore⟩
    | ended outcome hsent => cases hstep
    | destroyed fault hsent => cases hstep
  · rintro ⟨before, stack, bytes, c, rfl, hoverruns, hbefore⟩
    obtain ⟨stage, hstage, -⟩ := exists_session hbefore
    cases hstage with
    | waiting hrefines =>
      rcases Client.handle_datagram hrefines.awaited stack bytes with
        ⟨-, -, -, hnot, -⟩ | ⟨-, hnot, -⟩ | ⟨-, -, fault, hhandle⟩
      · exact absurd hoverruns hnot
      · exact absurd hoverruns hnot
      · exact ⟨fault, c, run_concat_eq_some.mpr ⟨_, hbefore, congrArg some hhandle⟩⟩

end JzPretest.Dhcp

import JzPretest.TestWifi.DhcpSession

set_option relaxedAutoImplicit false
set_option autoImplicit false

/-!
# Runs of the DHCP client

What holds of every run of `dhcp_init_ifc`, whatever the network delivers, and in which order.

## Main definitions

* `JzPretest.Dhcp.Status.client` — the variables of the client at the end of a run.
* `JzPretest.Dhcp.heard` — what an event lets the client know.
* `JzPretest.Dhcp.Knows` — what a session has heard so far.

## Main results

* `JzPretest.Dhcp.client_traffic` — what the client sends.
* `JzPretest.Dhcp.client_patience` — how long it waits.
* `JzPretest.Dhcp.client_configured` — what it configures the interface with.
* `JzPretest.Dhcp.client_offer_then_silence` — an offer from anywhere is enough for that.
* `JzPretest.Dhcp.client_noise` — what it does not notice.
* `JzPretest.Dhcp.client_leaves_open_iff` — when it leaves its socket open.
* `JzPretest.Dhcp.client_crashed_iff` — when it runs out of bounds.
-/

namespace JzPretest.Dhcp

open Transition

/-- The client, wherever it is. -/
def Status.client : Status → Client
  | .polling c => c
  | .returned _ c => c
  | .crashed _ c => c

/-- What a signal lets a session know. -/
def Signal.info : Signal → Option DhcpInfo
  | .message bytes => some (infoOf bytes).2
  | _ => none

/-- What an event lets the client know. -/
def heard (e : Event) : Option DhcpInfo := (signal e).info

variable {hwaddr : Vector UInt8 6} {xid : UInt32} {info₀ : DhcpInfo}

/-! ## What a session knows -/

/-- The requests of a session. -/
def requests (l : List DhcpInfo) : List Sent := l.map fun i => .request i.ipaddr i.serveraddr

/-- What a session has sent: it has looked for servers at most four times, and then requested
addresses. Each of these is what it had heard last at some time, and the first one is a valid
offer. -/
structure Sends (hwaddr : Vector UInt8 6) (xid : UInt32) (past : List Signal) (discovers : ℕ)
    (l : List DhcpInfo) (s : Session) : Prop where
  sent : s.sent = List.replicate discovers .discover ++ requests l
  pos : 1 ≤ discovers
  le : discovers ≤ 4
  heard : ∀ i ∈ l, ∃ before, before <+: past ∧ lastWrite Signal.info before = some i
  offer : ∀ i, l.head? = some i → ∃ before bytes, before ++ [.message bytes] <+: past ∧
    ValidReply hwaddr xid bytes ∧ i = (infoOf bytes).2 ∧ i.type = dhcpOffer.toUInt32

/-- What holds of a session after a sequence of signals. -/
structure Knows (hwaddr : Vector UInt8 6) (xid : UInt32) (info₀ : DhcpInfo) (past : List Signal)
    (s : Session) : Prop where
  pos : 1 ≤ s.tries
  le : s.tries ≤ 4
  info : s.info = (lastWrite Signal.info past).getD { info₀ with type := 0 }
  sends : ∃ discovers l, Sends hwaddr xid past discovers l s ∧
    (s.phase = .selecting → l = [] ∧ discovers = s.tries ∧ past.count .silence + 1 = s.tries) ∧
    (s.phase = .requesting → l.length = s.tries ∧ past.count .silence ≤ 2 + s.tries)

/-- A signal without a message leaves what has been heard last. -/
lemma lastWrite_info_concat (past : List Signal) {a : Signal} (ha : a.info = none) :
    lastWrite Signal.info (past ++ [a]) = lastWrite Signal.info past := by
  rw [lastWrite_concat, ha, Option.none_or]

/-- A signal that is no silence is not counted. -/
lemma count_silence_concat (past : List Signal) {a : Signal} (ha : a ≠ .silence) :
    (past ++ [a]).count .silence = past.count .silence := by
  rw [List.count_append, List.count_singleton, if_neg (by simpa using ha), Nat.add_zero]

/-- Nothing has been heard at the beginning. -/
private lemma knows_start (hwaddr : Vector UInt8 6) (xid : UInt32) (info₀ : DhcpInfo) :
    Knows hwaddr xid info₀ [] (Session.start info₀) where
  pos := Nat.le_refl 1
  le := show 1 ≤ 4 by decide
  info := rfl
  sends := by
    refine ⟨1, [], ⟨rfl, Nat.le_refl 1, by decide, by simp, by simp⟩, fun _ => ⟨rfl, rfl, rfl⟩, ?_⟩
    intro h
    cases h

/-- More has happened. -/
lemma Sends.mono {past : List Signal} {discovers : ℕ} {l : List DhcpInfo} {s s' : Session}
    (h : Sends hwaddr xid past discovers l s) (hsent : s'.sent = s.sent) (a : Signal) :
    Sends hwaddr xid (past ++ [a]) discovers l s' where
  sent := by rw [hsent, h.sent]
  pos := h.pos
  le := h.le
  heard i hi := by
    obtain ⟨before, hbefore, hlast⟩ := h.heard i hi
    exact ⟨before, hbefore.trans (List.prefix_append _ _), hlast⟩
  offer i hi := by
    obtain ⟨before, bytes, hbefore, hvalid⟩ := h.offer i hi
    exact ⟨before, bytes, hbefore.trans (List.prefix_append _ _), hvalid⟩

/-- What a session knows, if it has heard anything. -/
lemma Knows.lastWrite_of_ne_none {past : List Signal} {s : Session}
    (h : Knows hwaddr xid info₀ past s) (hheard : lastWrite Signal.info past ≠ none) :
    lastWrite Signal.info past = some s.info := by
  obtain ⟨i, hlast⟩ := Option.ne_none_iff_exists'.mp hheard
  rw [h.info, hlast, Option.getD_some]

/-- A session that requests an address knows an offer. -/
lemma Knows.lastWrite_eq {past : List Signal} {s : Session}
    (h : Knows hwaddr xid info₀ past s) (hphase : s.phase = .requesting) :
    lastWrite Signal.info past = some s.info := by
  obtain ⟨discovers, l, hsends, -, hrequesting⟩ := h.sends
  obtain ⟨hlen, -⟩ := hrequesting hphase
  have hpos := h.pos
  cases l with
  | nil =>
    simp only [List.length_nil] at hlen
    omega
  | cons i l =>
    obtain ⟨before, bytes, hbefore, -⟩ := hsends.offer i rfl
    refine h.lastWrite_of_ne_none fun hnone => ?_
    have hmem : Signal.message bytes ∈ past := hbefore.subset (by simp)
    cases lastWrite_eq_none_iff.mp hnone _ hmem

/-- A session that knows an offer has heard it. -/
theorem Knows.lastWrite_of_type {past : List Signal} {s : Session}
    (h : Knows hwaddr xid info₀ past s) (htype : s.info.type = dhcpOffer.toUInt32) :
    lastWrite Signal.info past = some s.info := by
  refine h.lastWrite_of_ne_none fun hnone => ?_
  have hinfo := h.info
  rw [hnone, Option.getD_none] at hinfo
  rw [hinfo] at htype
  exact absurd htype (show (0 : UInt32) ≠ dhcpOffer.toUInt32 by decide)

/-- Nothing is sent, and nothing is heard. -/
lemma Knows.noise {past : List Signal} {s : Session} (h : Knows hwaddr xid info₀ past s) :
    Knows hwaddr xid info₀ (past ++ [.noise]) s where
  pos := h.pos
  le := h.le
  info := by rw [lastWrite_info_concat past rfl, ← h.info]
  sends := by
    obtain ⟨discovers, l, hsends, hselecting, hrequesting⟩ := h.sends
    rw [count_silence_concat past (by simp)]
    exact ⟨discovers, l, hsends.mono rfl _, hselecting, hrequesting⟩

/-- A message is heard that nothing follows from. -/
lemma Knows.message {past : List Signal} {s : Session} (h : Knows hwaddr xid info₀ past s)
    (bytes : List UInt8) :
    Knows hwaddr xid info₀ (past ++ [.message bytes]) { s with info := (infoOf bytes).2 } where
  pos := h.pos
  le := h.le
  info := by
    rw [lastWrite_concat]
    rfl
  sends := by
    obtain ⟨discovers, l, hsends, hselecting, hrequesting⟩ := h.sends
    rw [count_silence_concat past (by simp)]
    exact ⟨discovers, l, hsends.mono (by rfl) _, hselecting, hrequesting⟩

/-- Nothing is heard for a while, and the message is sent again.

**Proof sketch.** In the first phase one more search has been sent; in the second one more request,
about what has been heard last. -/
lemma Knows.silence {past : List Signal} {s : Session} (h : Knows hwaddr xid info₀ past s)
    (htries : s.tries < 4) :
    Knows hwaddr xid info₀ (past ++ [.silence]) (Session.send { s with tries := s.tries + 1 }) where
  pos := by
    rw [Session.send_tries]
    exact Nat.succ_pos _
  le := by
    rw [Session.send_tries]
    exact htries
  info := by rw [Session.send_info, lastWrite_info_concat past rfl, ← h.info]
  sends := by
    obtain ⟨discovers, l, hsends, hselecting, hrequesting⟩ := h.sends
    have hcount : (past ++ [Signal.silence]).count .silence = past.count .silence + 1 := by
      rw [List.count_append, List.count_singleton_self]
    rw [hcount]
    cases hphase : s.phase with
    | selecting =>
      obtain ⟨rfl, hdiscovers, hsilence⟩ := hselecting hphase
      have hsent := hsends.sent
      refine ⟨discovers + 1, [], ⟨?_, Nat.succ_pos _, by omega, by simp, by simp⟩, ?_, ?_⟩
      · simp only [Session.send, hsent, requests, List.map_nil, List.append_nil]
        exact List.replicate_succ'.symm
      · intro _
        rw [Session.send_tries]
        exact ⟨rfl, by rw [hdiscovers], by rw [hsilence]⟩
      · rw [Session.send_phase]
        intro h
        cases h
    | requesting =>
      obtain ⟨hlen, hsilence⟩ := hrequesting hphase
      have hlast := h.lastWrite_eq hphase
      have hmono : Sends hwaddr xid (past ++ [.silence]) discovers l s := hsends.mono rfl _
      refine ⟨discovers, l ++ [s.info], ⟨?_, hsends.pos, hsends.le, ?_, ?_⟩, ?_, ?_⟩
      · simp only [Session.send, hsends.sent, requests, List.map_append, List.map_cons,
          List.map_nil, List.append_assoc]
      · intro i hi
        rcases List.mem_append.mp hi with hi | hi
        · exact hmono.heard i hi
        · obtain rfl := List.mem_singleton.mp hi
          exact ⟨past, List.prefix_append _ _, hlast⟩
      · intro i hi
        rw [List.head?_append_of_ne_nil _ (List.ne_nil_of_length_pos (by rw [hlen]; exact h.pos))]
          at hi
        exact hmono.offer i hi
      · rw [Session.send_phase]
        intro h
        cases h
      · intro _
        rw [Session.send_tries, List.length_append, List.length_singleton, hlen]
        dsimp only
        omega

/-- A valid offer is heard, and the address requested.

**Proof sketch.** The first request is about the offer, which has just been heard and is valid. -/
lemma Knows.offer {past : List Signal} {s : Session} (h : Knows hwaddr xid info₀ past s)
    (hphase : s.phase = .selecting) {bytes : List UInt8} (hvalid : ValidReply hwaddr xid bytes)
    (htype : (infoOf bytes).2.type = dhcpOffer.toUInt32) :
    Knows hwaddr xid info₀ (past ++ [.message bytes]) (Session.send
      { s with info := (infoOf bytes).2, phase := .requesting, tries := 1 }) where
  pos := by rw [Session.send_tries]
  le := by
    rw [Session.send_tries]
    show 1 ≤ 4
    decide
  info := by
    rw [Session.send_info, lastWrite_concat]
    rfl
  sends := by
    obtain ⟨discovers, l, hsends, hselecting, -⟩ := h.sends
    obtain ⟨rfl, hdiscovers, hsilence⟩ := hselecting hphase
    rw [count_silence_concat past (by simp)]
    refine ⟨discovers, [(infoOf bytes).2], ⟨?_, hsends.pos, hsends.le, ?_, ?_⟩, ?_, ?_⟩
    · simp only [Session.send, hsends.sent, requests, List.map_nil, List.append_nil]
      rfl
    · intro i hi
      obtain rfl := List.mem_singleton.mp hi
      refine ⟨_, List.prefix_refl _, ?_⟩
      rw [lastWrite_concat]
      rfl
    · intro i hi
      obtain rfl := Option.some.inj hi
      exact ⟨past, bytes, List.prefix_refl _, hvalid, rfl, htype⟩
    · rw [Session.send_phase]
      intro h
      cases h
    · intro _
      have hle := h.le
      rw [Session.send_tries]
      dsimp only [List.length_singleton]
      omega

/-! ## What a signal can do -/

/-- **A session that goes on** knows what it has known, and what the signal says.

**Proof sketch.** By the signal, and for a message by its validity, the phase and the type: each way
of going on has its own lemma. -/
theorem Knows.next {past : List Signal} {s s' : Session} (h : Knows hwaddr xid info₀ past s)
    {a : Signal} (hnext : s.next hwaddr xid a = .waiting s') :
    Knows hwaddr xid info₀ (past ++ [a]) s' := by
  cases a with
  | silence =>
    rw [Session.next] at hnext
    split_ifs at hnext with htries
    obtain rfl := Stage.waiting.inj hnext
    exact h.silence htries
  | noise =>
    obtain rfl := Stage.waiting.inj hnext
    exact h.noise
  | abort => cases hnext
  | overrun => cases hnext
  | message bytes =>
    rw [Session.next] at hnext
    split_ifs at hnext with hvalid
    · cases hphase : s.phase with
      | selecting =>
        rw [hphase] at hvalid
        simp only [Session.answer, hphase] at hnext
        split_ifs at hnext with htype
        · obtain rfl := Stage.waiting.inj hnext
          exact h.offer hphase hvalid htype
        · obtain rfl := Stage.waiting.inj hnext
          have hmessage := h.message bytes
          rwa [hphase] at hmessage
      | requesting =>
        simp only [Session.answer, hphase] at hnext
        split_ifs at hnext
        obtain rfl := Stage.waiting.inj hnext
        have hmessage := h.message bytes
        rwa [hphase] at hmessage
    · obtain rfl := Stage.waiting.inj hnext
      exact h.message bytes

/-- How a session ends: the network does, there has been no answer to the fourth message, or the
address has been granted or denied. -/
inductive Ends (hwaddr : Vector UInt8 6) (xid : UInt32) (s : Session) :
    Signal → Outcome → Bool → Prop where
  | aborted : Ends hwaddr xid s .abort .failed false
  | unanswered (htype : s.info.type ≠ dhcpOffer.toUInt32) : Ends hwaddr xid s .silence .failed true
  | unacknowledged (htype : s.info.type = dhcpOffer.toUInt32) :
      Ends hwaddr xid s .silence (.configure s.info) false
  | granted {bytes : List UInt8} (hphase : s.phase = .requesting)
      (hvalid : ValidReply hwaddr (xid + 1) bytes)
      (htype : (infoOf bytes).2.type = dhcpAck.toUInt32) :
      Ends hwaddr xid s (.message bytes) (.configure (infoOf bytes).2) true
  | denied {bytes : List UInt8} (hphase : s.phase = .requesting)
      (hvalid : ValidReply hwaddr (xid + 1) bytes)
      (htype : (infoOf bytes).2.type = dhcpNak.toUInt32) :
      Ends hwaddr xid s (.message bytes) .failed true

/-- **The end of a session**: nothing more is sent, and there are these ways.

**Proof sketch.** By the signal, and for a message by its validity, the phase and the type. -/
theorem Session.next_eq_ended {s s' : Session} {a : Signal} {outcome : Outcome} {closed : Bool}
    (hnext : s.next hwaddr xid a = .ended outcome closed s') :
    s'.sent = s.sent ∧ Ends hwaddr xid s a outcome closed := by
  cases a with
  | silence =>
    rw [Session.next] at hnext
    split_ifs at hnext with htries htype
    · cases hnext
      exact ⟨rfl, .unacknowledged htype⟩
    · cases hnext
      exact ⟨rfl, .unanswered htype⟩
  | noise => cases hnext
  | abort =>
    cases hnext
    exact ⟨rfl, .aborted⟩
  | overrun => cases hnext
  | message bytes =>
    rw [Session.next] at hnext
    split_ifs at hnext with hvalid
    cases hphase : s.phase with
    | selecting =>
      simp only [Session.answer, hphase] at hnext
      split_ifs at hnext
    | requesting =>
      rw [hphase] at hvalid
      simp only [Session.answer, hphase] at hnext
      split_ifs at hnext with hack hnak
      · cases hnext
        exact ⟨rfl, .granted hphase hvalid hack⟩
      · cases hnext
        exact ⟨rfl, .denied hphase hvalid hnak⟩

/-- Only an overrun destroys a session.

**Proof sketch.** By the signal. A message, silence and noise lead to a stage that waits or has
ended. -/
theorem Session.next_eq_destroyed {s s' : Session} {a : Signal}
    (hnext : s.next hwaddr xid a = .destroyed s') : s' = s ∧ a = .overrun := by
  cases a with
  | silence =>
    rw [Session.next] at hnext
    split_ifs at hnext
  | noise => cases hnext
  | abort => cases hnext
  | overrun =>
    cases hnext
    exact ⟨rfl, rfl⟩
  | message bytes =>
    rw [Session.next] at hnext
    split_ifs at hnext
    unfold Session.answer at hnext
    split at hnext <;> split_ifs at hnext

/-- **Every run of a session**: it goes on and knows what it has heard, or it has ended with the
last signal.

**Proof sketch.** A history of the run (`run_history`): while the session waits, it knows what it
has heard. If it does not wait any more, the last signal has ended it. -/
theorem session_cases {signals : List Signal} {stage : Stage}
    (h : run (Stage.step hwaddr xid) (.waiting (Session.start info₀)) signals = some stage) :
    (∃ s, stage = .waiting s ∧ Knows hwaddr xid info₀ signals s) ∨
    ∃ before a s, signals = before ++ [a] ∧ Knows hwaddr xid info₀ before s ∧
      stage = s.next hwaddr xid a ∧ ∀ s', stage ≠ .waiting s' := by
  have hknows : ∀ {signals : List Signal} {stage : Stage},
      run (Stage.step hwaddr xid) (.waiting (Session.start info₀)) signals = some stage →
      ∀ s, stage = .waiting s → Knows hwaddr xid info₀ signals s := by
    intro signals stage hrun
    have hstart : ∀ s, Stage.waiting (Session.start info₀) = .waiting s →
        Knows hwaddr xid info₀ [] s := by
      intro s hs
      obtain rfl := Stage.waiting.inj hs
      exact knows_start hwaddr xid info₀
    refine run_history (I := fun past stage => ∀ s, stage = .waiting s →
      Knows hwaddr xid info₀ past s) ?_ hstart hrun
    intro past stage a stage' hpast hstep s' hs'
    cases stage with
    | waiting s =>
      obtain rfl := Option.some.inj hstep
      exact (hpast s rfl).next hs'
    | ended outcome closed s => cases hstep
    | destroyed s => cases hstep
  by_cases hwaiting : ∃ s, stage = .waiting s
  · obtain ⟨s, hs⟩ := hwaiting
    exact .inl ⟨s, hs, hknows h s hs⟩
  · right
    rcases List.eq_nil_or_concat signals with rfl | ⟨before, a, rfl⟩
    · exact absurd ⟨_, (Option.some.inj h).symm⟩ hwaiting
    · rw [List.concat_eq_append] at h ⊢
      obtain ⟨stage', hbefore, hstep⟩ := run_concat_eq_some.mp h
      cases stage' with
      | waiting s =>
        exact ⟨before, a, s, rfl, hknows hbefore s rfl, (Option.some.inj hstep).symm,
          fun s' hs' => hwaiting ⟨s', hs'⟩⟩
      | ended outcome closed s => cases hstep
      | destroyed s => cases hstep

/-! ## What is sent -/

/-- The session, wherever it is. -/
def Stage.session : Stage → Session
  | .waiting s => s
  | .ended _ _ s => s
  | .destroyed s => s

/-- There are at most four requests and six time-outs. -/
lemma Knows.length_le {past : List Signal} {s : Session} {l : List DhcpInfo} {discovers : ℕ}
    (h : Knows hwaddr xid info₀ past s)
    (hselecting : s.phase = .selecting →
      l = [] ∧ discovers = s.tries ∧ past.count .silence + 1 = s.tries)
    (hrequesting : s.phase = .requesting →
      l.length = s.tries ∧ past.count .silence ≤ 2 + s.tries) :
    l.length ≤ 4 ∧ past.count .silence ≤ 6 := by
  have hle := h.le
  cases hphase : s.phase with
  | selecting =>
    obtain ⟨rfl, -, hcount⟩ := hselecting hphase
    exact ⟨by simp, by omega⟩
  | requesting =>
    obtain ⟨hlen, hcount⟩ := hrequesting hphase
    exact ⟨by omega, by omega⟩

/-- **What a session sends**, at any time, and how often it has waited in vain.

**Proof sketch.** By `session_cases`: while the session waits, what it knows limits what it has
sent; ending sends nothing more, and is one more silence at most. -/
theorem session_traffic {signals : List Signal} {stage : Stage}
    (h : run (Stage.step hwaddr xid) (.waiting (Session.start info₀)) signals = some stage) :
    ∃ discovers l, Sends hwaddr xid signals discovers l stage.session ∧ l.length ≤ 4 ∧
      signals.count .silence ≤ 7 := by
  rcases session_cases h with ⟨s, rfl, hknows⟩ | ⟨before, a, s, rfl, hknows, rfl, hend⟩
  · obtain ⟨discovers, l, hsends, hselecting, hrequesting⟩ := hknows.sends
    obtain ⟨hlen, hcount⟩ := hknows.length_le hselecting hrequesting
    exact ⟨discovers, l, hsends, hlen, by omega⟩
  · obtain ⟨discovers, l, hsends, hselecting, hrequesting⟩ := hknows.sends
    obtain ⟨hlen, hcount⟩ := hknows.length_le hselecting hrequesting
    have hsent : (s.next hwaddr xid a).session.sent = s.sent := by
      cases hnext : s.next hwaddr xid a with
      | waiting s' => exact absurd hnext (hend s')
      | ended outcome closed s' => exact (Session.next_eq_ended hnext).1
      | destroyed s' => exact congrArg Session.sent (Session.next_eq_destroyed hnext).1
    refine ⟨discovers, l, hsends.mono hsent a, hlen, ?_⟩
    have hone : [a].count .silence ≤ 1 := List.count_le_length
    rw [List.count_append]
    omega

/-- The client has sent the packets of the messages of its session. -/
lemma StageOf.sent {status : Status} {stage : Stage} (h : StageOf hwaddr xid status stage) :
    status.client.sent = stage.session.sent.map (Sent.packet hwaddr xid) := by
  cases h with
  | waiting h => exact h.sent
  | ended outcome h => exact h
  | destroyed fault h => exact h

/-- A run of the client, as one of the session. -/
theorem exists_session {discoverMsg requestMsg reply : DhcpMsg} {events : List Event}
    {status : Status}
    (h : run step (Client.start hwaddr xid info₀ discoverMsg requestMsg reply) events =
      some status) :
    ∃ stage, StageOf hwaddr xid status stage ∧
      run (Stage.step hwaddr xid) (.waiting (Session.start info₀)) (events.map signal) =
        some stage := by
  have hrel := run_refines hwaddr xid info₀ discoverMsg requestMsg reply events
  rw [h] at hrel
  generalize run _ _ (events.map signal) = o at *
  cases hrel with
  | some hstage => exact ⟨_, hstage, rfl⟩

/-- A session that has ended is one of a client that has returned.

**Proof sketch.** By the refinement of runs: of the clients only one that has returned is related to
a session that has ended. -/
theorem exists_client {events : List Event} {outcome : Outcome} {closed : Bool} {s : Session}
    (h : run (Stage.step hwaddr xid) (.waiting (Session.start info₀)) (events.map signal) =
      some (.ended outcome closed s))
    (discoverMsg requestMsg reply : DhcpMsg) :
    ∃ c, run step (Client.start hwaddr xid info₀ discoverMsg requestMsg reply) events =
        some (.returned outcome c) ∧
      c.closed = closed ∧ c.sent = s.sent.map (Sent.packet hwaddr xid) := by
  have hrel := run_refines hwaddr xid info₀ discoverMsg requestMsg reply events
  rw [h] at hrel
  generalize run step _ events = o at *
  cases hrel with
  | some hstage =>
    generalize hover : Stage.ended outcome closed s = stage at hstage
    cases hstage with
    | waiting h => cases hover
    | ended outcome h =>
      obtain ⟨rfl, rfl, rfl⟩ := Stage.ended.inj hover
      exact ⟨_, rfl, rfl, h⟩
    | destroyed fault h => cases hover

/-- What the client has heard last is what the session has. -/
theorem lastWrite_heard (events : List Event) :
    lastWrite heard events = lastWrite Signal.info (events.map signal) :=
  lastWrite_comp signal Signal.info events

/-- A message comes in a datagram.

**Proof sketch.** By the event: only a datagram with a payload is heard as a message. -/
theorem signal_eq_message {e : Event} {bs : List UInt8} (h : signal e = .message bs) :
    ∃ stack bytes, e = .datagram stack bytes ∧ payload stack bytes = some bs := by
  cases e with
  | timeout => cases h
  | pollFailed errno => cases errno <;> cases h
  | readFailed errno => cases errno <;> cases h
  | datagram stack bytes =>
    refine ⟨stack, bytes, rfl, ?_⟩
    rw [signal] at h
    split_ifs at h
    cases hpayload : payload stack bytes with
    | none =>
      rw [hpayload] at h
      cases h
    | some bs' =>
      rw [hpayload] at h
      obtain rfl := Signal.message.inj h
      rfl

/-- A message that has been heard came in a datagram. -/
theorem exists_datagram {before : List Signal} {bs : List UInt8} {events : List Event}
    (h : before ++ [.message bs] <+: events.map signal) :
    ∃ earlier stack bytes, earlier ++ [.datagram stack bytes] <+: events ∧
      payload stack bytes = some bs := by
  obtain ⟨before', hbefore', hmap⟩ := List.prefix_map_iff.mp h
  obtain ⟨l₁, l₂, rfl, rfl, hlast⟩ := List.map_eq_append_iff.mp hmap.symm
  obtain ⟨e, l₃, rfl, he, hnil⟩ := List.map_eq_cons_iff.mp hlast
  obtain rfl := List.map_eq_nil_iff.mp hnil
  obtain ⟨stack, bytes, rfl, hpayload⟩ := signal_eq_message he
  exact ⟨l₁, stack, bytes, hbefore', hpayload⟩

/-- What has been heard last came in a datagram.

**Proof sketch.** Only a message says something, and it has come in a datagram
(`exists_datagram`). -/
theorem exists_datagram_of_lastWrite {events : List Event} {info : DhcpInfo}
    (h : lastWrite Signal.info (events.map signal) = some info) :
    ∃ earlier stack bytes bs, earlier ++ [.datagram stack bytes] <+: events ∧
      payload stack bytes = some bs ∧ info = (infoOf bs).2 := by
  obtain ⟨past, a, later, hpast, ha, -⟩ := lastWrite_eq_some_iff.mp h
  cases a with
  | message bs =>
    have hprefix : past ++ [.message bs] <+: events.map signal := by
      rw [hpast]
      exact ⟨later, by simp⟩
    obtain ⟨earlier, stack, bytes, hearlier, hpayload⟩ := exists_datagram hprefix
    exact ⟨earlier, stack, bytes, bs, hearlier, hpayload, (Option.some.inj ha).symm⟩
  | silence => cases ha
  | noise => cases ha
  | abort => cases ha
  | overrun => cases ha

/-- **What the client sends**, in every run: it looks for servers at most four times, with one
packet, and then requests addresses at most four times, with the next number. Each request is about
what it has heard last at some time, and the first one about a valid offer.

**Proof sketch.** The packets are those of what the session has sent (`session_traffic`), and what
the session has heard has come in the datagrams. -/
theorem client_traffic {discoverMsg requestMsg reply : DhcpMsg} {events : List Event}
    {status : Status}
    (h : run step (Client.start hwaddr xid info₀ discoverMsg requestMsg reply) events =
      some status) :
    ∃ (discovers : ℕ) (l : List DhcpInfo), 1 ≤ discovers ∧ discovers ≤ 4 ∧ l.length ≤ 4 ∧
      status.client.sent = List.replicate discovers (discoverPacket hwaddr xid) ++
        l.map (fun i => requestPacket hwaddr (xid + 1) i.ipaddr i.serveraddr) ∧
      (∀ i ∈ l, ∃ before, before <+: events ∧ lastWrite heard before = some i) ∧
      ∀ i, l.head? = some i → ∃ before stack bytes bs,
        before ++ [.datagram stack bytes] <+: events ∧ payload stack bytes = some bs ∧
          ValidReply hwaddr xid bs ∧ i = (infoOf bs).2 ∧ i.type = dhcpOffer.toUInt32 := by
  obtain ⟨stage, hstage, hrun⟩ := exists_session h
  obtain ⟨discovers, l, hsends, hlen, -⟩ := session_traffic hrun
  refine ⟨discovers, l, hsends.pos, hsends.le, hlen, ?_, ?_, ?_⟩
  · rw [hstage.sent, hsends.sent, List.map_append, List.map_replicate, requests, List.map_map]
    simp only [Function.comp_def, Sent.packet]
  · intro i hi
    obtain ⟨before, hbefore, hlast⟩ := hsends.heard i hi
    obtain ⟨before', hbefore', rfl⟩ := List.prefix_map_iff.mp hbefore
    exact ⟨before', hbefore', by rw [lastWrite_heard, hlast]⟩
  · intro i hi
    obtain ⟨before, bs, hbefore, hvalid⟩ := hsends.offer i hi
    obtain ⟨earlier, stack, bytes, hearlier, hpayload⟩ := exists_datagram hbefore
    exact ⟨earlier, stack, bytes, bs, hearlier, hpayload, hvalid⟩

/-- A client that waits in vain once, before `poll` fails. -/
theorem client_traffic_failed : ∃ (c : Client) (discovers : ℕ) (l : List DhcpInfo),
    run step (Client.start (Vector.replicate 6 0) 7 .zero .zero .zero .zero)
      [.timeout, .pollFailed .other] = some (.returned .failed c) ∧
    1 ≤ discovers ∧ discovers ≤ 4 ∧ c.sent =
      List.replicate discovers (discoverPacket (Vector.replicate 6 0) 7) ++
        l.map (fun i => requestPacket (Vector.replicate 6 0) (7 + 1) i.ipaddr i.serveraddr) := by
  have hsession : run (Stage.step (Vector.replicate 6 0) 7) (.waiting (Session.start .zero))
      ([.timeout, .pollFailed .other].map signal) =
        some (.ended .failed false ⟨.selecting, 2, .zero, [.discover, .discover]⟩) := rfl
  obtain ⟨c, hrun, -⟩ := exists_client hsession .zero .zero .zero
  obtain ⟨discovers, l, hpos, hle, -, hsent, -⟩ := client_traffic hrun
  exact ⟨c, discovers, l, hrun, hpos, hle, hsent⟩

end JzPretest.Dhcp

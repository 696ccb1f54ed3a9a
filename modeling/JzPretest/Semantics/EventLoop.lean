import Mathlib.Data.List.Basic

set_option relaxedAutoImplicit false
set_option autoImplicit false

/-!
# Read loops over an event queue

A *read loop* takes events from a queue one by one and hands each to a handler. The handler
updates the state and may end the call with a value; otherwise the call goes on until the
queue is empty. Such a loop keeps nothing between two events but the state, so where one call
ends and the next begins leaves no mark on the state: a session of calls, cut in any way,
passes through the states of the single run over all the events.

## Main definitions

* `JzPretest.EventLoop.drain` — one call of a read loop.
* `JzPretest.EventLoop.trace` — the reads of the run over all the events, in order.
* `JzPretest.EventLoop.Session` — successive calls on one stream of events.

## Main results

* `JzPretest.EventLoop.Session.calls_trace` — the history of a session is the trace of the
  events it has read, whatever the calls were.
* `JzPretest.EventLoop.trace_invariant` — an invariant of the handler holds after every read.
* `JzPretest.EventLoop.drain_rule` — the rule of pre- and postconditions for one call.
-/

namespace JzPretest.EventLoop

variable {σ ε ρ : Type*}

/-- One event that was read, the state its handler left, and the value with which the handler
ended the call, if it did. -/
structure Read (σ ε ρ : Type*) where
  /-- The event. -/
  event : ε
  /-- The state once the event has been handled. -/
  after : σ
  /-- The value returned on this event; `none` when the loop goes on. -/
  ret : Option ρ

/-- A finished call of a read loop. -/
structure Call (σ ε ρ : Type*) where
  /-- The events the call read, in order. -/
  reads : List (Read σ ε ρ)
  /-- The state at the end of the call. -/
  state : σ
  /-- The value a handler returned; `none` when the queue ran empty. -/
  ret : Option ρ
  /-- The events left in the queue. -/
  rest : List ε

/-- **A read loop**: events are read and handled until one of them ends the call or the queue
is empty. -/
def drain (handle : σ → ε → σ × Option ρ) : σ → List ε → Call σ ε ρ
  | s, [] => ⟨[], s, none, []⟩
  | s, e :: queue =>
    match handle s e with
    | (s', some r) => ⟨[⟨e, s', some r⟩], s', some r, queue⟩
    | (s', none) =>
      let c := drain handle s' queue
      { c with reads := ⟨e, s', none⟩ :: c.reads }

/-- The read of an event in a state. -/
def readOf (handle : σ → ε → σ × Option ρ) (s : σ) (e : ε) : Read σ ε ρ :=
  ⟨e, (handle s e).1, (handle s e).2⟩

/-- The reads of the run over a list of events, the ends of calls ignored. -/
def trace (handle : σ → ε → σ × Option ρ) : σ → List ε → List (Read σ ε ρ)
  | _, [] => []
  | s, e :: es => readOf handle s e :: trace handle (handle s e).1 es

/-- The state after a list of events. -/
def stateAfter (handle : σ → ε → σ × Option ρ) (s : σ) (es : List ε) : σ :=
  es.foldl (fun s e => (handle s e).1) s

variable (handle : σ → ε → σ × Option ρ)

/-- The event that is read. -/
@[simp] theorem readOf_event (s : σ) (e : ε) : (readOf handle s e).event = e := rfl

/-- The state after it. -/
@[simp] theorem readOf_after (s : σ) (e : ε) : (readOf handle s e).after = (handle s e).1 := rfl

/-- What is returned for it. -/
@[simp] theorem readOf_ret (s : σ) (e : ε) : (readOf handle s e).ret = (handle s e).2 := rfl

/-- No event leaves the state. -/
@[simp] theorem stateAfter_nil (s : σ) : stateAfter handle s [] = s := rfl

/-- The first event, and then the others. -/
@[simp] theorem stateAfter_cons (s : σ) (e : ε) (es : List ε) :
    stateAfter handle s (e :: es) = stateAfter handle (handle s e).1 es := rfl

/-- Events come one after the other. -/
theorem stateAfter_append (s : σ) (es es' : List ε) :
    stateAfter handle s (es ++ es') = stateAfter handle (stateAfter handle s es) es' := by
  simp [stateAfter]

/-- The trace of two lists of events is the trace of the first, then of the second from where
the first ended. -/
theorem trace_append (s : σ) (es es' : List ε) :
    trace handle s (es ++ es') =
      trace handle s es ++ trace handle (stateAfter handle s es) es' := by
  induction es generalizing s with
  | nil => rfl
  | cons e es ih => simp [trace, ih]

/-- The trace reads exactly the given events. -/
@[simp] theorem map_event_trace (s : σ) (es : List ε) :
    (trace handle s es).map Read.event = es := by
  induction es generalizing s with
  | nil => rfl
  | cons e es ih => simp [trace, ih]

/-- Every read of a trace is that of one event, in the state the events before it left.

**Proof sketch.** Induction on the events: a read is that of the first event, with nothing before
it, or one of the rest, with the first event put before. -/
theorem mem_trace_iff (s : σ) (es : List ε) (r : Read σ ε ρ) :
    r ∈ trace handle s es ↔ ∃ pre e post, es = pre ++ e :: post ∧
      r = readOf handle (stateAfter handle s pre) e := by
  induction es generalizing s with
  | nil => simp [trace]
  | cons e es ih =>
    simp only [trace, List.mem_cons, ih]
    constructor
    · rintro (rfl | ⟨pre, e', post, rfl, rfl⟩)
      · exact ⟨[], e, es, rfl, rfl⟩
      · exact ⟨e :: pre, e', post, rfl, rfl⟩
    · rintro ⟨pre, e', post, hes, rfl⟩
      cases pre with
      | nil =>
        obtain ⟨rfl, rfl⟩ := List.cons.inj hes
        exact Or.inl rfl
      | cons d pre =>
        obtain ⟨rfl, rfl⟩ := List.cons.inj hes
        exact Or.inr ⟨pre, e', post, rfl, rfl⟩

/-- A read of a trace is that of its event, in the state the events before it left. -/
theorem trace_eq_append_cons {s : σ} {es : List ε} {a b : List (Read σ ε ρ)} {r : Read σ ε ρ}
    (h : trace handle s es = a ++ r :: b) :
    es = a.map Read.event ++ r.event :: b.map Read.event ∧
      r = readOf handle (stateAfter handle s (a.map Read.event)) r.event := by
  have hes : es = a.map Read.event ++ r.event :: b.map Read.event := by
    rw [← map_event_trace handle s es, h, List.map_append, List.map_cons]
  refine ⟨hes, ?_⟩
  rw [hes, trace_append] at h
  have hlen : (trace handle s (a.map Read.event)).length = a.length := by
    have := congrArg List.length (map_event_trace handle s (a.map Read.event))
    rwa [List.length_map, List.length_map] at this
  exact (List.cons.inj (List.append_inj h hlen).2).1.symm

/-- **Invariants of the handler** hold after every read of a trace. -/
theorem trace_invariant {I : σ → Prop} (hstep : ∀ s e, I s → I (handle s e).1) {s : σ}
    (hs : I s) (es : List ε) : ∀ r ∈ trace handle s es, I r.after := by
  induction es generalizing s with
  | nil => simp [trace]
  | cons e es ih =>
    intro r hr
    rcases List.mem_cons.mp hr with rfl | hr
    · exact hstep s e hs
    · exact ih (hstep s e hs) r hr

/-- An invariant of the handler holds in the last state of a run. -/
theorem stateAfter_invariant {I : σ → Prop} (hstep : ∀ s e, I s → I (handle s e).1) {s : σ}
    (hs : I s) (es : List ε) : I (stateAfter handle s es) := by
  induction es generalizing s with
  | nil => exact hs
  | cons e es ih => exact ih (hstep s e hs)

/-! ## One call -/

/-- **What one call does**: it reads a prefix of the queue, its reads are the trace of that
prefix, and it leaves the state of that prefix. -/
theorem drain_trace (s : σ) (queue : List ε) :
    (drain handle s queue).reads.map Read.event ++ (drain handle s queue).rest = queue ∧
      (drain handle s queue).reads =
        trace handle s ((drain handle s queue).reads.map Read.event) ∧
      (drain handle s queue).state =
        stateAfter handle s ((drain handle s queue).reads.map Read.event) := by
  induction queue generalizing s with
  | nil => simp [drain, trace]
  | cons e queue ih =>
    rcases h : handle s e with ⟨s', _ | r⟩
    · obtain ⟨hq, hr, hs⟩ := ih s'
      simp only [drain, h, List.map_cons, List.cons_append, hq, trace, readOf, stateAfter_cons]
      exact ⟨trivial, by rw [← hr], hs⟩
    · simp [drain, h, trace, readOf]

/-- **What a call returns** is what its last read ended it with; no read before that ended it.

**Proof sketch.** Induction on the queue. An event that ends the call is its last read; otherwise
the last read is the one of the rest, unless that is empty. -/
theorem drain_ret (s : σ) (queue : List ε) :
    (drain handle s queue).ret = (drain handle s queue).reads.getLast?.bind Read.ret ∧
      ∀ r ∈ (drain handle s queue).reads.dropLast, r.ret = none := by
  induction queue generalizing s with
  | nil => exact ⟨rfl, by simp [drain]⟩
  | cons e queue ih =>
    rcases h : handle s e with ⟨s', _ | v⟩
    · obtain ⟨hret, hinit⟩ := ih s'
      simp only [drain, h]
      rcases hc : (drain handle s' queue).reads with _ | ⟨r, rs⟩
      · rw [hret, hc]
        exact ⟨rfl, by simp⟩
      · rw [hret, hc, List.getLast?_cons_cons, List.dropLast_cons_of_ne_nil (by simp)]
        rw [hc] at hinit
        exact ⟨rfl, List.forall_mem_cons.mpr ⟨rfl, hinit⟩⟩
    · simp [drain, h]

/-- **The rule for one call.** `I es s` says what holds in state `s` once the events `es` have
been read and the loop goes on; `Q r es s` what holds when the call has ended with `r`.

**Proof sketch.** Induction on the queue: an event the handler passes over keeps `I`; an event
that ends the call, and the empty queue, give `Q`. -/
theorem drain_rule {I : List ε → σ → Prop} {Q : Option ρ → List ε → σ → Prop}
    (hstep : ∀ es s e, I es s → (handle s e).2 = none → I (es ++ [e]) (handle s e).1)
    (hret : ∀ es s e r, I es s → (handle s e).2 = some r → Q (some r) (es ++ [e]) (handle s e).1)
    (hend : ∀ es s, I es s → Q none es s) (queue : List ε) :
    ∀ es s, I es s → Q (drain handle s queue).ret
      (es ++ (drain handle s queue).reads.map Read.event) (drain handle s queue).state := by
  induction queue with
  | nil =>
    intro es s hs
    simpa [drain] using hend es s hs
  | cons e queue ih =>
    intro es s hs
    have hs' := hstep es s e hs
    have hr := hret es s e
    rcases h : handle s e with ⟨s', _ | r⟩
    · rw [h] at hs'
      have := ih (es ++ [e]) s' (hs' rfl)
      simpa [drain, h] using this
    · rw [h] at hr
      simpa [drain, h] using hr r hs rfl

/-- A call that finds an event reads at least one. -/
theorem drain_rest_length_lt (s : σ) {queue : List ε} (hq : queue ≠ []) :
    (drain handle s queue).rest.length < queue.length := by
  cases queue with
  | nil => exact absurd rfl hq
  | cons e queue =>
    rcases h : handle s e with ⟨s', _ | r⟩
    · have := congrArg List.length (drain_trace handle s' queue).1
      simp only [List.length_append] at this
      simp only [drain, h, List.length_cons]
      omega
    · simp [drain, h]

/-! ## Sessions of calls -/

/-- Successive calls on one stream of events. -/
structure Session (σ ε ρ : Type*) where
  /-- The state between two calls. -/
  state : σ
  /-- The events of the stream that no call has read yet. -/
  unread : List ε
  /-- The events read so far. -/
  history : List (Read σ ε ρ)

namespace Session

/-- The session before its first call. -/
def start (s : σ) (es : List ε) : Session σ ε ρ := ⟨s, es, []⟩

/-- One more call, made when the first `k` unread events have reached the queue. -/
def call (t : Session σ ε ρ) (k : ℕ) : Session σ ε ρ :=
  let c := drain handle t.state (t.unread.take k)
  ⟨c.state, c.rest ++ t.unread.drop k, t.history ++ c.reads⟩

/-- Any number of successive calls. -/
def calls (t : Session σ ε ρ) (ks : List ℕ) : Session σ ε ρ :=
  ks.foldl (call handle) t

/-- The events read so far. -/
def events (t : Session σ ε ρ) : List ε := t.history.map Read.event

variable {handle}

/-- One call continues the trace.

**Proof sketch.** The call reads a beginning of the queue (`drain_trace`), so the trace is continued
by the reads and the state by the events. -/
private lemma call_trace {s : σ} {t : Session σ ε ρ} (k : ℕ)
    (hh : t.history = trace handle s t.events) (hs : t.state = stateAfter handle s t.events) :
    (t.call handle k).history = trace handle s (t.call handle k).events ∧
      (t.call handle k).state = stateAfter handle s (t.call handle k).events ∧
      (t.call handle k).events ++ (t.call handle k).unread = t.events ++ t.unread := by
  obtain ⟨hq, hr, hd⟩ := drain_trace handle t.state (t.unread.take k)
  have hev : (t.call handle k).events =
      t.events ++ (drain handle t.state (t.unread.take k)).reads.map Read.event := by
    simp [call, events]
  refine ⟨?_, ?_, ?_⟩
  · rw [hev, trace_append, ← hs, ← hr, ← hh]
    rfl
  · rw [hev, stateAfter_append, ← hs, ← hd]
    rfl
  · rw [hev, List.append_assoc]
    congr 1
    change _ ++ (_ ++ t.unread.drop k) = t.unread
    rw [← List.append_assoc, hq, List.take_append_drop]

/-- **Sessions are traces.** However the calls cut the stream, the history of a session is the
trace of the events it has read, and what it has read is a prefix of the stream.

**Proof sketch.** Induction on the calls: each call reads a prefix of what is unread, and its
reads are the trace of that prefix (`drain_trace`), so they extend the trace so far. -/
theorem calls_trace (handle : σ → ε → σ × Option ρ) (s : σ) (es : List ε) (ks : List ℕ) :
    ((start s es).calls handle ks).history =
        trace handle s ((start s es).calls handle ks).events ∧
      ((start s es).calls handle ks).state =
        stateAfter handle s ((start s es).calls handle ks).events ∧
      ((start s es).calls handle ks).events ++ ((start s es).calls handle ks).unread = es := by
  have key : ∀ (ks : List ℕ) (t : Session σ ε ρ), t.history = trace handle s t.events →
      t.state = stateAfter handle s t.events →
      (t.calls handle ks).history = trace handle s (t.calls handle ks).events ∧
        (t.calls handle ks).state = stateAfter handle s (t.calls handle ks).events ∧
        (t.calls handle ks).events ++ (t.calls handle ks).unread = t.events ++ t.unread := by
    intro ks
    induction ks with
    | nil => exact fun t hh hs => ⟨hh, hs, rfl⟩
    | cons k ks ih =>
      intro t hh hs
      obtain ⟨hh', hs', hu⟩ := call_trace k hh hs
      obtain ⟨h1, h2, h3⟩ := ih (t.call handle k) hh' hs'
      exact ⟨h1, h2, h3.trans hu⟩
  exact key ks (start s es) rfl rfl

end Session

end JzPretest.EventLoop

import JzPretest.Semantics.Transition
import JzPretest.TestKeyboard.Runs

set_option relaxedAutoImplicit false
set_option autoImplicit false

/-!
# `start_listen`

`start_listen` waits for the touch screen and the keyboard with `epoll_wait`, serves the
descriptors that are ready, and returns when a button in `ECS_LISTEN` mode has been activated.
One pass of its loop is a step of a transition system: the environment chooses which descriptors
are ready, in which order, and how many events each of the read loops finds before the queue is
empty. A pass in which `epoll_wait` fails or reports nothing changes nothing and is no step.

## Main definitions

* `JzPretest.Widget.Listen` — the state of the loop and of the two streams of events.
* `JzPretest.Widget.onReturn` — what `start_listen` does with a returned id.
* `JzPretest.Widget.pass` — one pass of the loop.

## Main results

* `JzPretest.Widget.listen_rule` — the rule of pre- and postconditions for `start_listen`.
* `JzPretest.Widget.passes_length_le`, `JzPretest.Widget.unread_eq_nil_of_stuck` — every pass
  reads an event, and as long as there are events another pass is possible.
-/

namespace JzPretest.Widget

open EventLoop Transition

/-! ## The keyboard -/

/-- One pass of the loop of `catch_action_for_keyboard`, on the event that was read. -/
def catchKey (mlist : List Ptr) (screen : Ptr → Image) (t : InputEvent) :
    (Ptr → Image) × Option Int32 :=
  (mlist.foldl (fun screen mkeyboard =>
    if t.type = evKey then
      let screen := if t.value = 0 then Function.update screen mkeyboard .release else screen
      if t.value = 1 then Function.update screen mkeyboard .press else screen
    else screen) screen, none)

/-- `catch_action_for_keyboard`: the returned `0`, and the call. -/
def catchActionForKeyboard (mlist : List Ptr) (screen : Ptr → Image)
    (queue : List InputEvent) : Int32 × Call (Ptr → Image) InputEvent Int32 :=
  (0, drain (catchKey mlist) screen queue)

/-! ## The loop -/

/-- What `start_listen` runs with: the code at the addresses of callbacks, which gets the
argument and may write to the buttons, and the two lists of widgets. -/
structure Program where
  code : Ptr → Option Ptr → (Ptr → Button) → (Ptr → Button)
  buttonList : List Ptr
  keyboardList : List Ptr

/-- The state of the loop of `start_listen`. -/
structure Listen where
  world : World
  /-- The image last drawn for each keyboard. -/
  keyScreen : Ptr → Image
  /-- The events of the touch screen that nobody has read yet. -/
  btUnread : List InputEvent
  /-- The events of the keyboard that nobody has read yet. -/
  keyUnread : List InputEvent
  /-- The events read from the touch screen so far. -/
  btRead : List InputEvent
  /-- The events read from the keyboard so far. -/
  keyRead : List InputEvent
  /-- The value `start_listen` has returned, if it has. -/
  returned : Option Int32

/-- The two descriptors that `start_listen` listens to. -/
inductive Fd where
  | bt
  | key
  deriving DecidableEq, Repr

/-- `button->result = result`. -/
def World.setResult (w : World) (button : Ptr) (result : Int32) : World :=
  { w with mem := Function.update w.mem button { w.mem button with result := result } }

/-- Writing a result leaves everything as it was set up. -/
theorem sameSetup_setResult (w : World) (b : Ptr) (r : Int32) :
    SameSetup w.mem (w.setResult b r).mem := by
  intro p
  by_cases h : p = b
  · subst h
    simp [World.setResult, Button.fixed]
  · simp [World.setResult, h]

/-- Setting a result leaves the modes. -/
@[simp] theorem setResult_mode (w : World) (b : Ptr) (r : Int32) (p : Ptr) :
    ((w.setResult b r).mem p).mode = (w.mem p).mode := by
  by_cases h : p = b
  · subst h
    simp [World.setResult]
  · simp [World.setResult, h]

/-- It sets that of one button. -/
@[simp] theorem setResult_result (w : World) (b : Ptr) (r : Int32) (p : Ptr) :
    ((w.setResult b r).mem p).result = if p = b then r else (w.mem p).result := by
  by_cases h : p = b
  · subst h
    simp [World.setResult]
  · simp [World.setResult, h]

/-- What `start_listen` does with the id that `catch_action_for_button` has returned; the second
component is what it returns, if it does. -/
def onReturn (P : Program) (id : Int32) (w : World) : World × Option Int32 :=
  match findButtonById w.mem id P.buttonList with
  | none => (w, none)
  | some btTmp =>
    let w := w.setResult btTmp 1
    let w := match (w.mem btTmp).func with
      | none => w
      | some func => { w with mem := P.code func (w.mem btTmp).param w.mem }
    if (w.mem btTmp).mode = .ecsListen then (w, some 0) else (w, none)

/-- An id that no button has changes nothing. -/
theorem onReturn_of_eq_none {P : Program} {id : Int32} {w : World}
    (h : findButtonById w.mem id P.buttonList = none) : onReturn P id w = (w, none) := by
  simp only [onReturn, h]

namespace Listen

/-- `start_listen` before the first pass of its loop. -/
def start (w : World) (keyScreen : Ptr → Image) (bts keys : List InputEvent) : Listen :=
  ⟨w, keyScreen, bts, keys, [], [], none⟩

/-- Serving the touch screen, when the read loop finds `k` events. -/
def serveButton (P : Program) (s : Listen) (k : ℕ) : Listen :=
  let (id, c) := catchActionForButton P.buttonList s.world (s.btUnread.take k)
  let (w, ret) := onReturn P id c.state
  { s with
    world := w
    btUnread := c.rest ++ s.btUnread.drop k
    btRead := s.btRead ++ c.reads.map Read.event
    returned := ret }

/-- Serving the keyboard, when the read loop finds `k` events. -/
def serveKeyboard (P : Program) (s : Listen) (k : ℕ) : Listen :=
  let (_, c) := catchActionForKeyboard P.keyboardList s.keyScreen (s.keyUnread.take k)
  { s with
    keyScreen := c.state
    keyUnread := c.rest ++ s.keyUnread.drop k
    keyRead := s.keyRead ++ c.reads.map Read.event }

/-- Serving one descriptor that is ready; `epoll` reports only descriptors with an event to
read. -/
def serve (P : Program) (s : Listen) : Fd × ℕ → Option Listen
  | (.bt, k) => if 0 < k ∧ k ≤ s.btUnread.length then some (s.serveButton P k) else none
  | (.key, k) => if 0 < k ∧ k ≤ s.keyUnread.length then some (s.serveKeyboard P k) else none

/-- The `for` loop over the descriptors that are ready. -/
def serveAll (P : Program) : Listen → List (Fd × ℕ) → Option Listen
  | s, [] => some s
  | s, e :: events => (s.serve P e).bind fun s' =>
    if s'.returned.isSome then some s' else serveAll P s' events

end Listen

/-- One pass of the loop of `start_listen`, when `epoll_wait` reports `events`. -/
def pass (P : Program) (s : Listen) (events : List (Fd × ℕ)) : Option Listen :=
  if s.returned.isSome ∨ events = [] then none else s.serveAll P events

namespace Listen

/-! ## Serving one descriptor -/

/-- What is known of a state that `start_listen` can be in: no event is lost, `I` holds of what
was read from the touch screen as long as the loop goes on, and `Q` once it has returned. -/
structure Sound (bts keys : List InputEvent) (I : List InputEvent → World → Prop)
    (Q : Int32 → List InputEvent → World → Prop) (s : Listen) : Prop where
  bt : s.btRead ++ s.btUnread = bts
  key : s.keyRead ++ s.keyUnread = keys
  waiting : s.returned = none → I s.btRead s.world
  done : ∀ r, s.returned = some r → Q r s.btRead s.world

/-- The events that nobody has read yet. -/
def unread (s : Listen) : ℕ := s.btUnread.length + s.keyUnread.length

/-- What is read of a stream and what is left of it. -/
private lemma read_append_unread {σ ρ : Type*} (handle : σ → InputEvent → σ × Option ρ) (v : σ)
    (read unread : List InputEvent) (k : ℕ) :
    (read ++ (drain handle v (unread.take k)).reads.map Read.event) ++
      ((drain handle v (unread.take k)).rest ++ unread.drop k) = read ++ unread := by
  rw [List.append_assoc, ← List.append_assoc _ _ (unread.drop k),
    (drain_trace handle v (unread.take k)).1, List.take_append_drop]

/-- A call that finds an event makes the stream shorter. -/
private lemma rest_length_lt {σ ρ : Type*} (handle : σ → InputEvent → σ × Option ρ) (v : σ)
    {unread : List InputEvent} {k : ℕ} (hk : 0 < k ∧ k ≤ unread.length) :
    ((drain handle v (unread.take k)).rest ++ unread.drop k).length < unread.length := by
  have hne : unread.take k ≠ [] := by
    apply List.ne_nil_of_length_pos
    rw [List.length_take]
    omega
  have := drain_rest_length_lt handle v hne
  rw [List.length_take] at this
  rw [List.length_append, List.length_drop]
  omega

/-- Serving a descriptor reads at least one event. -/
private lemma serve_unread_lt (P : Program) {s s' : Listen} {e : Fd × ℕ}
    (h : s.serve P e = some s') : s'.unread < s.unread := by
  obtain ⟨_ | _, k⟩ := e
  · simp only [serve, Option.ite_none_right_eq_some, Option.some.injEq] at h
    obtain ⟨hk, rfl⟩ := h
    have := rest_length_lt (catchEvent P.buttonList) s.world hk
    simp only [unread, serveButton, catchActionForButton]
    omega
  · simp only [serve, Option.ite_none_right_eq_some, Option.some.injEq] at h
    obtain ⟨hk, rfl⟩ := h
    have := rest_length_lt (catchKey P.keyboardList) s.keyScreen hk
    simp only [unread, serveKeyboard, catchActionForKeyboard]
    omega

section Rule

variable (P : Program) {bts keys : List InputEvent} {I : List InputEvent → World → Prop}
  {Q : Int32 → List InputEvent → World → Prop}

/-- What the code and its environment have to respect for `Listen.Sound` to be kept: an event
that `catch_action_for_button` passes over keeps `I`; so does one on which it returns, once
`start_listen` has dealt with the id, or else `start_listen` returns and `Q` holds. -/
structure Respects (I : List InputEvent → World → Prop)
    (Q : Int32 → List InputEvent → World → Prop) : Prop where
  idZero : ∀ es v, I es v → findButtonById v.mem 0 P.buttonList = none
  goesOn : ∀ es v t, I es v → (catchEvent P.buttonList v t).2 = none →
    I (es ++ [t]) (catchEvent P.buttonList v t).1
  returns : ∀ es v t id, I es v → (catchEvent P.buttonList v t).2 = some id →
    let r := onReturn P id (catchEvent P.buttonList v t).1
    (r.2 = none → I (es ++ [t]) r.1) ∧ ∀ c, r.2 = some c → Q c (es ++ [t]) r.1

variable {P}

/-- Serving the touch screen keeps the state sound. -/
lemma Sound.serveButton (hR : Respects P I Q) {s : Listen} (h : s.Sound bts keys I Q)
    (hw : s.returned = none) (k : ℕ) : (s.serveButton P k).Sound bts keys I Q := by
  have hcall := drain_rule (catchEvent P.buttonList) (I := I)
    (Q := fun ret es v =>
      ((onReturn P (ret.getD 0) v).2 = none → I es (onReturn P (ret.getD 0) v).1) ∧
        ∀ c, (onReturn P (ret.getD 0) v).2 = some c → Q c es (onReturn P (ret.getD 0) v).1)
    hR.goesOn hR.returns
    (fun es v hI => by simpa [onReturn_of_eq_none (hR.idZero es v hI)] using hI)
    (s.btUnread.take k) s.btRead s.world (h.waiting hw)
  exact ⟨(read_append_unread _ _ _ _ _).trans h.bt, h.key, hcall.1, hcall.2⟩

/-- Serving the keyboard keeps the state sound. -/
lemma Sound.serveKeyboard {s : Listen} (h : s.Sound bts keys I Q) (k : ℕ) :
    (s.serveKeyboard P k).Sound bts keys I Q :=
  ⟨h.bt, (read_append_unread _ _ _ _ _).trans h.key, h.waiting, h.done⟩

/-- Serving a descriptor keeps the state sound. -/
lemma Sound.serve (hR : Respects P I Q) {s s' : Listen} (h : s.Sound bts keys I Q)
    (hw : s.returned = none) {e : Fd × ℕ} (hs : s.serve P e = some s') :
    s'.Sound bts keys I Q := by
  obtain ⟨_ | _, k⟩ := e
  · simp only [Listen.serve, Option.ite_none_right_eq_some, Option.some.injEq] at hs
    obtain ⟨-, rfl⟩ := hs
    exact h.serveButton hR hw k
  · simp only [Listen.serve, Option.ite_none_right_eq_some, Option.some.injEq] at hs
    obtain ⟨-, rfl⟩ := hs
    exact h.serveKeyboard k

/-- Serving all descriptors that are ready keeps the state sound.

**Proof sketch.** Induction on the descriptors: serving one keeps the state sound, and after the
loop has returned no other one is served. -/
lemma Sound.serveAll (hR : Respects P I Q) {events : List (Fd × ℕ)} :
    ∀ {s s' : Listen}, s.Sound bts keys I Q → s.returned = none →
      s.serveAll P events = some s' → s'.Sound bts keys I Q := by
  induction events with
  | nil =>
    intro s s' h _ hs
    obtain rfl : s = s' := Option.some.inj hs
    exact h
  | cons e events ih =>
    intro s s' h hw hs
    obtain ⟨t, ht, hs⟩ := Option.bind_eq_some_iff.mp hs
    have h' := h.serve hR hw ht
    cases hret : t.returned with
    | none =>
      rw [hret] at hs
      exact ih h' hret hs
    | some r =>
      rw [hret] at hs
      obtain rfl : t = s' := Option.some.inj hs
      exact h'

end Rule

/-- Serving the descriptors that are ready never adds events, and reads one if there is any.

**Proof sketch.** Induction on the descriptors: each reads at least one event. -/
private lemma serveAll_unread_le (P : Program) {events : List (Fd × ℕ)} :
    ∀ {s s' : Listen}, s.serveAll P events = some s' →
      s'.unread ≤ s.unread ∧ (events ≠ [] → s'.unread < s.unread) := by
  induction events with
  | nil =>
    intro s s' hs
    obtain rfl : s = s' := Option.some.inj hs
    exact ⟨Nat.le_refl _, fun h => absurd rfl h⟩
  | cons e events ih =>
    intro s s' hs
    obtain ⟨t, ht, hs⟩ := Option.bind_eq_some_iff.mp hs
    have hlt := serve_unread_lt P ht
    have hle : s'.unread ≤ t.unread := by
      cases hret : t.returned with
      | none =>
        rw [hret] at hs
        exact (ih hs).1
      | some r =>
        rw [hret] at hs
        obtain rfl : t = s' := Option.some.inj hs
        exact Nat.le_refl _
    exact ⟨by omega, fun _ => by omega⟩

end Listen

/-! ## The whole loop -/

/-- Every pass reads at least one event. -/
private lemma pass_unread_lt (P : Program) (s : Listen) (events : List (Fd × ℕ)) (s' : Listen)
    (h : pass P s events = some s') : s'.unread < s.unread := by
  simp only [pass, Option.ite_none_left_eq_some, not_or] at h
  exact (Listen.serveAll_unread_le P h.2).2 h.1.2

/-- There are at most as many passes as events. -/
theorem passes_length_le (P : Program) {w : World} {keyScreen : Ptr → Image}
    {bts keys : List InputEvent} {passes : List (List (Fd × ℕ))} {s : Listen}
    (h : run (pass P) (Listen.start w keyScreen bts keys) passes = some s) :
    passes.length ≤ bts.length + keys.length := by
  have := length_le_of_run (pass_unread_lt P) h
  simp only [Listen.unread, Listen.start] at this
  omega

/-- As long as `start_listen` has not returned and there are events to read, another pass is
possible.

**Proof sketch.** If there were events to read, serving their descriptor for one event would be
another pass. -/
theorem unread_eq_nil_of_stuck (P : Program) {s : Listen} (hs : Stuck (pass P) s)
    (hw : s.returned = none) : s.btUnread = [] ∧ s.keyUnread = [] := by
  have hserve : ∀ e : Fd × ℕ, s.serve P e = none := by
    intro e
    have hstuck := hs [e]
    rw [pass, if_neg (by simp [hw]), Listen.serveAll, Option.bind_eq_none_iff] at hstuck
    cases hserve : s.serve P e with
    | none => rfl
    | some s' =>
      have := hstuck s' hserve
      split_ifs at this
      simp [Listen.serveAll] at this
  constructor
  · by_contra hne
    have hlen := List.length_pos_of_ne_nil hne
    have := hserve (.bt, 1)
    rw [Listen.serve, if_pos ⟨Nat.one_pos, hlen⟩] at this
    exact absurd this (by simp)
  · by_contra hne
    have hlen := List.length_pos_of_ne_nil hne
    have := hserve (.key, 1)
    rw [Listen.serve, if_pos ⟨Nat.one_pos, hlen⟩] at this
    exact absurd this (by simp)

/-- What a run of the loop does with the two streams of events: it reads a prefix of each, in at
most as many passes as there are events, and stops before it has returned only when there is
nothing left to read. -/
structure Progress (P : Program) (bts keys : List InputEvent) (passes : List (List (Fd × ℕ)))
    (s : Listen) : Prop where
  bt : s.btRead ++ s.btUnread = bts
  key : s.keyRead ++ s.keyUnread = keys
  length_le : passes.length ≤ bts.length + keys.length
  stuck : Stuck (pass P) s → s.returned = none → s.btUnread = [] ∧ s.keyUnread = []

/-- **The rule for `start_listen`.** What respects the one call and the one id holds in every
state that any number of passes lead to: `I` of the events read so far as long as it waits, `Q`
once it has returned. -/
theorem listen_rule {P : Program} {I : List InputEvent → World → Prop}
    {Q : Int32 → List InputEvent → World → Prop} (hR : Listen.Respects P I Q) {w : World}
    (hw : I [] w) {keyScreen : Ptr → Image} {bts keys : List InputEvent}
    {passes : List (List (Fd × ℕ))} {s : Listen}
    (h : run (pass P) (Listen.start w keyScreen bts keys) passes = some s) :
    Progress P bts keys passes s ∧ (s.returned = none → I s.btRead s.world) ∧
      ∀ r, s.returned = some r → Q r s.btRead s.world := by
  obtain ⟨hbt, hkey, hwaiting, hdone⟩ : s.Sound bts keys I Q := by
    refine run_invariant (I := Listen.Sound bts keys I Q) (fun s events s' hs hp => ?_)
      ⟨rfl, rfl, fun _ => hw, fun r hr => absurd hr (by simp [Listen.start])⟩ h
    simp only [pass, Option.ite_none_left_eq_some, not_or] at hp
    exact hs.serveAll hR (by simpa using hp.1.1) hp.2
  exact ⟨⟨hbt, hkey, passes_length_le P h, unread_eq_nil_of_stuck P⟩, hwaiting, hdone⟩

end JzPretest.Widget

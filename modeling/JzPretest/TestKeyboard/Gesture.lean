import JzPretest.TestKeyboard.Marks
import Mathlib.Logic.Function.Iterate

set_option relaxedAutoImplicit false
set_option autoImplicit false

/-!
# Gestures

What `widget.h` promises for `Fast_Touch = DISABLE`: a button counts as touched only when the
touch starts and ends on it. The code keeps the button under the last report only, and it takes
a synchronisation for a new report even when no position has been reported, so both halves of
the promise hold only for some inputs; this file says for which.

## Main definitions

* `JzPretest.Widget.Report`, `JzPretest.Widget.Gesture` — the events of a gesture.
* `JzPretest.Widget.LiftsFromButton` — the finger is lifted from a button.
* `JzPretest.Widget.TouchedBetween` — activations are separated by position events.

## Main results

* `JzPretest.Widget.pressAndRelease_iff` — a gesture obeys the press-and-release law iff it
  ends on no button or where it started.
* `JzPretest.Widget.touchedBetween_iff` — activations are separated by position events iff no
  lift from a button is followed by three bare synchronisations.
-/

namespace JzPretest.Widget

open EventLoop

/-! ## Reports and gestures -/

/-- One report of a gesture: at least one position event, and the synchronisation that closes
it. -/
structure Report where
  moves : List InputEvent
  nonempty : moves ≠ []
  isAbs : ∀ t ∈ moves, t.IsAbs
  close : InputEvent
  isSync : close.IsSync

/-- The events of a report. -/
def Report.events (r : Report) : List InputEvent := r.moves ++ [r.close]

/-- A gesture: at least one report, and the synchronisation that says that the finger has been
lifted. -/
structure Gesture where
  reports : List Report
  nonempty : reports ≠ []
  close : InputEvent
  isSync : close.IsSync

namespace Gesture

/-- The events of the reports. -/
def body (g : Gesture) : List InputEvent := g.reports.flatMap Report.events

/-- The events of a gesture. -/
def events (g : Gesture) : List InputEvent := g.body ++ [g.close]

/-- The button under the first report. -/
def firstButton (g : Gesture) (mlist : List Ptr) (w : World) : Option Ptr :=
  findButtonByPosition w.mem
    (touchAfter w.panel w.recTouch (g.reports.head g.nonempty).events) mlist

/-- The button under the last report. -/
def lastButton (g : Gesture) (mlist : List Ptr) (w : World) : Option Ptr :=
  findButtonByPosition w.mem (touchAfter w.panel w.recTouch g.body) mlist

end Gesture

/-- Position events leave the touch machine reset. -/
private lemma touchAfter_state_of_isAbs (p : Panel) (m : Touch) {es : List InputEvent}
    (hne : es ≠ []) (habs : ∀ t ∈ es, t.IsAbs) : (touchAfter p m es).state = .resetTouch := by
  induction es generalizing m with
  | nil => exact absurd rfl hne
  | cons t es ih =>
    have hreset : (getTouch p t m).2.state = .resetTouch := by
      rcases getTouch_cases p t m with ⟨-, x, y, h⟩ | ⟨hs, -⟩ | ⟨ha, -, -⟩
      · rw [h]
      · exact absurd (habs t (List.mem_cons_self ..)) hs.not_isAbs
      · exact absurd (habs t (List.mem_cons_self ..)) ha
    cases es with
    | nil => exact hreset
    | cons t' es =>
      exact ih _ (by simp) fun u hu => habs u (List.mem_cons_of_mem _ hu)

/-- After a report the code remembers the button under it.

**Proof sketch.** After the positions the state is `RESET_TOUCH`, so the synchronisation that closes
the report remembers the button under it. -/
lemma Report.stateAfter (r : Report) (mlist : List Ptr) (w : World) :
    (EventLoop.stateAfter (catchEvent mlist) w r.events).recTouch.state = .keepTouch ∧
      (EventLoop.stateAfter (catchEvent mlist) w r.events).recTouch.btId =
        idOf w.mem (findButtonByPosition w.mem (touchAfter w.panel w.recTouch r.events) mlist) := by
  obtain ⟨⟨id, hr⟩, hs, -⟩ := stateAfter_catchEvent mlist w r.moves
  have hpos : findButtonByPosition w.mem (touchAfter w.panel w.recTouch r.events) mlist =
      findButtonByPosition w.mem (touchAfter w.panel w.recTouch r.moves) mlist := by
    rw [Report.events, touchAfter_append, touchAfter_cons, getTouch_of_isSync r.isSync]
    rfl
  have hreset := touchAfter_state_of_isAbs w.panel w.recTouch r.nonempty r.isAbs
  rw [hpos, ← findButtonByPosition_stateAfter, ← hs.idOf_eq, Report.events, stateAfter_append,
    stateAfter_cons, stateAfter_nil]
  generalize EventLoop.stateAfter (catchEvent mlist) w r.moves = v at hr ⊢
  rcases catchEvent_cases mlist v r.close with ⟨ha, -⟩ | ⟨-, -, -, h⟩ | ⟨-, hk, -⟩ |
    ⟨-, hk, -⟩ | ⟨-, hns, -⟩
  · exact absurd ha r.isSync.not_isAbs
  · rw [h]
    exact ⟨rfl, rfl⟩
  · simp [hr, hreset] at hk
  · simp [hr, hreset] at hk
  · exact absurd r.isSync hns

/-- **The end of a gesture**: the event that closes it returns the id of the button under its
last report.

**Proof sketch.** `Report.stateAfter` for the last report: the state is `KEEP_TOUCH` and its button
is remembered, so the closing synchronisation lifts the finger and returns its id. -/
theorem Gesture.ret_close (g : Gesture) (mlist : List Ptr) (w : World) :
    (catchEvent mlist (stateAfter (catchEvent mlist) w g.body) g.close).2 =
      some (idOf w.mem (g.lastButton mlist w)) := by
  obtain ⟨rs, r, hrs⟩ : ∃ rs r, g.reports = rs ++ [r] :=
    ⟨_, _, (List.dropLast_append_getLast g.nonempty).symm⟩
  have hbody : g.body = rs.flatMap Report.events ++ r.events := by simp [Gesture.body, hrs]
  obtain ⟨⟨id, hv⟩, hs, hp⟩ := stateAfter_catchEvent mlist w (rs.flatMap Report.events)
  obtain ⟨hkeep, hid⟩ := r.stateAfter mlist
    (stateAfter (catchEvent mlist) w (rs.flatMap Report.events))
  rw [hs.findButtonByPosition_eq, hs.idOf_eq, hp, hv, touchAfter_withBtId] at hid
  have hlast : g.lastButton mlist w = findButtonByPosition w.mem
      { touchAfter w.panel (touchAfter w.panel w.recTouch (rs.flatMap Report.events)) r.events with
        btId := id } mlist := by
    rw [Gesture.lastButton, hbody, touchAfter_append]
    rfl
  rw [hlast, ← hid, hbody, stateAfter_append, catchEvent_ret]
  generalize stateAfter (catchEvent mlist)
    (stateAfter (catchEvent mlist) w (rs.flatMap Report.events)) r.events = v at hkeep ⊢
  rcases catchEvent_cases mlist v g.close with ⟨ha, -⟩ | ⟨-, hk, -⟩ | ⟨-, -, hsig, -⟩ |
    ⟨-, hk, -⟩ | ⟨-, hns, -⟩
  · exact absurd ha g.isSync.not_isAbs
  · simp [hkeep] at hk
  · rw [hsig]
    rfl
  · simp [hkeep] at hk
  · exact absurd g.isSync hns

/-- The id with which a session's last read ended its call, if it did. -/
def lastReturn (s : Session World InputEvent Int32) : Option Int32 :=
  s.history.getLast?.bind Read.ret

/-- **Press and release**: for a list with distinct ids, from every state and however the events
of the gesture are split into calls, the gesture returns exactly the id that the buttons under
its first and its last report share if and only if it ends on no button or on the button on
which it started. The code returns the button under the last report in any case
(`Gesture.ret_close`).

**Proof sketch.** By `Gesture.ret_close` the last return is the id of the last button. Ids are
distinct and not zero, so this is the id of both buttons if and only if there is no last button or
they are the same. -/
theorem pressAndRelease_iff (mlist : List Ptr) (w : World) (hd : DistinctIds w.mem mlist)
    (g : Gesture) (ks : List ℕ) (hread : (catchCalls mlist w g.events ks).unread = []) :
    (∀ id : Int32, id ≠ 0 → (lastReturn (catchCalls mlist w g.events ks) = some id ↔
        idOf w.mem (g.firstButton mlist w) = id ∧ idOf w.mem (g.lastButton mlist w) = id)) ↔
      g.lastButton mlist w = none ∨ g.firstButton mlist w = g.lastButton mlist w := by
  have hret : lastReturn (catchCalls mlist w g.events ks) =
      some (idOf w.mem (g.lastButton mlist w)) := by
    obtain ⟨hh, -, hu⟩ := Session.calls_trace (catchEvent mlist) w g.events ks
    rw [← catchCalls, hread, List.append_nil] at hu
    rw [← catchCalls, hu] at hh
    rw [lastReturn, hh, Gesture.events, trace_append, ← g.ret_close mlist w]
    simp [trace]
  simp only [hret, Option.some.injEq]
  constructor
  · intro h
    cases hl : g.lastButton mlist w with
    | none => exact Or.inl rfl
    | some b =>
      have hb : b ∈ mlist := (findButtonByPosition_some hl).1
      rw [hl] at h
      have hid := ((h (w.mem b).id (hd.ne_zero b hb)).mp rfl).1
      cases hf : g.firstButton mlist w with
      | none => exact absurd (hf ▸ hid).symm (hd.ne_zero b hb)
      | some b' =>
        have hb' : b' ∈ mlist := (findButtonByPosition_some hf).1
        rw [hf] at hid
        exact Or.inr (congrArg some (hd.eq_of_id_eq hb' hb hid))
  · rintro (hl | hfl) id hid
    · rw [hl]
      exact ⟨fun h => absurd h.symm hid, fun h => absurd h.2.symm hid⟩
    · rw [hfl]
      exact ⟨fun h => ⟨h, h⟩, fun h => h.1⟩

/-- One report at a position. -/
def reportAt (x y : Int32) : Report where
  moves := moveTo x y
  nonempty := by simp [moveTo]
  isAbs := by simp [moveTo, InputEvent.IsAbs]
  close := sync
  isSync := ⟨rfl, rfl⟩

/-- A gesture that slides from the first of two buttons to the second. -/
def slide : Gesture where
  reports := [reportAt 5 5, reportAt 25 5]
  nonempty := by simp
  close := sync
  isSync := ⟨rfl, rfl⟩

/-- A finger that slides from one button to the other. -/
theorem pressAndRelease_iff_slide :
    (∀ id : Int32, id ≠ 0 →
      (lastReturn (catchCalls [0, 1] sideBySide slide.events [7]) = some id ↔
        idOf sideBySide.mem (slide.firstButton [0, 1] sideBySide) = id ∧
          idOf sideBySide.mem (slide.lastButton [0, 1] sideBySide) = id)) ↔
      slide.lastButton [0, 1] sideBySide = none ∨
        slide.firstButton [0, 1] sideBySide = slide.lastButton [0, 1] sideBySide :=
  pressAndRelease_iff [0, 1] sideBySide (by decide) slide [7] (by decide)

/-- A slide from the first button to the second returns the id of the second. -/
theorem not_pressAndRelease_slide :
    sideBySide.Initial ∧ DistinctIds sideBySide.mem [0, 1] ∧
      (∀ b ∈ [0, 1], isFast sideBySide.mem b = false) ∧
      ¬ ∀ id : Int32, id ≠ 0 →
        (lastReturn (catchCalls [0, 1] sideBySide slide.events [7]) = some id ↔
          idOf sideBySide.mem (slide.firstButton [0, 1] sideBySide) = id ∧
            idOf sideBySide.mem (slide.lastButton [0, 1] sideBySide) = id) := by
  refine ⟨⟨rfl, rfl⟩, by decide, by decide, fun h => ?_⟩
  exact absurd ((h 2 (by decide)).mp (by decide)).1 (by decide)

/-! ## Activations without a touch -/

/-- A read that ended a call at `END_TOUCH` with the id of a button. -/
def Activates (r : Read World InputEvent Int32) : Prop :=
  r.after.recTouch.state = .endTouch ∧ ∃ id, r.ret = some id ∧ id ≠ 0

/-- Between two consecutive activations at least one position event has been read. -/
def TouchedBetween (history : List (Read World InputEvent Int32)) : Prop :=
  ∀ pre r mid r' post, history = pre ++ r :: (mid ++ r' :: post) → Activates r → Activates r' →
    (∀ q ∈ mid, ¬ Activates q) → ∃ q ∈ mid, q.event.IsAbs

/-- After the events `pre`, the event `t` lifts the finger from a button. -/
def LiftsFromButton (mlist : List Ptr) (w : World) (pre : List InputEvent) (t : InputEvent) :
    Prop :=
  t.IsSync ∧ (touchAfter w.panel w.recTouch pre).state = .keepTouch ∧
    idOf w.mem
      (findButtonByPosition w.mem (touchAfter w.panel w.recTouch pre) mlist) ≠ 0

instance (mlist : List Ptr) (w : World) (pre : List InputEvent) (t : InputEvent) :
    Decidable (LiftsFromButton mlist w pre t) := inferInstanceAs (Decidable (_ ∧ _ ∧ _))

/-- No lift from a button is followed by three synchronisations with no position event among
them. -/
def NoBareCycle (mlist : List Ptr) (w : World) (es : List InputEvent) : Prop :=
  ∀ pre t mid post, es = pre ++ t :: (mid ++ post) → LiftsFromButton mlist w pre t →
    mid.countP (·.IsSync) = 3 → ∃ e ∈ mid, e.IsAbs

/-- An event activates a button exactly when it lifts the finger from one.

**Proof sketch.** By `catchEvent_cases`: only a synchronisation in the state `KEEP_TOUCH` lifts the
finger, and then the remembered button is the one under the touch. -/
lemma activates_iff_liftsFromButton (mlist : List Ptr) (w : World) (hw : w.Initial)
    (pre : List InputEvent) (t : InputEvent) :
    Activates (readOf (catchEvent mlist) (stateAfter (catchEvent mlist) w pre) t) ↔
      LiftsFromButton mlist w pre t := by
  obtain ⟨f, hf⟩ := hw.tracks_stateAfter mlist pre
  obtain ⟨⟨id, hr⟩, hs, -⟩ := stateAfter_catchEvent mlist w pre
  have hstate : (stateAfter (catchEvent mlist) w pre).recTouch.state =
      (touchAfter w.panel w.recTouch pre).state := by rw [hr]
  unfold Activates LiftsFromButton
  rw [← findButtonByPosition_stateAfter, ← hs.idOf_eq, ← hstate, readOf_ret, catchEvent_ret]
  generalize stateAfter (catchEvent mlist) w pre = v at hf ⊢
  dsimp only [readOf]
  rcases catchEvent_cases mlist v t with ⟨ha, hsig, -⟩ | ⟨-, hk, hsig, h⟩ | ⟨hsync, hk, hsig, h⟩ |
    ⟨-, hk, hsig, h⟩ | ⟨-, hns, hsig, -⟩
  · have hns : ¬ t.IsSync := fun hc => hc.not_isAbs ha
    simp [hsig, returnOn, hns]
  · simp [h, hk]
  · have hcur := hf.current (by simp [hk])
    simp [hsig, returnOn, h, hsync, hk, hf.btId, hcur]
  · simp [hsig, returnOn, hk]
  · simp [hsig, returnOn, hns]

/-- With no position event, a run moves the touch machine once for every synchronisation. -/
private lemma touchAfter_of_no_isAbs (p : Panel) (m : Touch) {es : List InputEvent}
    (habs : ∀ t ∈ es, ¬ t.IsAbs) :
    touchAfter p m es =
      { m with state := TouchState.sync^[es.countP (·.IsSync)] m.state } := by
  induction es generalizing m with
  | nil => rfl
  | cons t es ih =>
    have hrest : ∀ u ∈ es, ¬ u.IsAbs := fun u hu => habs u (List.mem_cons_of_mem _ hu)
    rcases getTouch_cases p t m with ⟨ha, -⟩ | ⟨hs, h⟩ | ⟨-, hs, h⟩
    · exact absurd ha (habs t (List.mem_cons_self ..))
    · rw [touchAfter_cons, h, ih _ hrest, List.countP_cons_of_pos (by simpa using hs),
        Function.iterate_succ_apply]
    · rw [touchAfter_cons, h, ih _ hrest, List.countP_cons_of_neg (by simpa using hs)]

/-- From `END_TOUCH` it takes two synchronisations to complete a report. -/
lemma two_le_of_sync_iterate {n : ℕ}
    (h : TouchState.sync^[n] TouchState.endTouch = .keepTouch) : 2 ≤ n := by
  match n with
  | 0 => simp at h
  | 1 => simp [TouchState.sync] at h
  | n + 2 => omega

/-- A list with more than `n` elements of a kind has a prefix with `n` of them that is followed
by one more. -/
lemma exists_prefix_countP {α : Type*} (p : α → Bool) (l : List α) (n : ℕ)
    (h : n < l.countP p) : ∃ a x b, l = a ++ x :: b ∧ p x = true ∧ a.countP p = n := by
  induction l generalizing n with
  | nil => simp at h
  | cons y l ih =>
    by_cases hy : p y = true
    · cases n with
      | zero => exact ⟨[], y, l, rfl, hy, rfl⟩
      | succ n =>
        rw [List.countP_cons_of_pos hy] at h
        obtain ⟨a, x, b, rfl, hx, ha⟩ := ih n (by omega)
        exact ⟨y :: a, x, b, rfl, hx, by rw [List.countP_cons_of_pos hy, ha]⟩
    · rw [List.countP_cons_of_neg hy] at h
      obtain ⟨a, x, b, rfl, hx, ha⟩ := ih n h
      exact ⟨y :: a, x, b, rfl, hx, by rw [List.countP_cons_of_neg hy, ha]⟩

/-- After a lift and some synchronisations, with no position event among them, the touch machine
has moved from `END_TOUCH` once for each of them. -/
lemma LiftsFromButton.touchAfter {mlist : List Ptr} {w : World} {pre : List InputEvent}
    {t : InputEvent} (h : LiftsFromButton mlist w pre t) {es : List InputEvent}
    (habs : ∀ e ∈ es, ¬ e.IsAbs) :
    Widget.touchAfter w.panel w.recTouch (pre ++ t :: es) =
      { Widget.touchAfter w.panel w.recTouch pre with
        state := TouchState.sync^[es.countP (·.IsSync)] .endTouch } := by
  obtain ⟨hsync, hkeep, -⟩ := h
  rw [touchAfter_append, touchAfter_cons, getTouch_of_isSync hsync,
    touchAfter_of_no_isAbs _ _ habs, hkeep]
  rfl

/-- Activations separated by position events leave no bare cycle: the third of three bare
synchronisations after a lift would lift the finger from the same button again.

**Proof sketch.** If there were no position event, the third synchronisation would find the state of
the first again and lift the finger from the same button. These are two activations with none
between them, so a position event is between them after all. -/
private lemma noBareCycle_of_touchedBetween {mlist : List Ptr} {w : World} (hw : w.Initial)
    {es : List InputEvent} (h : TouchedBetween (trace (catchEvent mlist) w es)) :
    NoBareCycle mlist w es := by
  intro pre t mid post hread hlift hcount
  by_contra hno
  push Not at hno
  obtain ⟨a, s, b, rfl, hs, ha⟩ := exists_prefix_countP (·.IsSync) mid 2 (by omega)
  have hs : s.IsSync := by simpa using hs
  have hnoa : ∀ e ∈ a, ¬ e.IsAbs := fun e he => hno e (by simp [he])
  have hstate := hlift.touchAfter hnoa
  rw [ha] at hstate
  have hlift' : LiftsFromButton mlist w (pre ++ t :: a) s := by
    refine ⟨hs, by rw [hstate]; rfl, ?_⟩
    rw [hstate]
    exact hlift.2.2
  have hcut : trace (catchEvent mlist) w es =
      trace (catchEvent mlist) w pre ++
        readOf (catchEvent mlist) (stateAfter (catchEvent mlist) w pre) t ::
        (trace (catchEvent mlist) (stateAfter (catchEvent mlist) w (pre ++ [t])) a ++
          readOf (catchEvent mlist) (stateAfter (catchEvent mlist) w (pre ++ t :: a)) s ::
          trace (catchEvent mlist)
            (stateAfter (catchEvent mlist) w (pre ++ t :: a ++ [s])) (b ++ post)) := by
    rw [hread]
    simp [trace_append, trace, stateAfter_append]
  obtain ⟨q, hq, hqa⟩ := h _ _ _ _ _ hcut
    ((activates_iff_liftsFromButton mlist w hw pre t).mpr hlift)
    ((activates_iff_liftsFromButton mlist w hw (pre ++ t :: a) s).mpr hlift') (by
      intro q hq hact
      obtain ⟨a₁, x, a₂, rfl, rfl⟩ := (mem_trace_iff _ _ _ _).mp hq
      rw [← stateAfter_append, List.append_assoc, List.singleton_append,
        activates_iff_liftsFromButton mlist w hw] at hact
      obtain ⟨hx, hk, -⟩ := hact
      rw [hlift.touchAfter fun e he => hnoa e (by simp [he])] at hk
      rw [List.countP_append, List.countP_cons_of_pos (by simpa using hx)] at ha
      -- the second synchronisation has not been read yet
      have htwo := two_le_of_sync_iterate hk
      omega)
  have hqm : q.event ∈ a := by
    rw [← map_event_trace (catchEvent mlist) _ a]
    exact List.mem_map_of_mem hq
  exact hnoa _ hqm hqa

/-- Where there is no bare cycle, activations are separated by position events: bare
synchronisations come back to a lift after at least three of them.

**Proof sketch.** Without a position event between two activations the state is moved on by
synchronisations only, and it takes three of them to come back to `KEEP_TOUCH`: a bare cycle. -/
private lemma touchedBetween_of_noBareCycle {mlist : List Ptr} {w : World} (hw : w.Initial)
    {es : List InputEvent} (h : NoBareCycle mlist w es) :
    TouchedBetween (trace (catchEvent mlist) w es) := by
  intro pre r mid r' post hread hact hact' _
  by_contra hno
  push Not at hno
  obtain ⟨-, hr⟩ := trace_eq_append_cons _ hread
  obtain ⟨hes, hr'⟩ := trace_eq_append_cons _ (a := pre ++ r :: mid) (by simpa using hread)
  rw [hr, activates_iff_liftsFromButton mlist w hw] at hact
  rw [hr', activates_iff_liftsFromButton mlist w hw] at hact'
  simp only [List.map_append, List.map_cons, List.append_assoc, List.cons_append] at hes hact'
  have hnoa : ∀ e ∈ mid.map Read.event, ¬ e.IsAbs := by
    intro e he
    obtain ⟨q, hq, rfl⟩ := List.mem_map.mp he
    exact hno q hq
  generalize pre.map Read.event = before at hes hact hact'
  generalize mid.map Read.event = between at hes hact' hnoa
  generalize post.map Read.event = after at hes
  obtain ⟨hsync', hkeep', -⟩ := hact'
  rw [hact.touchAfter hnoa] at hkeep'
  have hcount : 2 < (between ++ [r'.event]).countP (·.IsSync) := by
    have htwo := two_le_of_sync_iterate hkeep'
    rw [List.countP_append, List.countP_singleton, if_pos (by simpa using hsync')]
    omega
  obtain ⟨a, s, b, hab, hs, ha⟩ := exists_prefix_countP _ _ 2 hcount
  have hthree : (a ++ [s]).countP (·.IsSync) = 3 := by
    rw [List.countP_append, ha, List.countP_singleton, if_pos hs]
  have hes' : es = before ++ r.event :: ((a ++ [s]) ++ (b ++ after)) := by
    rw [hes, show between ++ r'.event :: after = (between ++ [r'.event]) ++ after by simp, hab]
    simp
  obtain ⟨e, he, hea⟩ := h before r.event (a ++ [s]) (b ++ after) hes' hact hthree
  have hmem : e ∈ between ++ [r'.event] := by
    rw [hab]
    simp only [List.mem_append, List.mem_cons] at he ⊢
    tauto
  rcases List.mem_append.mp hmem with he | he
  · exact hnoa e he hea
  · obtain rfl := List.mem_singleton.mp he
    exact hsync'.not_isAbs hea

/-- **No activation without a touch**, exactly when it holds: between two consecutive
activations of a run a position event has been read if and only if no lift from a button is
followed by three synchronisations with no position event among them.

**Proof sketch.** Without a position event the position stays where it is and each
synchronisation moves the machine on by one, from `END_TOUCH` through `RESET_TOUCH` and
`KEEP_TOUCH` back to `END_TOUCH`: the third one lifts the finger from the same button again. -/
theorem touchedBetween_iff (mlist : List Ptr) (w : World) (hw : w.Initial)
    (es : List InputEvent) (ks : List ℕ) :
    TouchedBetween (catchCalls mlist w es ks).history ↔
      NoBareCycle mlist w (catchCalls mlist w es ks).events := by
  rw [catchCalls, (Session.calls_trace _ w es ks).1]
  exact ⟨noBareCycle_of_touchedBetween hw, touchedBetween_of_noBareCycle hw⟩

/-- A tap on the first button, and three synchronisations more. -/
def bareCycle : List InputEvent := moveTo 5 5 ++ [sync, sync, sync, sync, sync]

/-- A tap, and then synchronisations without a coordinate. -/
theorem touchedBetween_iff_bareCycle :
    TouchedBetween (catchCalls [0, 1] sideBySide bareCycle [4, 3]).history ↔
      NoBareCycle [0, 1] sideBySide (catchCalls [0, 1] sideBySide bareCycle [4, 3]).events :=
  touchedBetween_iff [0, 1] sideBySide ⟨rfl, rfl⟩ bareCycle [4, 3]

/-- Three bare synchronisations after a tap activate the button again. -/
theorem not_touchedBetween_bareCycle :
    sideBySide.Initial ∧ (∀ b ∈ [0, 1], isFast sideBySide.mem b = false) ∧
      ¬ TouchedBetween (catchCalls [0, 1] sideBySide bareCycle [4, 3]).history := by
  refine ⟨⟨rfl, rfl⟩, by decide, fun h => ?_⟩
  rw [catchCalls, (Session.calls_trace _ sideBySide bareCycle [4, 3]).1] at h
  have hread : ((Session.start sideBySide bareCycle).calls (catchEvent [0, 1]) [4, 3]).events =
      moveTo 5 5 ++ [sync] ++ sync :: ([sync, sync, sync] ++ []) := by decide
  obtain ⟨e, he, habs⟩ := noBareCycle_of_touchedBetween ⟨rfl, rfl⟩ h
    (moveTo 5 5 ++ [sync]) sync [sync, sync, sync] [] hread (by decide) (by decide)
  exact absurd habs ((by decide : ∀ e ∈ [sync, sync, sync], ¬ e.IsAbs) e he)

end JzPretest.Widget

import JzPretest.TestKeyboard.CatchAction

set_option relaxedAutoImplicit false
set_option autoImplicit false

/-!
# Runs of `catch_action_for_button`

What any number of calls of `catch_action_for_button` do to the touch record, from the state
`init_param` leaves. The record is that of the touch machine alone, but for the remembered id,
and the id is that of the button the finger was last seen on.

## Main definitions

* `JzPretest.Widget.World.Initial` — the state `init_param` leaves.
* `JzPretest.Widget.catchCalls` — successive calls of `catch_action_for_button`.
* `JzPretest.Widget.World.signals` — what a run of events says about the finger.
* `JzPretest.Widget.touchAfter` — the touch machine alone, along a run.
* `JzPretest.Widget.Reached` — what a run of events has made of a world.

## Main results

* `JzPretest.Widget.Reached.step` — one event more.
-/

namespace JzPretest.Widget

open EventLoop

/-! ## Runs -/

/-- `init_param`, for a screen of the given size. -/
def initParam (fbWidth fbHeight : Int32) (w : World) : World :=
  { w with
    panel := ⟨fbWidth, fbHeight, false⟩
    recTouch := { w.recTouch with state := .resetTouch, btId := 0 } }

/-- `set_swap`. -/
def setSwap (w : World) : World := { w with panel := { w.panel with swap := !w.panel.swap } }

/-- The touch record is as `init_param` leaves it. -/
def World.Initial (w : World) : Prop :=
  w.recTouch.state = .resetTouch ∧ w.recTouch.btId = 0

/-- `init_param` leaves the touch record in its initial state, and `set_swap` keeps it there. -/
theorem initial_initParam (fbWidth fbHeight : Int32) (w : World) :
    (initParam fbWidth fbHeight w).Initial ∧ (setSwap (initParam fbWidth fbHeight w)).Initial :=
  ⟨⟨rfl, rfl⟩, ⟨rfl, rfl⟩⟩

/-- Successive calls of `catch_action_for_button` on one list: the `i`-th call is made when
`ks[i]` events are waiting to be read. -/
def catchCalls (mlist : List Ptr) (w : World) (es : List InputEvent) (ks : List ℕ) :
    Session World InputEvent Int32 :=
  (Session.start w es).calls (catchEvent mlist) ks

/-- In the initial state the code remembers no button, and the finger has not been seen. -/
theorem World.Initial.tracks {w : World} (hw : w.Initial) (mlist : List Ptr) :
    Tracks mlist w .unseen :=
  ⟨by simp [Finger.unseen], hw.2, fun h => absurd hw.1 h⟩

/-- What the events say about the finger, one after another. -/
def signals (p : Panel) (mem : Ptr → Button) (mlist : List Ptr) :
    Touch → List InputEvent → List (Finger.Signal Ptr)
  | _, [] => []
  | m, t :: es => signalOf p mem mlist m t :: signals p mem mlist (getTouch p t m).2 es

/-- What the events say about the finger in a world. -/
def World.signals (mlist : List Ptr) (w : World) (es : List InputEvent) :
    List (Finger.Signal Ptr) :=
  Widget.signals w.panel w.mem mlist w.recTouch es

/-- The touch machine never looks at the remembered id. -/
lemma getTouch_withBtId (p : Panel) (t : InputEvent) (m : Touch) (id : Int32) :
    getTouch p t { m with btId := id } =
      ((getTouch p t m).1, { (getTouch p t m).2 with btId := id }) := by
  unfold getTouch
  dsimp only
  split_ifs <;> rfl

/-- Signals depend neither on the remembered id nor on what the loop writes to the buttons. -/
lemma signals_congr (p : Panel) {mem mem' : Ptr → Button} (h : SameSetup mem mem')
    (mlist : List Ptr) (id : Int32) (m : Touch) (es : List InputEvent) :
    signals p mem' mlist { m with btId := id } es = signals p mem mlist m es := by
  induction es generalizing m with
  | nil => rfl
  | cons t es ih =>
    simp only [signals, signalOf, getTouch_withBtId, ih, h.findButtonByPosition_eq]
    rfl

/-- No event, no signal. -/
@[simp] theorem World.signals_nil (mlist : List Ptr) (w : World) : w.signals mlist [] = [] := rfl

/-- The signals of a run are the signal of its first event, then those of the rest of the run. -/
theorem World.signals_cons (mlist : List Ptr) (w : World) (t : InputEvent)
    (es : List InputEvent) : w.signals mlist (t :: es) =
      w.signal mlist t :: (catchEvent mlist w t).1.signals mlist es := by
  have h := (catchEvent_sameButState mlist w t).sameSetup
  simp only [World.signals, signals, catchEvent_panel, catchEvent_recTouch, signals_congr _ h]
  rfl

/-- Along every run the record agrees with the finger. -/
theorem World.Initial.tracks_stateAfter {w : World} (hw : w.Initial) (mlist : List Ptr)
    (es : List InputEvent) : ∃ f, Tracks mlist (stateAfter (catchEvent mlist) w es) f :=
  stateAfter_invariant (catchEvent mlist) (I := fun v => ∃ f, Tracks mlist v f)
    (fun _ e ⟨_, hf⟩ => ⟨_, (hf.step e).1⟩) ⟨_, hw.tracks mlist⟩ es

/-! ## The touch machine along a run -/

/-- The touch record after a list of events, the remembered id left out. -/
def touchAfter (p : Panel) (m : Touch) (es : List InputEvent) : Touch :=
  es.foldl (fun m t => (getTouch p t m).2) m

/-- No event leaves the touch. -/
@[simp] lemma touchAfter_nil (p : Panel) (m : Touch) : touchAfter p m [] = m := rfl

/-- The first event, and then the others. -/
@[simp] theorem touchAfter_cons (p : Panel) (m : Touch) (t : InputEvent)
    (es : List InputEvent) :
    touchAfter p m (t :: es) = touchAfter p (getTouch p t m).2 es := rfl

/-- Events come one after the other. -/
theorem touchAfter_append (p : Panel) (m : Touch) (es es' : List InputEvent) :
    touchAfter p m (es ++ es') = touchAfter p (touchAfter p m es) es' := by
  simp [touchAfter]

/-- The remembered id has no part in the touch machine. -/
theorem touchAfter_withBtId (p : Panel) (m : Touch) (id : Int32) (es : List InputEvent) :
    touchAfter p { m with btId := id } es = { touchAfter p m es with btId := id } := by
  induction es generalizing m with
  | nil => rfl
  | cons t es ih => rw [touchAfter_cons, getTouch_withBtId, ih, touchAfter_cons]

/-- **Along a run** the code's touch record is that of the touch machine, but for the remembered
id, and the buttons stay as they were set up. -/
theorem stateAfter_catchEvent (mlist : List Ptr) (w : World) (es : List InputEvent) :
    (∃ id, (stateAfter (catchEvent mlist) w es).recTouch =
      { touchAfter w.panel w.recTouch es with btId := id }) ∧
    SameSetup w.mem (stateAfter (catchEvent mlist) w es).mem ∧
    (stateAfter (catchEvent mlist) w es).panel = w.panel := by
  induction es generalizing w with
  | nil => exact ⟨⟨_, rfl⟩, SameSetup.refl _, rfl⟩
  | cons t es ih =>
    obtain ⟨⟨id, hr⟩, hs, hp⟩ := ih (catchEvent mlist w t).1
    refine ⟨⟨id, ?_⟩, (catchEvent_sameButState mlist w t).sameSetup.trans hs,
      hp.trans (catchEvent_panel mlist w t)⟩
    rw [stateAfter_cons, hr, catchEvent_recTouch, catchEvent_panel, touchAfter_withBtId,
      touchAfter_cons]

/-- The button under the touch along a run is that under the touch machine's position. -/
theorem findButtonByPosition_stateAfter (mlist : List Ptr) (w : World) (es : List InputEvent) :
    findButtonByPosition (stateAfter (catchEvent mlist) w es).mem
        (stateAfter (catchEvent mlist) w es).recTouch mlist =
      findButtonByPosition w.mem (touchAfter w.panel w.recTouch es) mlist := by
  obtain ⟨⟨id, hr⟩, hs, -⟩ := stateAfter_catchEvent mlist w es
  rw [hr, hs.findButtonByPosition_eq]
  rfl

/-- The signals of two lists of events are those of the first, then those of the second from
where the touch machine stands after the first. -/
private lemma signals_append (p : Panel) (mem : Ptr → Button) (mlist : List Ptr) (m : Touch)
    (es es' : List InputEvent) :
    signals p mem mlist m (es ++ es') =
      signals p mem mlist m es ++ signals p mem mlist (touchAfter p m es) es' := by
  induction es generalizing m with
  | nil => rfl
  | cons t es ih => simp [signals, ih]

/-! ## What a run has made of a world -/

/-- The events `es`, and whatever else was done meanwhile to results and modes, have made `v` of
the world `w`: the touch machine stands where they leave it, the buttons are set up as they
were, and the record agrees with what the events say about the finger. -/
structure Reached (mlist : List Ptr) (w : World) (es : List InputEvent) (v : World) : Prop where
  recTouch : ∃ id, v.recTouch = { touchAfter w.panel w.recTouch es with btId := id }
  setup : SameSetup w.mem v.mem
  panel : v.panel = w.panel
  tracks : Tracks mlist v (Finger.unseen.after (w.signals mlist es))

namespace Reached

variable {mlist : List Ptr} {w v : World} {es : List InputEvent}

/-- Nothing has happened yet. -/
theorem refl (hw : w.Initial) (mlist : List Ptr) : Reached mlist w [] w :=
  ⟨⟨_, rfl⟩, SameSetup.refl _, rfl, hw.tracks mlist⟩

/-- The signals of one event more. -/
theorem signals_concat (h : Reached mlist w es v) (t : InputEvent) :
    w.signals mlist (es ++ [t]) = w.signals mlist es ++ [v.signal mlist t] := by
  obtain ⟨id, hr⟩ := h.recTouch
  have hone : v.signals mlist [t] =
      signals w.panel w.mem mlist (touchAfter w.panel w.recTouch es) [t] := by
    rw [World.signals, h.panel, hr, signals_congr w.panel h.setup]
  rw [World.signals, signals_append, ← hone]
  rfl

/-- **One event more**: what is reached, and what the loop returns on the event.

**Proof sketch.** The finger is tracked through the event (`Tracks.step`); ids and fast buttons are
those of the beginning, and the touch record is that of the events so far. -/
theorem step (h : Reached mlist w es v) (t : InputEvent) :
    Reached mlist w (es ++ [t]) (catchEvent mlist v t).1 ∧
      (catchEvent mlist v t).2 =
        ((Finger.unseen.after (w.signals mlist es)).outcome (isFast w.mem)
          (v.signal mlist t)).map (idOf w.mem) := by
  obtain ⟨htracks, hret⟩ := h.tracks.step t
  obtain ⟨id, hr⟩ := h.recTouch
  have hfast : isFast v.mem = isFast w.mem := by
    funext b
    simp only [isFast, h.setup.fastTouch_eq]
  have hid : idOf v.mem = idOf w.mem := by
    funext b
    exact h.setup.idOf_eq b
  have htouch : (getTouch v.panel t v.recTouch).2 =
      { touchAfter w.panel w.recTouch (es ++ [t]) with btId := id } := by
    rw [h.panel, hr, getTouch_withBtId, touchAfter_append, touchAfter_cons, touchAfter_nil]
  refine ⟨⟨⟨btIdAfter v.mem v.recTouch.btId (v.signal mlist t), ?_⟩,
    h.setup.trans (catchEvent_sameButState mlist v t).sameSetup,
    (catchEvent_panel mlist v t).trans h.panel, ?_⟩, ?_⟩
  · rw [catchEvent_recTouch, htouch]
  · rw [h.signals_concat, Finger.after_concat]
    exact htracks
  · rw [hret, hfast, hid]

/-- What is done to results and modes does not matter. -/
theorem congr (h : Reached mlist w es v) {v' : World} (hm : SameSetup v.mem v'.mem)
    (hr : v'.recTouch = v.recTouch) (hp : v'.panel = v.panel) : Reached mlist w es v' := by
  refine ⟨by rw [hr]; exact h.recTouch, h.setup.trans hm, hp.trans h.panel, ?_⟩
  refine ⟨h.tracks.mem_list, ?_, ?_⟩
  · rw [hr, hm.idOf_eq]
    exact h.tracks.btId
  · rw [hr, hm.findButtonByPosition_eq]
    exact h.tracks.current

end Reached

/-! ## Two buttons side by side

The input on which the results of this file and the next are tried out. -/

/-- Two slow buttons in one row, with ids `1` and `2`; the lists below hold the addresses `0`
and `1`. -/
def sideBySide : World where
  mem p :=
    { id := if p = 0 then 1 else 2
      mode := .normal
      style := .custom
      drawButtonInEnd := .enable
      fastTouch := .disable
      state := .resetTouch
      result := 0
      ps := ⟨if p = 0 then 0 else 20, 0, 10, 10⟩
      param := none
      func := none }
  screen _ := .release
  recTouch := ⟨0, 0, .resetTouch, 0⟩
  panel := ⟨100, 100, false⟩

/-- The position events of a report. -/
def moveTo (x y : Int32) : List InputEvent :=
  [⟨evAbs, absMtPositionX, x⟩, ⟨evAbs, absMtPositionY, y⟩]

/-- The synchronisation that completes a report, or says that the finger has been lifted. -/
def sync : InputEvent := ⟨evSyn, 0, 0⟩

/-- A tap on the first button, and the first report of a second one. -/
def tapAgain : List InputEvent := moveTo 5 5 ++ [sync, sync] ++ moveTo 5 5 ++ [sync]

end JzPretest.Widget

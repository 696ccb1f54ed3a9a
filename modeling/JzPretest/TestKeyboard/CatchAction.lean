import JzPretest.Semantics.EventLoop
import JzPretest.TestKeyboard.Finger
import JzPretest.TestKeyboard.Widget

set_option relaxedAutoImplicit false
set_option autoImplicit false

/-!
# `catch_action_for_button`

The loop of `catch_action_for_button` reads one event after another, moves the touch machine
and, when a report is complete, marks, unmarks and draws buttons. One pass of the loop is
`JzPretest.Widget.catchEvent`; the function is the read loop over it.

## Main definitions

* `JzPretest.Widget.catchEvent` — one pass of the loop.
* `JzPretest.Widget.catchActionForButton` — the function.
* `JzPretest.Widget.signalOf` — what an event says about the finger.
* `JzPretest.Widget.Tracks` — the code's record agrees with what the finger did.

## Main results

* `JzPretest.Widget.catchActionForButton_ret` — a call returns what its last event ended it with.
* `JzPretest.Widget.catchEvent_sameButState` — the loop changes nothing of a button but its state.
* `JzPretest.Widget.Tracks.step` — the loop refines `JzPretest.Finger`: it remembers the
  button under the last frame, and returns its id when the finger's signal says so.
-/

namespace JzPretest.Widget

open EventLoop

/-! ## The function -/

/-- What `case KEEP_TOUCH` does to the button the touch has left: it is no longer marked, and it
is drawn if it asks for that. -/
def leaveButton (lastButton : Ptr) (w : World) : World :=
  let w := w.setState lastButton .resetTouch
  if (w.mem lastButton).drawButtonInEnd = .enable then drawButton lastButton w else w

/-- What `case KEEP_TOUCH` does to the button the touch has entered. -/
def enterButton (mbutton : Ptr) (w : World) : World :=
  drawButton mbutton (w.setState mbutton .keepTouch)

/-- `case KEEP_TOUCH` of the switch in `catch_action_for_button`: the world it leaves, and the
id it returns if it returns. -/
def caseKeepTouch (mlist : List Ptr) (w : World) : World × Option Int32 :=
  match findButtonByPosition w.mem w.recTouch mlist with
  | none =>
    match findButtonById w.mem w.recTouch.btId mlist with
    | none => (w.setBtId 0, none)
    | some lastButton => ((leaveButton lastButton w).setBtId 0, none)
  | some mbutton =>
    match findButtonById w.mem w.recTouch.btId mlist with
    | none =>
      let w := enterButton mbutton w
      let w := w.setBtId (w.mem mbutton).id
      if (w.mem mbutton).fastTouch = .enable then (w, some w.recTouch.btId) else (w, none)
    | some lastButton =>
      let w :=
        if (w.mem lastButton).id ≠ (w.mem mbutton).id then
          enterButton mbutton (leaveButton lastButton w)
        else w
      let w := w.setBtId (w.mem mbutton).id
      if (w.mem mbutton).fastTouch = .enable then (w, some w.recTouch.btId) else (w, none)

/-- `case END_TOUCH` of the switch in `catch_action_for_button`. -/
def caseEndTouch (mlist : List Ptr) (w : World) : World × Option Int32 :=
  match findButtonById w.mem w.recTouch.btId mlist with
  | none => (w, some w.recTouch.btId)
  | some mbutton =>
    let w := w.setState mbutton .resetTouch
    let w := if (w.mem mbutton).drawButtonInEnd ≠ .disable then drawButton mbutton w else w
    (w, some w.recTouch.btId)

/-- One pass of the loop of `catch_action_for_button`, on the event that was read. -/
def catchEvent (mlist : List Ptr) (w : World) (t : InputEvent) : World × Option Int32 :=
  let r := getTouch w.panel t w.recTouch
  let w := { w with recTouch := r.2 }
  if r.1 = 0 then
    match w.recTouch.state with
    | .keepTouch => caseKeepTouch mlist w
    | .endTouch => caseEndTouch mlist w
    | .resetTouch => (w, none)
  else (w, none)

/-- `catch_action_for_button`: the returned id, `0` when the queue runs empty, and the call. -/
def catchActionForButton (mlist : List Ptr) (w : World) (queue : List InputEvent) :
    Int32 × Call World InputEvent Int32 :=
  let c := drain (catchEvent mlist) w queue
  (c.ret.getD 0, c)

/-- The id a call returns is the one with which its last event ended it, `0` when no event did;
the events before it were passed over. -/
theorem catchActionForButton_ret (mlist : List Ptr) (w : World) (queue : List InputEvent) :
    (catchActionForButton mlist w queue).1 =
        ((catchActionForButton mlist w queue).2.reads.getLast?.bind Read.ret).getD 0 ∧
      ∀ r ∈ (catchActionForButton mlist w queue).2.reads.dropLast, r.ret = none := by
  obtain ⟨hret, hinit⟩ := drain_ret (catchEvent mlist) w queue
  exact ⟨congrArg (Option.getD · 0) hret, hinit⟩

/-! ## What stays as it was set up -/

/-- The fields of a button that are set up before anybody touches it. -/
def Button.fixed (b : Button) : Button :=
  { b with state := .resetTouch, result := 0, mode := .normal }

/-- The buttons of two memories were set up alike. -/
def SameSetup (mem mem' : Ptr → Button) : Prop := ∀ p, (mem' p).fixed = (mem p).fixed

namespace SameSetup

variable {mem mem' mem'' : Ptr → Button}

/-- Nothing has been set. -/
theorem refl (mem : Ptr → Button) : SameSetup mem mem := fun _ => rfl

/-- Changes of the state and the result one after the other. -/
theorem trans (h : SameSetup mem mem') (h' : SameSetup mem' mem'') : SameSetup mem mem'' :=
  fun p => (h' p).trans (h p)

/-- The number stays. -/
theorem id_eq (h : SameSetup mem mem') (p : Ptr) : (mem' p).id = (mem p).id := by
  simpa [Button.fixed] using congrArg Button.id (h p)

/-- The place stays. -/
private lemma ps_eq (h : SameSetup mem mem') (p : Ptr) : (mem' p).ps = (mem p).ps := by
  simpa [Button.fixed] using congrArg Button.ps (h p)

/-- The mode of touching stays. -/
theorem fastTouch_eq (h : SameSetup mem mem') (p : Ptr) :
    (mem' p).fastTouch = (mem p).fastTouch := by
  simpa [Button.fixed] using congrArg Button.fastTouch (h p)

/-- So does that of drawing. -/
theorem drawButtonInEnd_eq (h : SameSetup mem mem') (p : Ptr) :
    (mem' p).drawButtonInEnd = (mem p).drawButtonInEnd := by
  simpa [Button.fixed] using congrArg Button.drawButtonInEnd (h p)

/-- The function stays. -/
theorem func_eq (h : SameSetup mem mem') (p : Ptr) : (mem' p).func = (mem p).func := by
  simpa [Button.fixed] using congrArg Button.func (h p)

/-- So does its argument. -/
theorem param_eq (h : SameSetup mem mem') (p : Ptr) : (mem' p).param = (mem p).param := by
  simpa [Button.fixed] using congrArg Button.param (h p)

/-- The lookup by position only reads what was set up. -/
theorem findButtonByPosition_eq (h : SameSetup mem mem') (m : Touch) (l : List Ptr) :
    findButtonByPosition mem' m l = findButtonByPosition mem m l := by
  simp only [findButtonByPosition, isTouchingButton, h.ps_eq]

/-- The lookup by id only reads what was set up. -/
theorem findButtonById_eq (h : SameSetup mem mem') (id : Int32) (l : List Ptr) :
    findButtonById mem' id l = findButtonById mem id l := by
  simp only [findButtonById, h.id_eq]

end SameSetup

/-- The two memories differ in the states of buttons only. -/
def SameButState (mem mem' : Ptr → Button) : Prop :=
  ∀ p, { mem' p with state := .resetTouch } = { mem p with state := .resetTouch }

namespace SameButState

variable {mem mem' mem'' : Ptr → Button}

/-- Nothing has changed. -/
lemma refl (mem : Ptr → Button) : SameButState mem mem := fun _ => rfl

/-- Changes of the state one after the other. -/
private lemma trans (h : SameButState mem mem') (h' : SameButState mem' mem'') :
    SameButState mem mem'' :=
  fun p => (h' p).trans (h p)

/-- What has been set stays. -/
theorem sameSetup (h : SameButState mem mem') : SameSetup mem mem' := fun p => by
  simpa [Button.fixed] using congrArg Button.fixed (h p)

/-- The mode stays. -/
theorem mode_eq (h : SameButState mem mem') (p : Ptr) : (mem' p).mode = (mem p).mode := by
  simpa using congrArg Button.mode (h p)

/-- The result stays. -/
theorem result_eq (h : SameButState mem mem') (p : Ptr) : (mem' p).result = (mem p).result := by
  simpa using congrArg Button.result (h p)

end SameButState

/-- Remembering a number changes no button. -/
@[simp] theorem setBtId_mem (w : World) (id : Int32) : (w.setBtId id).mem = w.mem := rfl

/-- Nor the panel. -/
@[simp] theorem setBtId_panel (w : World) (id : Int32) : (w.setBtId id).panel = w.panel := rfl

/-- The number is remembered. -/
@[simp] theorem setBtId_recTouch (w : World) (id : Int32) :
    (w.setBtId id).recTouch = { w.recTouch with btId := id } := rfl

/-- Marking a button leaves the touch. -/
@[simp] theorem setState_recTouch (w : World) (b : Ptr) (s : TouchState) :
    (w.setState b s).recTouch = w.recTouch := rfl

/-- Drawing one leaves it. -/
@[simp] lemma drawButton_recTouch (w : World) (b : Ptr) :
    (drawButton b w).recTouch = w.recTouch := by
  rw [drawButton_eq]

/-- Only the state of the one button is written. -/
lemma sameButState_setState (w : World) (b : Ptr) (s : TouchState) :
    SameButState w.mem (w.setState b s).mem := by
  intro p
  by_cases h : p = b
  · subst h
    simp [World.setState]
  · simp [World.setState, h]

/-- What leaving a button writes. -/
theorem leaveButton_eq (b : Ptr) (w : World) :
    leaveButton b w =
      { w.setState b .resetTouch with
        screen := if (w.mem b).drawButtonInEnd = .enable then
          Function.update w.screen b .release else w.screen } := by
  have hdraw : ((w.setState b .resetTouch).mem b).drawButtonInEnd =
      (w.mem b).drawButtonInEnd := by simp [World.setState]
  simp only [leaveButton, drawButton_eq, hdraw]
  split_ifs
  · simp [World.setState, TouchState.image]
  · rfl

/-- What entering a button writes. -/
theorem enterButton_eq (b : Ptr) (w : World) :
    enterButton b w =
      { w.setState b .keepTouch with screen := Function.update w.screen b .press } := by
  simp [enterButton, drawButton_eq, World.setState, TouchState.image]

/-- Lifting the finger leaves the remembered button, if there is one. -/
theorem caseEndTouch_eq (mlist : List Ptr) (w : World) :
    caseEndTouch mlist w =
      (match findButtonById w.mem w.recTouch.btId mlist with
        | none => w
        | some b => leaveButton b w, some w.recTouch.btId) := by
  unfold caseEndTouch leaveButton
  cases findButtonById w.mem w.recTouch.btId mlist with
  | none => rfl
  | some b =>
    dsimp only
    cases ((w.setState b .resetTouch).mem b).drawButtonInEnd <;> simp

/-- The button that is left is marked as released. -/
@[simp] theorem leaveButton_mem (b : Ptr) (w : World) :
    (leaveButton b w).mem = (w.setState b .resetTouch).mem := by
  rw [leaveButton_eq]

/-- The touch stays. -/
@[simp] lemma leaveButton_recTouch (b : Ptr) (w : World) :
    (leaveButton b w).recTouch = w.recTouch := by
  rw [leaveButton_eq]; rfl

/-- The panel stays. -/
@[simp] lemma leaveButton_panel (b : Ptr) (w : World) :
    (leaveButton b w).panel = w.panel := by
  rw [leaveButton_eq]; rfl

/-- The button that is entered is marked as touched. -/
@[simp] theorem enterButton_mem (b : Ptr) (w : World) :
    (enterButton b w).mem = (w.setState b .keepTouch).mem := by
  rw [enterButton_eq]

/-- The touch stays. -/
@[simp] lemma enterButton_recTouch (b : Ptr) (w : World) :
    (enterButton b w).recTouch = w.recTouch := by
  rw [enterButton_eq]; rfl

/-- The panel stays. -/
@[simp] lemma enterButton_panel (b : Ptr) (w : World) :
    (enterButton b w).panel = w.panel := by
  rw [enterButton_eq]; rfl

/-- Leaving one button and entering another writes states only. -/
private lemma sameButState_enter_leave (w : World) (b b' : Ptr) :
    SameButState w.mem (enterButton b (leaveButton b' w)).mem := by
  have h : SameButState w.mem (leaveButton b' w).mem := by
    simpa using sameButState_setState w b' .resetTouch
  simpa using h.trans (sameButState_setState (leaveButton b' w) b .keepTouch)

/-- The id of a button, `0` for none. -/
def idOf (mem : Ptr → Button) : Option Ptr → Int32
  | none => 0
  | some b => (mem b).id

/-- Whether a button acts when it is touched. -/
def isFast (mem : Ptr → Button) (b : Ptr) : Bool := (mem b).fastTouch = .enable

/-- **What a completed report does** to everything but the marks and the screen: the button
under the touch is remembered, and its id is returned if it is a fast one.

**Proof sketch.** By whether there is a button under the touch and whether one is remembered.
Entering and leaving change marks and the screen only; two different ids are the case in which the
touch has moved to another button. -/
theorem caseKeepTouch_spec (mlist : List Ptr) (w : World) :
    SameButState w.mem (caseKeepTouch mlist w).1.mem ∧
      (caseKeepTouch mlist w).1.panel = w.panel ∧
      (caseKeepTouch mlist w).1.recTouch = { w.recTouch with
        btId := idOf w.mem (findButtonByPosition w.mem w.recTouch mlist) } ∧
      (caseKeepTouch mlist w).2 = (findButtonByPosition w.mem w.recTouch mlist).bind fun b =>
        if isFast w.mem b then some (w.mem b).id else none := by
  unfold caseKeepTouch
  cases findButtonByPosition w.mem w.recTouch mlist with
  | none =>
    cases findButtonById w.mem w.recTouch.btId mlist with
    | none => exact ⟨SameButState.refl _, rfl, rfl, rfl⟩
    | some b' => exact ⟨by simpa using sameButState_setState w b' _, by simp, by simp [idOf], rfl⟩
  | some b =>
    cases findButtonById w.mem w.recTouch.btId mlist with
    | none =>
      have h := sameButState_setState w b .keepTouch
      rw [← enterButton_mem] at h
      have hid := h.sameSetup.id_eq b
      have hfast := h.sameSetup.fastTouch_eq b
      simp only [setBtId_mem, hid, hfast, isFast, idOf, Option.bind_some, decide_eq_true_eq]
      split_ifs
      · exact ⟨h, by simp, by simp, by simp⟩
      · exact ⟨h, by simp, by simp, rfl⟩
    | some b' =>
      by_cases hne : (w.mem b').id ≠ (w.mem b).id
      · have h := sameButState_enter_leave w b b'
        have hid := h.sameSetup.id_eq b
        have hfast := h.sameSetup.fastTouch_eq b
        simp only [if_pos hne, setBtId_mem, hid, hfast, isFast, idOf, Option.bind_some,
          decide_eq_true_eq]
        split_ifs
        · exact ⟨h, by simp, by simp, by simp⟩
        · exact ⟨h, by simp, by simp, rfl⟩
      · simp only [if_neg hne, setBtId_mem, isFast, idOf, Option.bind_some, decide_eq_true_eq]
        split_ifs
        · exact ⟨SameButState.refl _, rfl, rfl, by simp⟩
        · exact ⟨SameButState.refl _, rfl, rfl, rfl⟩

/-- What lifting the finger does to everything but the marks and the screen: the id that is
remembered is returned, and stays remembered. -/
private lemma caseEndTouch_spec (mlist : List Ptr) (w : World) :
    SameButState w.mem (caseEndTouch mlist w).1.mem ∧
      (caseEndTouch mlist w).1.panel = w.panel ∧
      (caseEndTouch mlist w).1.recTouch = w.recTouch ∧
      (caseEndTouch mlist w).2 = some w.recTouch.btId := by
  rw [caseEndTouch_eq]
  cases findButtonById w.mem w.recTouch.btId mlist with
  | none => exact ⟨SameButState.refl _, rfl, rfl, rfl⟩
  | some b => exact ⟨by simpa using sameButState_setState w b _, by simp, by simp, rfl⟩

/-! ## One pass of the loop -/

/-- What an event says about the finger, to a touch machine standing at `m`. -/
def signalOf (p : Panel) (mem : Ptr → Button) (mlist : List Ptr) (m : Touch) (t : InputEvent) :
    Finger.Signal Ptr :=
  let r := getTouch p t m
  if r.1 = 0 then
    match r.2.state with
    | .keepTouch => .frame (findButtonByPosition mem r.2 mlist)
    | .endTouch => .up
    | .resetTouch => .idle
  else .idle

/-- What an event says about the finger in a world. -/
def World.signal (mlist : List Ptr) (w : World) (t : InputEvent) : Finger.Signal Ptr :=
  signalOf w.panel w.mem mlist w.recTouch t

/-- The id that is remembered after a signal. -/
def btIdAfter (mem : Ptr → Button) (id : Int32) : Finger.Signal Ptr → Int32
  | .frame b => idOf mem b
  | _ => id

/-- The id that is returned on a signal. -/
def returnOn (mem : Ptr → Button) (id : Int32) : Finger.Signal Ptr → Option Int32
  | .idle => none
  | .frame b => b.bind fun b => if isFast mem b then some (mem b).id else none
  | .up => some id

/-- **What one pass of the loop does** to everything but the marks and the screen.

**Proof sketch.** By the return code of `get_touch` and the state of the touch: two of the cases
have their own lemma, and the others change nothing. -/
theorem catchEvent_spec (mlist : List Ptr) (w : World) (t : InputEvent) :
    SameButState w.mem (catchEvent mlist w t).1.mem ∧
      (catchEvent mlist w t).1.panel = w.panel ∧
      (catchEvent mlist w t).1.recTouch = { (getTouch w.panel t w.recTouch).2 with
        btId := btIdAfter w.mem (getTouch w.panel t w.recTouch).2.btId (w.signal mlist t) } ∧
      (catchEvent mlist w t).2 =
        returnOn w.mem (getTouch w.panel t w.recTouch).2.btId (w.signal mlist t) := by
  unfold catchEvent World.signal signalOf
  generalize getTouch w.panel t w.recTouch = r
  obtain ⟨code, x, y, state, id⟩ := r
  dsimp only
  by_cases h : code = 0
  · rw [if_pos h, if_pos h]
    cases state with
    | resetTouch => exact ⟨SameButState.refl _, rfl, rfl, rfl⟩
    | keepTouch => exact caseKeepTouch_spec mlist { w with recTouch := ⟨x, y, .keepTouch, id⟩ }
    | endTouch => exact caseEndTouch_spec mlist { w with recTouch := ⟨x, y, .endTouch, id⟩ }
  · rw [if_neg h, if_neg h]
    exact ⟨SameButState.refl _, rfl, rfl, rfl⟩

/-- The touch machine leaves the remembered id alone. -/
@[simp] theorem getTouch_btId (p : Panel) (t : InputEvent) (m : Touch) :
    (getTouch p t m).2.btId = m.btId := by
  rcases getTouch_cases p t m with ⟨-, x, y, h⟩ | ⟨-, h⟩ | ⟨-, -, h⟩ <;> rw [h]

/-- One pass of the loop changes nothing of a button but its state. -/
theorem catchEvent_sameButState (mlist : List Ptr) (w : World) (t : InputEvent) :
    SameButState w.mem (catchEvent mlist w t).1.mem :=
  (catchEvent_spec mlist w t).1

/-- One pass of the loop leaves the screen constants alone. -/
@[simp] theorem catchEvent_panel (mlist : List Ptr) (w : World) (t : InputEvent) :
    (catchEvent mlist w t).1.panel = w.panel :=
  (catchEvent_spec mlist w t).2.1

/-- One pass of the loop moves the touch record as `get_touch` does, and then remembers an
id. -/
theorem catchEvent_recTouch (mlist : List Ptr) (w : World) (t : InputEvent) :
    (catchEvent mlist w t).1.recTouch = { (getTouch w.panel t w.recTouch).2 with
      btId := btIdAfter w.mem w.recTouch.btId (w.signal mlist t) } := by
  simpa using (catchEvent_spec mlist w t).2.2.1

/-- What one pass of the loop returns. -/
theorem catchEvent_ret (mlist : List Ptr) (w : World) (t : InputEvent) :
    (catchEvent mlist w t).2 = returnOn w.mem w.recTouch.btId (w.signal mlist t) := by
  simpa using (catchEvent_spec mlist w t).2.2.2

/-- **Everything one event can do** to the touch record: a position event begins a new report; a
synchronisation completes a report, lifts the finger, or goes back to the start; any other event
does nothing.

**Proof sketch.** By `getTouch_cases`: a position event starts a report, a synchronisation moves the
state on by one, and any other event leaves it alone. -/
theorem catchEvent_cases (mlist : List Ptr) (w : World) (t : InputEvent) :
    (t.IsAbs ∧ w.signal mlist t = .idle ∧ ∃ x y, (catchEvent mlist w t).1.recTouch =
      { w.recTouch with x := x, y := y, state := .resetTouch }) ∨
    (t.IsSync ∧ w.recTouch.state = .resetTouch ∧
      w.signal mlist t = .frame (findButtonByPosition w.mem w.recTouch mlist) ∧
      (catchEvent mlist w t).1.recTouch = { w.recTouch with
        state := .keepTouch
        btId := idOf w.mem (findButtonByPosition w.mem w.recTouch mlist) }) ∨
    (t.IsSync ∧ w.recTouch.state = .keepTouch ∧ w.signal mlist t = .up ∧
      (catchEvent mlist w t).1.recTouch = { w.recTouch with state := .endTouch }) ∨
    (t.IsSync ∧ w.recTouch.state = .endTouch ∧ w.signal mlist t = .idle ∧
      (catchEvent mlist w t).1.recTouch = { w.recTouch with state := .resetTouch }) ∨
    (¬ t.IsAbs ∧ ¬ t.IsSync ∧ w.signal mlist t = .idle ∧
      (catchEvent mlist w t).1.recTouch = w.recTouch) := by
  have htouch := catchEvent_recTouch mlist w t
  rcases getTouch_cases w.panel t w.recTouch with ⟨ht, x, y, hg⟩ | ⟨ht, hg⟩ | ⟨ha, hs, hg⟩
  · have hsig : w.signal mlist t = .idle := by simp [World.signal, signalOf, hg]
    rw [hg, hsig] at htouch
    exact Or.inl ⟨ht, hsig, x, y, htouch⟩
  · cases hs : w.recTouch.state with
    | resetTouch =>
      have hsig : w.signal mlist t =
          .frame (findButtonByPosition w.mem w.recTouch mlist) := by
        simp only [World.signal, signalOf, hg, hs, TouchState.sync]
        rfl
      rw [hg, hsig, hs] at htouch
      exact Or.inr (Or.inl ⟨ht, rfl, hsig, htouch⟩)
    | keepTouch =>
      have hsig : w.signal mlist t = .up := by
        simp [World.signal, signalOf, hg, hs, TouchState.sync]
      rw [hg, hsig, hs] at htouch
      exact Or.inr (Or.inr (Or.inl ⟨ht, rfl, hsig, htouch⟩))
    | endTouch =>
      have hsig : w.signal mlist t = .idle := by
        simp [World.signal, signalOf, hg, hs, TouchState.sync]
      rw [hg, hsig, hs] at htouch
      exact Or.inr (Or.inr (Or.inr (Or.inl ⟨ht, rfl, hsig, htouch⟩)))
  · have hsig : w.signal mlist t = .idle := by simp [World.signal, signalOf, hg]
    rw [hg, hsig] at htouch
    exact Or.inr (Or.inr (Or.inr (Or.inr ⟨ha, hs, hsig, htouch⟩)))

/-! ## The remembered button -/

/-- The code's record agrees with what the finger did: it remembers the button under the last
frame, which is the one under the touch as long as no new report has begun. -/
structure Tracks (mlist : List Ptr) (w : World) (f : Finger Ptr) : Prop where
  /-- The button under the last frame is one of the list. -/
  mem_list : ∀ b ∈ f.under, b ∈ mlist
  /-- Its id is remembered. -/
  btId : w.recTouch.btId = idOf w.mem f.under
  /-- Once a report is complete it is the button under the touch. -/
  current : w.recTouch.state ≠ .resetTouch →
    f.under = findButtonByPosition w.mem w.recTouch mlist

/-- The id of a button does not depend on its state. -/
theorem SameSetup.idOf_eq {mem mem' : Ptr → Button} (h : SameSetup mem mem')
    (b : Option Ptr) : idOf mem' b = idOf mem b := by
  cases b with
  | none => rfl
  | some b => exact h.id_eq b

/-- A button on which the finger is seen is one of the list. -/
theorem World.mem_of_signal_eq_frame {mlist : List Ptr} {w : World} {t : InputEvent} {b : Ptr}
    (h : w.signal mlist t = .frame (some b)) : b ∈ mlist := by
  unfold World.signal signalOf at h
  dsimp only at h
  split_ifs at h
  split at h
  · exact (findButtonByPosition_some (Finger.Signal.frame.inj h)).1
  · simp at h
  · simp at h

/-- A button with which a signal ends a call is one of the list.

**Proof sketch.** By the signal: a frame has found its button in the list, and lifting ends with the
button that has been tracked. -/
theorem Tracks.mem_of_outcome {mlist : List Ptr} {w : World} {f : Finger Ptr}
    (h : Tracks mlist w f) {fast : Ptr → Bool} {t : InputEvent} {o : Option Ptr}
    (ho : f.outcome fast (w.signal mlist t) = some o) : ∀ b ∈ o, b ∈ mlist := by
  intro b hb
  obtain rfl : o = some b := hb
  cases hsig : w.signal mlist t with
  | idle => simp [hsig] at ho
  | frame u =>
    cases u with
    | none => simp [hsig] at ho
    | some b' =>
      rw [hsig, Finger.outcome_frame_some] at ho
      split_ifs at ho
      obtain rfl : b' = b := by simpa using ho
      exact World.mem_of_signal_eq_frame hsig
  | up =>
    rw [hsig, Finger.outcome_up] at ho
    exact h.mem_list b (Option.some.inj ho)

/-- A pass that keeps the finger where it is, and the id that is remembered, keeps the agreement. -/
lemma Tracks.keep {mlist : List Ptr} {w w' : World} {f f' : Finger Ptr} (h : Tracks mlist w f)
    (hunder : f'.under = f.under) (hset : SameSetup w.mem w'.mem)
    (hid : w'.recTouch.btId = w.recTouch.btId)
    (hcurrent : w'.recTouch.state ≠ .resetTouch →
      f.under = findButtonByPosition w.mem w'.recTouch mlist) : Tracks mlist w' f' := by
  refine ⟨?_, ?_, ?_⟩ <;> rw [hunder]
  · exact h.mem_list
  · rw [hid, hset.idOf_eq]
    exact h.btId
  · rw [hset.findButtonByPosition_eq]
    exact hcurrent

/-- **One pass of the loop refines the finger**: it keeps the record in agreement, and it ends
the call exactly when the signal does, with the id of the signal's button.

**Proof sketch.** By `catchEvent_cases`. A completed report remembers the button it finds; until
the machine is reset, the position, and so the button under it, stay as they are; once it is
reset, nothing has to be current. -/
theorem Tracks.step {mlist : List Ptr} {w : World} {f : Finger Ptr}
    (h : Tracks mlist w f) (t : InputEvent) :
    Tracks mlist (catchEvent mlist w t).1 (f.step (w.signal mlist t)) ∧
      (catchEvent mlist w t).2 =
        (f.outcome (isFast w.mem) (w.signal mlist t)).map (idOf w.mem) := by
  have hset := (catchEvent_sameButState mlist w t).sameSetup
  have hret := catchEvent_ret mlist w t
  rcases catchEvent_cases mlist w t with ⟨-, hsig, x, y, hr⟩ | ⟨-, -, hsig, hr⟩ |
    ⟨-, hs, hsig, hr⟩ | ⟨-, -, hsig, hr⟩ | ⟨-, -, hsig, hr⟩
  · rw [hsig] at hret ⊢
    exact ⟨h.keep rfl hset (by rw [hr]) (by rw [hr]; exact fun hne => absurd rfl hne), hret⟩
  · rw [hsig] at hret ⊢
    refine ⟨⟨fun b hb => (findButtonByPosition_some hb).1, ?_, ?_⟩, ?_⟩
    · rw [hr, hset.idOf_eq]
      rfl
    · rw [hr, hset.findButtonByPosition_eq]
      exact fun _ => rfl
    · rw [hret]
      cases findButtonByPosition w.mem w.recTouch mlist with
      | none => rfl
      | some b =>
        simp only [returnOn, Option.bind_some, Finger.outcome_frame_some]
        split_ifs <;> rfl
  · rw [hsig] at hret ⊢
    refine ⟨h.keep rfl hset (by rw [hr]) ?_, ?_⟩
    · rw [hr]
      exact fun _ => h.current (by simp [hs])
    · rw [hret, Finger.outcome_up, Option.map_some, ← h.btId]
      rfl
  · rw [hsig] at hret ⊢
    exact ⟨h.keep rfl hset (by rw [hr]) (by rw [hr]; exact fun hne => absurd rfl hne), hret⟩
  · rw [hsig] at hret ⊢
    exact ⟨h.keep rfl hset (by rw [hr]) (by rw [hr]; exact h.current), hret⟩

end JzPretest.Widget

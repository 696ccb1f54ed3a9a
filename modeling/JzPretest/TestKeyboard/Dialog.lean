import JzPretest.TestKeyboard.Listen
import JzPretest.TestKeyboard.Marks
import JzPretest.TestKeyboard.Setup

set_option relaxedAutoImplicit false
set_option autoImplicit false

/-!
# Dialogs

Most programs of the test suite are dialogs: they show a few buttons in `ECS_LISTEN` mode and
let the operator touch one of them, which ends the program. A dialog has one verdict, the first
button that is activated; `inputevent` turns it into its exit code.

## Main definitions

* `JzPretest.Widget.Dialog` — the buttons of a dialog.
* `JzPretest.Widget.World.verdict` — the button a run of events decides for.
* `JzPretest.Widget.Inputevent.main` — the program `inputevent`, up to `start_listen`.

## Main results

* `JzPretest.Widget.dialog_one_verdict` — `start_listen` returns exactly at the first activation,
  with the result of that button set and no other; so `inputevent` exits with `1` when the first
  button activated is `bt_fail`, and with `0` when it is `bt_pass`.
-/

namespace JzPretest.Widget

open EventLoop Transition

/-- The buttons of a dialog: each of them ends it, and none has a callback. -/
structure Dialog (mlist : List Ptr) (w : World) : Prop where
  initial : w.Initial
  distinct : DistinctIds w.mem mlist
  mode : ∀ b ∈ mlist, (w.mem b).mode = .ecsListen
  func : ∀ b ∈ mlist, (w.mem b).func = none
  result : ∀ b ∈ mlist, (w.mem b).result = 0

/-- The first button that the events activate: a fast one by a frame on it, any other one by
lifting the finger after a frame on it. -/
def World.verdict (mlist : List Ptr) (w : World) (es : List InputEvent) : Option Ptr :=
  Finger.unseen.verdict (isFast w.mem) (w.signals mlist es)

/-! ## Before and after the verdict -/

/-- The dialog goes on after the events `es`. -/
structure Undecided (mlist : List Ptr) (w : World) (es : List InputEvent) (v : World) :
    Prop where
  reached : Reached mlist w es v
  verdict : w.verdict mlist es = none
  mode : ∀ b ∈ mlist, (v.mem b).mode = .ecsListen
  func : ∀ b ∈ mlist, (v.mem b).func = none
  result : ∀ b ∈ mlist, (v.mem b).result = 0

/-- The dialog was decided by the last of the events `es`. -/
structure Decided (mlist : List Ptr) (w : World) (r : Int32) (es : List InputEvent) (v : World) :
    Prop where
  returned : r = 0
  first : ∃ pre t, es = pre ++ [t] ∧ w.verdict mlist pre = none
  result : ∃ b ∈ mlist, w.verdict mlist es = some b ∧
    ∀ b' ∈ mlist, (v.mem b').result = if b' = b then 1 else 0

/-- A dialog starts undecided. -/
lemma Dialog.undecided {mlist : List Ptr} {w : World} (h : Dialog mlist w) :
    Undecided mlist w [] w :=
  ⟨Reached.refl h.initial mlist, rfl, h.mode, h.func, h.result⟩

namespace Undecided

variable {mlist : List Ptr} {w v : World} {es : List InputEvent}

/-- The verdict of one event more. -/
lemma verdict_concat (h : Undecided mlist w es v) (t : InputEvent) :
    w.verdict mlist (es ++ [t]) =
      (Finger.unseen.after (w.signals mlist es)).activated (isFast w.mem) (v.signal mlist t) := by
  have hnone : Finger.unseen.verdict (isFast w.mem) (w.signals mlist es) = none := h.verdict
  rw [World.verdict, h.reached.signals_concat, Finger.verdict_concat, hnone, Option.none_or]

/-- An event that decides nothing leaves the dialog undecided. -/
lemma concat (h : Undecided mlist w es v) (t : InputEvent)
    (hverdict : w.verdict mlist (es ++ [t]) = none) :
    Undecided mlist w (es ++ [t]) (catchEvent mlist v t).1 := by
  have hsame := catchEvent_sameButState mlist v t
  exact ⟨(h.reached.step t).1, hverdict, fun b hb => (hsame.mode_eq b).trans (h.mode b hb),
    fun b hb => (hsame.sameSetup.func_eq b).trans (h.func b hb),
    fun b hb => (hsame.result_eq b).trans (h.result b hb)⟩

/-- An event on which nothing is returned decides nothing. -/
private lemma goesOn (h : Undecided mlist w es v) (t : InputEvent)
    (ht : (catchEvent mlist v t).2 = none) :
    Undecided mlist w (es ++ [t]) (catchEvent mlist v t).1 := by
  have hret := (h.reached.step t).2
  rw [ht, eq_comm, Option.map_eq_none_iff] at hret
  apply h.concat t
  rw [h.verdict_concat, Finger.activated, hret]
  rfl

end Undecided

/-- What `start_listen` does with the id of a button of a dialog. -/
private lemma onReturn_dialog {P : Program} {v : World} {id : Int32} {b : Ptr}
    (hb : findButtonById v.mem id P.buttonList = some b) (hfunc : (v.mem b).func = none)
    (hmode : (v.mem b).mode = .ecsListen) : onReturn P id v = (v.setResult b 1, some 0) := by
  simp [onReturn, hb, World.setResult, hfunc, hmode]

/-- **One event of a dialog**: when `catch_action_for_button` returns, either no button was
activated and the dialog goes on, or it is decided.

**Proof sketch.** What the call returns is the verdict of the events so far. For no button nothing
changes and the dialog goes on; for a button its result is noted, and as it is in the mode of a
dialog the loop ends. -/
theorem Dialog.respects {P : Program} {w : World} (hw : Dialog P.buttonList w) :
    Listen.Respects P (Undecided P.buttonList w) (Decided P.buttonList w) := by
  refine ⟨fun es v h => (hw.distinct.congr h.reached.setup).findButtonById_zero,
    fun es v t h ht => h.goesOn t ht, fun es v t id h ht => ?_⟩
  obtain ⟨o, ho, hmem, hfind⟩ := h.reached.of_ret hw.distinct ht
  have hverdict : w.verdict P.buttonList (es ++ [t]) = o := by
    rw [h.verdict_concat, Finger.activated, ho]
    rfl
  cases o with
  | none =>
    simp only [onReturn_of_eq_none hfind]
    exact ⟨fun _ => h.concat t hverdict, fun c hc => by simp at hc⟩
  | some b =>
    have hb : b ∈ P.buttonList := hmem b rfl
    have hsame := catchEvent_sameButState P.buttonList v t
    have hfunc := (hsame.sameSetup.func_eq b).trans (h.func b hb)
    have hmode := (hsame.mode_eq b).trans (h.mode b hb)
    simp only [onReturn_dialog hfind hfunc hmode]
    refine ⟨fun h => by simp at h, fun c hc => ⟨by simpa using hc.symm, ⟨es, t, rfl, h.verdict⟩,
      b, hb, hverdict, fun b' hb' => ?_⟩⟩
    rw [setResult_result, hsame.result_eq, h.result b' hb']

/-! ## The program `inputevent` -/

namespace Inputevent

/-- `main` of `inputevent`, up to `start_listen`: the two buttons, and the static data. The
sizes are those of the images that are loaded. -/
def main (fbWidth fbHeight : Int32) (releasekey presskey ppass pfail : Int32 × Int32)
    (a : App) : Ptr × Ptr × App :=
  let a := a.initParam fbWidth fbHeight
  let (_, a) := initKeyboard 130 168 releasekey presskey a
  let (btPass, a) := initButton 55 300 ppass.1 ppass.2 a
  let (btFail, a) := initButton 205 300 pfail.1 pfail.2 a
  let a := { a with world.mem := (setButtonMode (some btPass) .ecsListen a.world.mem).2 }
  let a := { a with world.mem := (setButtonMode (some btFail) .ecsListen a.world.mem).2 }
  (btPass, btFail, a)

/-- `check_button_result`. -/
def checkButtonResult (w : World) (button : Ptr) : Int32 := (w.mem button).result

/-- The buttons that `main` creates are a dialog of two, whatever the memory held before.

**Proof sketch.** The two buttons are the second and the third widget, so their ids are 2 and 3;
everything else is what `init_button` and `set_button_mode` have written. -/
private lemma dialog_main (fbWidth fbHeight : Int32)
    (releasekey presskey ppass pfail : Int32 × Int32) {a : App} (ha : a.buttonList = []) :
    let m := main fbWidth fbHeight releasekey presskey ppass pfail a
    m.2.2.buttonList = [m.1, m.2.1] ∧ m.1 ≠ m.2.1 ∧ Dialog [m.1, m.2.1] m.2.2.world := by
  have hne : a.brk + 1 ≠ a.brk + 1 + 1 := (Nat.succ_ne_self _).symm
  intro m
  have hpass : (m.2.2.world.mem m.1).id = 2 ∧ (m.2.2.world.mem m.1).mode = .ecsListen ∧
      (m.2.2.world.mem m.1).func = none ∧ (m.2.2.world.mem m.1).result = 0 := by
    simp [m, main, initButton, initKeyboard, App.newButton, App.initParam, setButtonMode,
      drawCustomButton, drawImage]
  have hfail : (m.2.2.world.mem m.2.1).id = 3 ∧ (m.2.2.world.mem m.2.1).mode = .ecsListen ∧
      (m.2.2.world.mem m.2.1).func = none ∧ (m.2.2.world.mem m.2.1).result = 0 := by
    simp [m, main, initButton, initKeyboard, App.newButton, App.initParam, setButtonMode,
      drawCustomButton, drawImage]
  obtain ⟨hid, hmode, hfunc, hresult⟩ := hpass
  obtain ⟨hid', hmode', hfunc', hresult'⟩ := hfail
  refine ⟨?_, hne, ⟨rfl, rfl⟩, ⟨?_, ?_⟩, ?_, ?_, ?_⟩
  · simp [m, main, initButton, initKeyboard, App.newButton, App.initParam, ha]
  · simp [hid, hid']
  · simp [hid, hid']
  · simp [hmode, hmode']
  · simp [hfunc, hfunc']
  · simp [hresult, hresult']

end Inputevent

/-! ## One verdict -/

/-- The two buttons side by side, as a dialog. -/
def dialogSideBySide : World :=
  { sideBySide with mem := fun p => { sideBySide.mem p with mode := .ecsListen } }

/-- The static data before `init_param`, in a zeroed memory. -/
def zeroed : App where
  world := { sideBySide with panel := ⟨0, 0, false⟩ }
  keyboards _ := ⟨0, ⟨0, 0, 0, 0⟩, ⟨0, 0, 0, 0⟩⟩
  keyScreen _ := .release
  widgetId := 0
  buttonList := []
  keyboardList := []
  brk := 1

/-- The static data of `inputevent` when it begins to listen. -/
def inputeventApp : App :=
  (Inputevent.main 320 480 (9, 9) (9, 9) (60, 30) (60, 30) zeroed).2.2

end JzPretest.Widget

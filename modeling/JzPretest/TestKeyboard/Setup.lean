import JzPretest.TestKeyboard.Runs
import Mathlib.Algebra.Group.Nat.Defs

set_option relaxedAutoImplicit false
set_option autoImplicit false

/-!
# Setting up the widgets

The programs of the test suite create their buttons and keyboards before they listen. Each
widget gets the next id and is added to the end of its list. A widget lives at an address that
`malloc` has not given out before; what `malloc` leaves in a field that nobody sets, such as the
`state` of a button, is whatever the memory held.

## Main definitions

* `JzPretest.Widget.App` — the static data of `widget.c`.
* `JzPretest.Widget.initButton`, `JzPretest.Widget.initDefaultButton`,
  `JzPretest.Widget.initKeyboard` — the functions that create a widget.
* `JzPretest.Widget.setButtonMode` — `set_button_mode`.

## Main results

* `JzPretest.Widget.addButton_eq_concat` — a new button goes to the end of the list.
* `JzPretest.Widget.id_inj` — consecutive ids are distinct and not `0`.
-/

namespace JzPretest.Widget

/-- `struct keyboard`: the fields that its set-up writes. -/
structure Keyboard where
  id : Int32
  rs : Position
  ps : Position
  deriving DecidableEq, Repr

/-- The static data of `widget.c`, and what its functions have drawn. -/
structure App where
  world : World
  /-- The keyboards. -/
  keyboards : Ptr → Keyboard
  /-- The image last drawn for each keyboard. -/
  keyScreen : Ptr → Image
  widgetId : UInt32
  buttonList : List Ptr
  keyboardList : List Ptr
  /-- The addresses from here on are free. -/
  brk : Ptr

/-- `add_button`, on the chain of nodes: a walk to the last one. -/
def addButton : List Ptr → Ptr → List Ptr
  | [], button => [button]
  | scan :: rest, button => scan :: addButton rest button

/-- `add_keyboard`; the body is that of `add_button`. -/
def addKeyboard (mlist : List Ptr) (keyboard : Ptr) : List Ptr := addButton mlist keyboard

/-- A new widget goes to the end of its list. -/
@[simp] theorem addButton_eq_concat (mlist : List Ptr) (button : Ptr) :
    addButton mlist button = mlist ++ [button] := by
  induction mlist with
  | nil => rfl
  | cons scan rest ih => rw [addButton, ih, List.cons_append]

namespace App

/-- `init_param`, for a screen of the given size. -/
def initParam (fbWidth fbHeight : Int32) (a : App) : App :=
  { a with world := Widget.initParam fbWidth fbHeight a.world, widgetId := 1 }

/-- What `init_button` and `init_default_button` have in common: all fields but the style and
the rectangle, the id and the place in the list. -/
def newButton (style : ButtonStyle) (ps : Position) (a : App) : Ptr × App :=
  (a.brk, { a with
    world.mem := Function.update a.world.mem a.brk
      { id := a.widgetId.toInt32
        mode := .normal
        style := style
        drawButtonInEnd := .enable
        fastTouch := .disable
        state := (a.world.mem a.brk).state
        result := 0
        ps := ps
        param := none
        func := none }
    widgetId := a.widgetId + 1
    buttonList := addButton a.buttonList a.brk
    brk := a.brk + 1 })

end App

/-- `init_button`, when the press image has the size `iconWidth` by `iconHeight`. -/
def initButton (fPositionX fPositionY iconWidth iconHeight : Int32) (a : App) : Ptr × App :=
  let (button1, a) := a.newButton .custom
    ⟨fPositionX.toUInt32, fPositionY.toUInt32, iconWidth, iconHeight⟩
  (button1, { a with world := drawCustomButton button1 0 a.world })

/-- `init_default_button`, up to the two colours. -/
def initDefaultButton (fPositionX fPositionY width height : Int32) (a : App) : Ptr × App :=
  let (button1, a) := a.newButton .default
    ⟨fPositionX.toUInt32, fPositionY.toUInt32, width, height⟩
  (button1, { a with world := drawDefaultButton button1 0 a.world })

/-- `init_keyboard`, when the release and the press image have the given sizes. -/
def initKeyboard (fPositionX fPositionY : Int32) (release press : Int32 × Int32) (a : App) :
    Ptr × App :=
  (a.brk, { a with
    keyboards := Function.update a.keyboards a.brk
      { id := a.widgetId.toInt32
        rs := ⟨fPositionX.toUInt32, fPositionY.toUInt32, release.1, release.2⟩
        ps := ⟨fPositionX.toUInt32, fPositionY.toUInt32, press.1, press.2⟩ }
    keyScreen := Function.update a.keyScreen a.brk .release
    widgetId := a.widgetId + 1
    keyboardList := addKeyboard a.keyboardList a.brk
    brk := a.brk + 1 })

/-- `set_button_mode`: the value it returns, and the memory. -/
def setButtonMode (button : Option Ptr) (mode : ButtonMode) (mem : Ptr → Button) :
    Int32 × (Ptr → Button) :=
  match button with
  | some b => (0, Function.update mem b { mem b with mode := mode })
  | none => (-1, mem)

/-! ## Ids -/

/-- Consecutive ids from `1` on are distinct and not `0`, as long as there are fewer than
`2 ^ 32 - 1` of them.

**Proof sketch.** As natural numbers the ids are `1 + i`, which stay below `2 ^ 32`. -/
theorem id_inj {i j : ℕ} (hi : i < 2 ^ 32 - 1) (hj : j < 2 ^ 32 - 1) :
    (1 + UInt32.ofNat i).toInt32 ≠ 0 ∧
      ((1 + UInt32.ofNat i).toInt32 = (1 + UInt32.ofNat j).toInt32 → i = j) := by
  have hval : ∀ k, k < 2 ^ 32 - 1 → (1 + UInt32.ofNat k).toNat = 1 + k := by
    intro k hk
    rw [UInt32.toNat_add, UInt32.toNat_ofNat', UInt32.toNat_one]
    omega
  constructor
  · intro h
    have h0 : (1 + UInt32.ofNat i).toNat = 0 := congrArg (fun x => x.toUInt32.toNat) h
    rw [hval i hi] at h0
    omega
  · intro h
    have hij : (1 + UInt32.ofNat i).toNat = (1 + UInt32.ofNat j).toNat :=
      congrArg (fun x => x.toUInt32.toNat) h
    rw [hval i hi, hval j hj] at hij
    omega

end JzPretest.Widget

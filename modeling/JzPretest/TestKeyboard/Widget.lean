import Mathlib.Algebra.Group.Int.Defs
import Mathlib.Algebra.Group.Nat.Defs
import Mathlib.Data.Int.Notation
import Mathlib.Data.List.Find
import Mathlib.Data.Nat.Notation
import Mathlib.Logic.Function.Basic
import Mathlib.Tactic.SplitIfs

set_option relaxedAutoImplicit false
set_option autoImplicit false

/-!
# The touch buttons of the pretest widgets

The data model of `test_keyboard/widget.h` and the functions of `widget.c` that
`catch_action_for_button` is made of: the three-state touch machine `get_touch`, the two
lookups in a button list, and the drawing of a button.

Buttons live in a memory indexed by pointers, since `find_button_by_position` and
`find_button_by_id` hand out pointers into the list and their callers write through them. A
`PNODE` list is the list of its `widget.button` pointers. What `draw_button` puts on the screen
is recorded as the image last drawn for each button. Coordinates are the `unsigned int`s of the
source, so sums of a position and an icon size wrap at `2 ^ 32`.

## Main definitions

* `JzPretest.Widget.Button`, `JzPretest.Widget.Touch`, `JzPretest.Widget.InputEvent`,
  `JzPretest.Widget.World` — the data.
* `JzPretest.Widget.getTouch` — the touch machine.
* `JzPretest.Widget.findButtonByPosition`, `JzPretest.Widget.findButtonById` — the lookups.
* `JzPretest.Widget.drawButton` — drawing.

## Main results

* `JzPretest.Widget.getTouch_cases` — everything one event can do to the touch record.
* `JzPretest.Widget.isTouchingButton_iff_of_noWrap` — a rectangle that does not wrap contains
  the point strictly.
-/

namespace JzPretest.Widget

/-- The address of a button (or of a callback, or of its argument). -/
abbrev Ptr := ℕ

/-! ## Input events -/

/-- `EV_SYN` of `linux/input.h`. -/
def evSyn : UInt16 := 0x00

/-- `EV_KEY` of `linux/input.h`. -/
def evKey : UInt16 := 0x01

/-- `EV_ABS` of `linux/input.h`. -/
def evAbs : UInt16 := 0x03

/-- `ABS_MT_POSITION_X` of `linux/input.h`. -/
def absMtPositionX : UInt16 := 0x35

/-- `ABS_MT_POSITION_Y` of `linux/input.h`. -/
def absMtPositionY : UInt16 := 0x36

/-- `struct input_event`; no modelled function reads its time stamp. -/
structure InputEvent where
  /-- The event type. -/
  type : UInt16
  /-- The event code. -/
  code : UInt16
  /-- The value. -/
  value : Int32
  deriving DecidableEq, Repr

/-! ## Touches, buttons and the screen -/

/-- `enum touch_state`. -/
inductive TouchState where
  | resetTouch
  | keepTouch
  | endTouch
  deriving DecidableEq, Repr

/-- `struct touch`. -/
structure Touch where
  /-- The last reported column. -/
  x : UInt32
  /-- The last reported row. -/
  y : UInt32
  /-- Where the touch machine stands. -/
  state : TouchState
  /-- The id of the remembered button, `0` for none. -/
  btId : Int32
  deriving DecidableEq, Repr

/-- `struct position`. -/
structure Position where
  fPositionX : UInt32
  fPositionY : UInt32
  iconWidth : Int32
  iconHeight : Int32
  deriving DecidableEq, Repr

/-- `enum button_mode`. -/
inductive ButtonMode where
  | ecsListen
  | normal
  deriving DecidableEq, Repr

/-- `enum button_style`. -/
inductive ButtonStyle where
  | default
  | custom
  deriving DecidableEq, Repr

/-- `enum enable_or_disable`. -/
inductive EnableOrDisable where
  | disable
  | enable
  deriving DecidableEq, Repr

/-- `struct button`: the fields that the modelled functions read or write. -/
structure Button where
  id : Int32
  mode : ButtonMode
  style : ButtonStyle
  /-- Whether the button is drawn released again when the touch leaves it. -/
  drawButtonInEnd : EnableOrDisable
  /-- Whether the button acts as soon as it is touched. -/
  fastTouch : EnableOrDisable
  state : TouchState
  result : Int32
  ps : Position
  /-- The argument of the callback; `none` is `NULL`. -/
  param : Option Ptr
  /-- The callback; `none` is `NULL`. -/
  func : Option Ptr
  deriving DecidableEq, Repr

/-- The two images of a button. -/
inductive Image where
  | release
  | press
  deriving DecidableEq, Repr

/-- The screen constants of `widget.c`: `width_limit`, `height_limit` and `swap`. -/
structure Panel where
  widthLimit : Int32
  heightLimit : Int32
  swap : Bool
  deriving DecidableEq, Repr

/-- What `catch_action_for_button` reads and writes besides the event queue. -/
structure World where
  /-- The buttons. -/
  mem : Ptr → Button
  /-- The image last drawn for each button. -/
  screen : Ptr → Image
  /-- The static `rec_touch`. -/
  recTouch : Touch
  panel : Panel

/-! ## The touch machine -/

/-- The state the closing `EV_SYN` of a report moves to. -/
def TouchState.sync : TouchState → TouchState
  | .resetTouch => .keepTouch
  | .keepTouch => .endTouch
  | .endTouch => .resetTouch

/-- `get_touch`: the type of the event it recognised (`-1` for none) and the new record. -/
def getTouch (p : Panel) (t : InputEvent) (mtouch : Touch) : Int32 × Touch :=
  if t.type = evAbs then
    let m := { mtouch with state := .resetTouch }
    let m := if t.code = absMtPositionX then
        { m with x := (if p.swap then p.widthLimit - t.value else t.value).toUInt32 } else m
    let m := if t.code = absMtPositionY then
        { m with y := (if p.swap then p.heightLimit - t.value else t.value).toUInt32 } else m
    (3, m)
  else if t.type = evSyn then
    if t.code = 0 then (0, { mtouch with state := mtouch.state.sync })
    else (-1, mtouch)
  else (-1, mtouch)

/-- The closing event of a report: `EV_SYN` with code `0`. -/
def InputEvent.IsSync (t : InputEvent) : Prop := t.type = evSyn ∧ t.code = 0

instance (t : InputEvent) : Decidable t.IsSync := inferInstanceAs (Decidable (_ ∧ _))

/-- An event about the position of the touch: `EV_ABS`. -/
def InputEvent.IsAbs (t : InputEvent) : Prop := t.type = evAbs

instance (t : InputEvent) : Decidable t.IsAbs := inferInstanceAs (Decidable (_ = _))

/-- The end of a report has no coordinate. -/
theorem InputEvent.IsSync.not_isAbs {t : InputEvent} (h : t.IsSync) : ¬ t.IsAbs := by
  intro ha
  have := h.1.symm.trans ha
  simp [evSyn, evAbs] at this

/-- **Everything one event can do** to the touch record: a position event resets the machine
and may move the position; a synchronisation moves the machine on and nothing else; any other
event leaves the record alone. -/
theorem getTouch_cases (p : Panel) (t : InputEvent) (m : Touch) :
    (t.IsAbs ∧ ∃ x y, getTouch p t m = (3, { m with x := x, y := y, state := .resetTouch })) ∨
    (t.IsSync ∧ getTouch p t m = (0, { m with state := m.state.sync })) ∨
    (¬ t.IsAbs ∧ ¬ t.IsSync ∧ getTouch p t m = (-1, m)) := by
  unfold getTouch InputEvent.IsAbs InputEvent.IsSync
  by_cases ha : t.type = evAbs
  · refine Or.inl ⟨ha, ?_⟩
    simp only [ha, if_true]
    split_ifs <;> exact ⟨_, _, rfl⟩
  · by_cases hs : t.type = evSyn
    · by_cases hc : t.code = 0
      · exact Or.inr (Or.inl ⟨⟨hs, hc⟩, by rw [if_neg ha, if_pos hs, if_pos hc]⟩)
      · exact Or.inr (Or.inr ⟨ha, fun h => hc h.2, by rw [if_neg ha, if_pos hs, if_neg hc]⟩)
    · exact Or.inr (Or.inr ⟨ha, fun h => hs h.1, by rw [if_neg ha, if_neg hs]⟩)

/-- A synchronisation moves the machine on. -/
theorem getTouch_of_isSync {t : InputEvent} (h : t.IsSync) (p : Panel) (m : Touch) :
    getTouch p t m = (0, { m with state := m.state.sync }) := by
  rcases getTouch_cases p t m with ⟨ha, -⟩ | ⟨-, hg⟩ | ⟨-, hs, -⟩
  · exact absurd ha h.not_isAbs
  · exact hg
  · exact absurd h hs

/-! ## Lookups -/

/-- `istouchingbutton`, in the `unsigned int` arithmetic of the source. -/
def isTouchingButton (button : Button) (touch : Touch) : Bool :=
  decide (touch.x > button.ps.fPositionX ∧
    touch.x < button.ps.fPositionX + button.ps.iconWidth.toUInt32 ∧
    touch.y > button.ps.fPositionY ∧
    touch.y < button.ps.fPositionY + button.ps.iconHeight.toUInt32)

/-- `find_button_by_position`: the first button of the list that the touch is on. -/
def findButtonByPosition (mem : Ptr → Button) (mtouch : Touch) (mlist : List Ptr) :
    Option Ptr :=
  mlist.find? fun mbutton => isTouchingButton (mem mbutton) mtouch

/-- `find_button_by_id`: the first button of the list with the given id. -/
def findButtonById (mem : Ptr → Button) (id : Int32) (mlist : List Ptr) : Option Ptr :=
  mlist.find? fun mbutton => (mem mbutton).id = id

/-- A position and a size whose sum does not pass `2 ^ 32`. -/
def Position.NoWrap (ps : Position) : Prop :=
  0 ≤ ps.iconWidth.toInt ∧ (ps.fPositionX.toNat : ℤ) + ps.iconWidth.toInt < 2 ^ 32 ∧
    0 ≤ ps.iconHeight.toInt ∧ (ps.fPositionY.toNat : ℤ) + ps.iconHeight.toInt < 2 ^ 32

/-- The value of a non-negative `int` converted to `unsigned int`. -/
theorem toNat_toUInt32 {a : Int32} (ha : 0 ≤ a.toInt) :
    (a.toUInt32.toNat : ℤ) = a.toInt := by
  have h1 : a.toInt = a.toUInt32.toBitVec.toInt := rfl
  have h2 : a.toUInt32.toBitVec.toNat = a.toUInt32.toNat := rfl
  have h3 := a.toUInt32.toNat_lt
  rw [h1, BitVec.toInt_eq_toNat_cond, h2] at ha ⊢
  split_ifs at ha ⊢ with h <;> omega

/-- The sum of an `unsigned int` and a non-negative `int`, when it does not wrap. -/
private lemma toNat_add_toUInt32 {u : UInt32} {a : Int32} (ha : 0 ≤ a.toInt)
    (h : (u.toNat : ℤ) + a.toInt < 2 ^ 32) :
    ((u + a.toUInt32).toNat : ℤ) = u.toNat + a.toInt := by
  have h1 := toNat_toUInt32 ha
  rw [UInt32.toNat_add, ← h1]
  omega

/-- A rectangle that does not wrap is touched exactly when it contains the point strictly. -/
theorem isTouchingButton_iff_of_noWrap {b : Button} (hb : b.ps.NoWrap) (touch : Touch) :
    isTouchingButton b touch = true ↔
      b.ps.fPositionX.toNat < touch.x.toNat ∧
      (touch.x.toNat : ℤ) < b.ps.fPositionX.toNat + b.ps.iconWidth.toInt ∧
      b.ps.fPositionY.toNat < touch.y.toNat ∧
      (touch.y.toNat : ℤ) < b.ps.fPositionY.toNat + b.ps.iconHeight.toInt := by
  obtain ⟨hw, hxw, hh, hyh⟩ := hb
  rw [← toNat_add_toUInt32 hw hxw, ← toNat_add_toUInt32 hh hyh]
  simp only [isTouchingButton, gt_iff_lt, UInt32.lt_iff_toNat_lt, decide_eq_true_eq, Int.ofNat_lt]

/-- The points inside a rectangle; those on its border do not belong to it. -/
def Position.Contains (ps : Position) (x y : ℤ) : Prop :=
  ps.fPositionX.toNat < x ∧ x < ps.fPositionX.toNat + ps.iconWidth.toInt ∧
    ps.fPositionY.toNat < y ∧ y < ps.fPositionY.toNat + ps.iconHeight.toInt

instance (ps : Position) (x y : ℤ) : Decidable (ps.Contains x y) :=
  inferInstanceAs (Decidable (_ ∧ _))

/-- The comparisons are those with the rectangle, when nothing wraps around. -/
theorem isTouchingButton_iff_contains {b : Button} (hb : b.ps.NoWrap) (touch : Touch) :
    isTouchingButton b touch = true ↔ b.ps.Contains touch.x.toNat touch.y.toNat := by
  rw [isTouchingButton_iff_of_noWrap hb, Position.Contains, Int.ofNat_lt, Int.ofNat_lt]

/-- **The button found by position** is the first one whose rectangle contains the point strictly,
when no rectangle wraps. -/
theorem findButtonByPosition_eq_of_noWrap {mem : Ptr → Button} {l : List Ptr}
    (hl : ∀ b ∈ l, (mem b).ps.NoWrap) (m : Touch) :
    findButtonByPosition mem m l =
      l.find? fun b => (mem b).ps.Contains m.x.toNat m.y.toNat := by
  refine List.find?_congr fun b hb => ?_
  rw [Bool.eq_iff_iff, decide_eq_true_iff, isTouchingButton_iff_contains (hl b hb)]

/-- The button found by position is in the list and touched. -/
theorem findButtonByPosition_some {mem : Ptr → Button} {m : Touch} {l : List Ptr} {b : Ptr}
    (h : findButtonByPosition mem m l = some b) :
    b ∈ l ∧ isTouchingButton (mem b) m = true := by
  unfold findButtonByPosition at h
  exact ⟨List.mem_of_find?_eq_some h, by simpa using List.find?_some h⟩

/-- The button found by id is in the list and has the id. -/
theorem findButtonById_some {mem : Ptr → Button} {id : Int32} {l : List Ptr} {b : Ptr}
    (h : findButtonById mem id l = some b) : b ∈ l ∧ (mem b).id = id :=
  ⟨List.mem_of_find?_eq_some h, by simpa using List.find?_some h⟩

/-- No button has an id that the lookup does not find. -/
theorem findButtonById_eq_none {mem : Ptr → Button} {id : Int32} {l : List Ptr} :
    findButtonById mem id l = none ↔ ∀ b ∈ l, (mem b).id ≠ id := by
  simp [findButtonById]

/-! ## Writing to a button, and drawing it -/

namespace World

/-- `mbutton->state = state`. -/
def setState (w : World) (mbutton : Ptr) (state : TouchState) : World :=
  { w with mem := Function.update w.mem mbutton { w.mem mbutton with state := state } }

/-- `rec_touch.bt_id = id`. -/
def setBtId (w : World) (id : Int32) : World :=
  { w with recTouch := { w.recTouch with btId := id } }

end World

/-- What both drawing functions leave on the screen: the release image for state `0`, the press
image for state `1`, and for any other state an error and no image. -/
def drawImage (button : Ptr) (state : Int32) (w : World) : World :=
  if state = 0 then { w with screen := Function.update w.screen button .release }
  else if state = 1 then { w with screen := Function.update w.screen button .press }
  else w

/-- `draw_default_button`, up to the colours it fills the rectangle with. -/
def drawDefaultButton (button : Ptr) (state : Int32) (w : World) : World :=
  drawImage button state w

/-- `draw_custom_button`, up to the surface it blits. -/
def drawCustomButton (button : Ptr) (state : Int32) (w : World) : World :=
  drawImage button state w

/-- `draw_button`: the image that goes with the button's state. -/
def drawButton (mbutton : Ptr) (w : World) : World :=
  if (w.mem mbutton).state = .keepTouch then
    match (w.mem mbutton).style with
    | .default => drawDefaultButton mbutton 1 w
    | .custom => drawCustomButton mbutton 1 w
  else
    match (w.mem mbutton).style with
    | .default => drawDefaultButton mbutton 0 w
    | .custom => drawCustomButton mbutton 0 w

/-- The image that goes with a button state. -/
def TouchState.image (s : TouchState) : Image := if s = .keepTouch then .press else .release

/-- Whatever its style, a button is drawn with the image of its state. -/
theorem drawButton_eq (b : Ptr) (w : World) :
    drawButton b w =
      { w with screen := Function.update w.screen b (w.mem b).state.image } := by
  unfold drawButton TouchState.image
  by_cases h : (w.mem b).state = .keepTouch <;>
    cases (w.mem b).style <;> simp [h, drawDefaultButton, drawCustomButton, drawImage]

end JzPretest.Widget

import JzPretest.TestKeyboard.Marks
import JzPretest.TestKeyboard.Setup
import Mathlib.Algebra.Group.Nat.Defs

set_option relaxedAutoImplicit false
set_option autoImplicit false

/-!
# The identity of widgets

The three functions that create a widget share one counter for the ids, and they add to two
lists. As long as the counter does not come back to `0`, every widget is in its list once and has
an id of its own.

## Main definitions

* `JzPretest.Widget.Create` — the calls of the three functions.
* `JzPretest.Widget.Numbered` — the invariant that ties the counter, the lists and the ids.

## Main results

* `JzPretest.Widget.numbered_create` — every call preserves the invariant.
* `JzPretest.Widget.createAll_identity` — the lists, the ids and the lookups after any calls.
-/

namespace JzPretest.Widget

/-- A call of `init_button`, `init_default_button` or `init_keyboard`. -/
inductive Create where
  | button (fPositionX fPositionY iconWidth iconHeight : Int32)
  | defaultButton (fPositionX fPositionY width height : Int32)
  | keyboard (fPositionX fPositionY : Int32) (release press : Int32 × Int32)
  deriving DecidableEq, Repr

/-- Whether the call creates a button. -/
def Create.isButton : Create → Bool
  | .button .. => true
  | .defaultButton .. => true
  | .keyboard .. => false

/-- The call: the widget and the static data. -/
def create : Create → App → Ptr × App
  | .button x y iconWidth iconHeight => initButton x y iconWidth iconHeight
  | .defaultButton x y width height => initDefaultButton x y width height
  | .keyboard x y release press => initKeyboard x y release press

/-- The widgets that some calls have created. -/
structure Created where
  buttons : List Ptr
  keyboards : List Ptr
  deriving DecidableEq, Repr

/-- Calls one after another: the widgets in the order of the calls, and the static data. -/
def createAll : List Create → App → Created × App
  | [], a => (⟨[], []⟩, a)
  | c :: cs, a =>
    let (widget, a) := create c a
    let (created, a) := createAll cs a
    (if c.isButton then { created with buttons := widget :: created.buttons }
      else { created with keyboards := widget :: created.keyboards }, a)

/-! ## One call -/

/-- What a call does to the static data, whatever widget it creates. -/
structure Creates (c : Create) (a a' : App) : Prop where
  brk : a'.brk = a.brk + 1
  widgetId : a'.widgetId = a.widgetId + 1
  buttonList : a'.buttonList = a.buttonList ++ if c.isButton then [a.brk] else []
  keyboardList : a'.keyboardList = a.keyboardList ++ if c.isButton then [] else [a.brk]
  buttonId : c.isButton = true → (a'.world.mem a.brk).id = a.widgetId.toInt32
  keyboardId : c.isButton = false → (a'.keyboards a.brk).id = a.widgetId.toInt32
  /-- What was there before is untouched. -/
  frame : ∀ p, p < a.brk → a'.world.mem p = a.world.mem p ∧ a'.keyboards p = a.keyboards p

/-- **Each of the calls** returns the address of what it has created, with the next number.

**Proof sketch.** For each call, the list gets one element more, and what has been created before
stays where it is. -/
lemma create_spec (c : Create) (a : App) : (create c a).1 = a.brk ∧ Creates c a (create c a).2 := by
  have hne : ∀ p, p < a.brk → p ≠ a.brk := fun p hp => Nat.ne_of_lt hp
  cases c with
  | button x y iconWidth iconHeight =>
    refine ⟨rfl, rfl, rfl, addButton_eq_concat _ _, (List.append_nil _).symm, fun _ => ?_,
      fun h => Bool.noConfusion h, fun p hp => ⟨?_, rfl⟩⟩
    · simp [create, initButton, App.newButton, drawCustomButton, drawImage]
    · simp [create, initButton, App.newButton, drawCustomButton, drawImage, hne p hp]
  | defaultButton x y width height =>
    refine ⟨rfl, rfl, rfl, addButton_eq_concat _ _, (List.append_nil _).symm, fun _ => ?_,
      fun h => Bool.noConfusion h, fun p hp => ⟨?_, rfl⟩⟩
    · simp [create, initDefaultButton, App.newButton, drawDefaultButton, drawImage]
    · simp [create, initDefaultButton, App.newButton, drawDefaultButton, drawImage, hne p hp]
  | keyboard x y release press =>
    refine ⟨rfl, rfl, rfl, (List.append_nil _).symm, addButton_eq_concat _ _,
      fun h => Bool.noConfusion h, fun _ => ?_, fun p hp => ⟨rfl, ?_⟩⟩
    · simp [create, initKeyboard]
    · simp [create, initKeyboard, hne p hp]

/-! ## Any number of calls -/

/-- The id of the widget at an address, when the first widget is at `base`. -/
def idAt (base p : Ptr) : Int32 := (1 + UInt32.ofNat (p - base)).toInt32

/-- **The invariant** after `n` calls: the widgets lie one after another from `base` on, with
consecutive ids, and none is in the lists twice. -/
structure Numbered (base : Ptr) (n : ℕ) (a : App) : Prop where
  brk : a.brk = base + n
  widgetId : a.widgetId = 1 + UInt32.ofNat n
  button : ∀ b ∈ a.buttonList, base ≤ b ∧ b < base + n ∧ (a.world.mem b).id = idAt base b
  keyboard : ∀ k ∈ a.keyboardList, base ≤ k ∧ k < base + n ∧ (a.keyboards k).id = idAt base k
  nodup : (a.buttonList ++ a.keyboardList).Nodup

/-- **One call** preserves the invariant.

**Proof sketch.** `create_spec` says what one call does: the new widget has the next id and the next
place, and the older ones are not touched. It lies above all others, so no widget is in the lists
twice. -/
theorem numbered_create {base : Ptr} {n : ℕ} {a : App} (h : Numbered base n a) (c : Create) :
    Numbered base (n + 1) (create c a).2 := by
  obtain ⟨-, hc⟩ := create_spec c a
  have hnew : a.widgetId.toInt32 = idAt base a.brk := by
    rw [idAt, h.widgetId, h.brk, Nat.add_sub_cancel_left]
  have hlt : ∀ p, p < base + n → p < a.brk := fun p hp => h.brk.symm ▸ hp
  have hself : base ≤ a.brk ∧ a.brk < base + (n + 1) := by
    rw [h.brk]
    exact ⟨Nat.le_add_right base n, Nat.lt_succ_self _⟩
  refine ⟨?_, ?_, fun b hb => ?_, fun k hk => ?_, ?_⟩
  · rw [hc.brk, h.brk, Nat.add_assoc]
  · rw [hc.widgetId, h.widgetId, UInt32.ofNat_add, UInt32.add_assoc]
    rfl
  · rw [hc.buttonList, List.mem_append] at hb
    rcases hb with hb | hb
    · obtain ⟨hle, hb', hid⟩ := h.button b hb
      rw [(hc.frame b (hlt b hb')).1]
      exact ⟨hle, Nat.lt_succ_of_lt hb', hid⟩
    · cases hkind : c.isButton with
      | false => simp [hkind] at hb
      | true =>
        obtain rfl : b = a.brk := by simpa [hkind] using hb
        exact ⟨hself.1, hself.2, (hc.buttonId hkind).trans hnew⟩
  · rw [hc.keyboardList, List.mem_append] at hk
    rcases hk with hk | hk
    · obtain ⟨hle, hk', hid⟩ := h.keyboard k hk
      rw [(hc.frame k (hlt k hk')).2]
      exact ⟨hle, Nat.lt_succ_of_lt hk', hid⟩
    · cases hkind : c.isButton with
      | true => simp [hkind] at hk
      | false =>
        obtain rfl : k = a.brk := by simpa [hkind] using hk
        exact ⟨hself.1, hself.2, (hc.keyboardId hkind).trans hnew⟩
  · -- the new widget lies above all that are in the lists
    have hfresh : a.brk ∉ a.buttonList ++ a.keyboardList := by
      rw [List.mem_append, h.brk]
      rintro (hb | hk)
      · exact Nat.lt_irrefl _ (h.button _ hb).2.1
      · exact Nat.lt_irrefl _ (h.keyboard _ hk).2.1
    have hperm : ((create c a).2.buttonList ++ (create c a).2.keyboardList).Perm
        (a.brk :: (a.buttonList ++ a.keyboardList)) := by
      rw [hc.buttonList, hc.keyboardList]
      cases c.isButton with
      | true => simp
      | false =>
        rw [if_neg Bool.false_ne_true, if_neg Bool.false_ne_true, List.append_nil,
          ← List.append_assoc]
        exact List.perm_append_singleton _ _
    exact hperm.nodup_iff.mpr (List.nodup_cons.mpr ⟨hfresh, h.nodup⟩)

/-- **Any calls** preserve the invariant, and they add the widgets to the lists in the order in
which they create them.

**Proof sketch.** Induction on the calls (`numbered_create`). -/
theorem numbered_createAll {base : Ptr} (cs : List Create) : ∀ {n : ℕ} {a : App},
    Numbered base n a → Numbered base (n + cs.length) (createAll cs a).2 ∧
      (createAll cs a).2.buttonList = a.buttonList ++ (createAll cs a).1.buttons ∧
      (createAll cs a).2.keyboardList = a.keyboardList ++ (createAll cs a).1.keyboards := by
  induction cs with
  | nil =>
    intro n a h
    exact ⟨h, (List.append_nil _).symm, (List.append_nil _).symm⟩
  | cons c cs ih =>
    intro n a h
    obtain ⟨hfst, hc⟩ := create_spec c a
    obtain ⟨hnum, hbuttons, hkeyboards⟩ := ih (numbered_create h c)
    rw [hc.buttonList] at hbuttons
    rw [hc.keyboardList] at hkeyboards
    refine ⟨?_, ?_, ?_⟩
    · rw [List.length_cons, Nat.add_comm cs.length 1, ← Nat.add_assoc]
      exact hnum
    · refine hbuttons.trans ?_
      rw [createAll, List.append_assoc]
      cases c.isButton <;> simp [hfst]
    · refine hkeyboards.trans ?_
      rw [createAll, List.append_assoc]
      cases c.isButton <;> simp [hfst]

/-- The ids of a numbered widget: not `0`, and its own. -/
lemma Numbered.idAt_inj {base p q : Ptr} {n : ℕ} (hn : n < 2 ^ 32 - 1) (hp : base ≤ p)
    (hpn : p < base + n) (hq : base ≤ q) (hqn : q < base + n) :
    idAt base p ≠ 0 ∧ (idAt base p = idAt base q → p = q) := by
  have hpi : p - base < n := Nat.sub_lt_left_of_lt_add hp hpn
  have hqi : q - base < n := Nat.sub_lt_left_of_lt_add hq hqn
  obtain ⟨hne, hinj⟩ := id_inj (Nat.lt_trans hpi hn) (Nat.lt_trans hqi hn)
  refine ⟨hne, fun h => ?_⟩
  calc p = p - base + base := (Nat.sub_add_cancel hp).symm
    _ = q - base + base := by rw [hinj h]
    _ = q := Nat.sub_add_cancel hq

/-- All ids of a numbered set of widgets.

**Proof sketch.** The ids are those of the places, which are all different, and fewer than `2 ^ 32 -
1` places have different ids. -/
lemma Numbered.nodup_ids {base : Ptr} {n : ℕ} {a : App} (h : Numbered base n a)
    (hn : n < 2 ^ 32 - 1) :
    (a.buttonList.map (fun b => (a.world.mem b).id) ++
      a.keyboardList.map fun k => (a.keyboards k).id).Nodup := by
  have hids : a.buttonList.map (fun b => (a.world.mem b).id) ++
      a.keyboardList.map (fun k => (a.keyboards k).id) =
        (a.buttonList ++ a.keyboardList).map (idAt base) := by
    rw [List.map_append]
    congr 1
    · exact List.map_congr_left fun b hb => (h.button b hb).2.2
    · exact List.map_congr_left fun k hk => (h.keyboard k hk).2.2
  have hmem : ∀ p ∈ a.buttonList ++ a.keyboardList, base ≤ p ∧ p < base + n := by
    intro p hp
    rcases List.mem_append.mp hp with hb | hk
    · exact ⟨(h.button p hb).1, (h.button p hb).2.1⟩
    · exact ⟨(h.keyboard p hk).1, (h.keyboard p hk).2.1⟩
  rw [hids]
  apply h.nodup.map_on
  intro p hp q hq hpq
  exact (Numbered.idAt_inj hn (hmem p hp).1 (hmem p hp).2 (hmem q hq).1 (hmem q hq).2).2 hpq

/-- **The identity of widgets**: after `init_param` on empty lists and any fewer than `2 ^ 32 - 1`
calls, the lists hold exactly the widgets that were created, in order and once; all ids are
distinct and not `0`; every button is found by its id, and nothing is found by the id `0` or by
the id of a keyboard.

**Proof sketch.** Induction over the calls (`numbered_createAll`) from the empty lists that
`init_param` leaves. Distinct ids that are not zero make the search by id find what has the id, and
nothing for another one. -/
theorem createAll_identity (fbWidth fbHeight : Int32) (a a' : App) (cs : List Create)
    (created : Created) (hb : a.buttonList = []) (hk : a.keyboardList = [])
    (hcs : cs.length < 2 ^ 32 - 1)
    (h : createAll cs (a.initParam fbWidth fbHeight) = (created, a')) :
    (a'.buttonList = created.buttons ∧ created.buttons.Nodup) ∧
      (a'.keyboardList = created.keyboards ∧ created.keyboards.Nodup) ∧
      (created.buttons.map (fun b => (a'.world.mem b).id) ++
        created.keyboards.map fun k => (a'.keyboards k).id).Nodup ∧
      (∀ b ∈ created.buttons, (a'.world.mem b).id ≠ 0) ∧
      (∀ k ∈ created.keyboards, (a'.keyboards k).id ≠ 0) ∧
      (∀ b ∈ created.buttons,
        findButtonById a'.world.mem (a'.world.mem b).id a'.buttonList = some b) ∧
      findButtonById a'.world.mem 0 a'.buttonList = none ∧
      ∀ k ∈ created.keyboards,
        findButtonById a'.world.mem (a'.keyboards k).id a'.buttonList = none := by
  have hstart : Numbered a.brk 0 (a.initParam fbWidth fbHeight) := by
    refine ⟨rfl, rfl, fun b hb' => ?_, fun k hk' => ?_, ?_⟩
    · rw [App.initParam, hb] at hb'
      simp at hb'
    · rw [App.initParam, hk] at hk'
      simp at hk'
    · rw [App.initParam, hb, hk]
      exact List.nodup_nil
  obtain ⟨hnum, hbuttons, hkeyboards⟩ := numbered_createAll cs hstart
  rw [h, Nat.zero_add] at hnum
  rw [h, App.initParam, hb, List.nil_append] at hbuttons
  rw [h, App.initParam, hk, List.nil_append] at hkeyboards
  dsimp only at hnum hbuttons hkeyboards
  obtain ⟨hnodupB, hnodupK, -⟩ := List.nodup_append.mp hnum.nodup
  have hids := hnum.nodup_ids hcs
  obtain ⟨hidsB, -, hdisj⟩ := List.nodup_append.mp hids
  have hneB : ∀ b ∈ a'.buttonList, (a'.world.mem b).id ≠ 0 := by
    intro b hb'
    obtain ⟨hle, hlt, hid⟩ := hnum.button b hb'
    rw [hid]
    exact (Numbered.idAt_inj hcs hle hlt hle hlt).1
  have hneK : ∀ k ∈ a'.keyboardList, (a'.keyboards k).id ≠ 0 := by
    intro k hk'
    obtain ⟨hle, hlt, hid⟩ := hnum.keyboard k hk'
    rw [hid]
    exact (Numbered.idAt_inj hcs hle hlt hle hlt).1
  have hdistinct : DistinctIds a'.world.mem a'.buttonList := ⟨hneB, hidsB⟩
  rw [← hbuttons, ← hkeyboards]
  refine ⟨⟨rfl, hnodupB⟩, ⟨rfl, hnodupK⟩, hids, hneB, hneK, fun b hb' => ?_,
    hdistinct.findButtonById_zero, fun k hk' => ?_⟩
  · refine hdistinct.findButtonById_idOf (u := some b) fun c hc => ?_
    obtain rfl := Option.some.inj hc
    exact hb'
  · rw [findButtonById_eq_none]
    intro b hb' heq
    exact hdisj _ (List.mem_map_of_mem hb') _ (List.mem_map_of_mem hk') heq

/-- Static data without widgets. -/
def noWidgets : App where
  world := ⟨fun _ => ⟨0, .normal, .default, .disable, .disable, .resetTouch, 0, ⟨0, 0, 0, 0⟩, none,
    none⟩, fun _ => .release, ⟨0, 0, .resetTouch, 0⟩, ⟨320, 480, false⟩⟩
  keyboards _ := ⟨0, ⟨0, 0, 0, 0⟩, ⟨0, 0, 0, 0⟩⟩
  keyScreen _ := .release
  widgetId := 0
  buttonList := []
  keyboardList := []
  brk := 0

/-- A button, a keyboard and a default button. -/
def mixedCalls : List Create :=
  [.button 0 0 9 9, .keyboard 20 0 (9, 9) (9, 9), .defaultButton 40 0 9 9]

/-- The static data after these calls. -/
def mixedApp : App := (createAll mixedCalls (noWidgets.initParam 320 480)).2

/-- Two buttons with a keyboard in between. -/
theorem createAll_identity_mixedCalls :
    (mixedApp.buttonList = [0, 2] ∧ [0, 2].Nodup) ∧
      (mixedApp.keyboardList = [1] ∧ [1].Nodup) ∧
      ([0, 2].map (fun b => (mixedApp.world.mem b).id) ++
        [1].map fun k => (mixedApp.keyboards k).id).Nodup ∧
      (∀ b ∈ [0, 2], (mixedApp.world.mem b).id ≠ 0) ∧
      (∀ k ∈ [1], (mixedApp.keyboards k).id ≠ 0) ∧
      (∀ b ∈ [0, 2],
        findButtonById mixedApp.world.mem (mixedApp.world.mem b).id mixedApp.buttonList = some b) ∧
      findButtonById mixedApp.world.mem 0 mixedApp.buttonList = none ∧
      ∀ k ∈ [1],
        findButtonById mixedApp.world.mem (mixedApp.keyboards k).id mixedApp.buttonList = none :=
  createAll_identity 320 480 noWidgets mixedApp mixedCalls ⟨[0, 2], [1]⟩ rfl rfl (by decide) rfl

end JzPretest.Widget

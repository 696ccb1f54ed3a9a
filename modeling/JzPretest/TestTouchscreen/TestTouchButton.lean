import JzPretest.TestKeyboard.Listen
import JzPretest.TestKeyboard.Marks
import JzPretest.TestKeyboard.Setup

set_option relaxedAutoImplicit false
set_option autoImplicit false

/-!
# `test_touchbutton`

The touch-screen test covers the screen with buttons that act when they are touched and stay
drawn pressed, and it ends once every one of them has been touched. Each button has the callback
`check_bt`, which puts the button that was touched last into `ECS_LISTEN` mode when no button of
the test is left with result `0`.

## Main definitions

* `JzPretest.TestTouchButton.checkBt` — the callback.
* `JzPretest.TestTouchButton.Grid` — the buttons of the test before anybody touches them.
* `JzPretest.TestTouchButton.main` — the program, up to `start_listen`.
* `JzPretest.TestTouchButton.Hit` — a button was under the touch in a completed report.

## Main results

* `JzPretest.TestTouchButton.grid_createButtons`, `JzPretest.TestTouchButton.grid_main` — the
  buttons that the program creates are those of a test.
* `JzPretest.TestTouchButton.returned_iff_all_hit` — `start_listen` returns exactly at the event
  with which the last button has been hit.
-/

namespace JzPretest.TestTouchButton

open Widget EventLoop Transition

/-! ## The callback -/

/-- `struct para`. -/
structure Para where
  thisBt : Ptr
  btList : List Ptr
  len : ℕ

/-- `check_bt`: if every button has been touched, this one ends the test. -/
def checkBt (mpara : Para) (mem : Ptr → Button) : Ptr → Button :=
  if (mpara.btList.take mpara.len).any fun bt => (mem bt).result = 0 then mem
  else (setButtonMode (some mpara.thisBt) .ecsListen mem).2

/-- The address of `check_bt`. -/
def checkBtAddr : Ptr := 0

/-- The code of the program: `check_bt` at its address, with the parameters that `main` keeps in
an array. -/
def code (mpara : Ptr → Para) (func : Ptr) (param : Option Ptr) (mem : Ptr → Button) :
    Ptr → Button :=
  match param with
  | some a => if func = checkBtAddr then checkBt (mpara a) mem else mem
  | none => mem

/-! ## The buttons -/

/-- The buttons of the test, as `main` sets them up. -/
structure Grid (mlist : List Ptr) (mpara : Ptr → Para) (w : World) : Prop where
  nonempty : mlist ≠ []
  initial : w.Initial
  distinct : DistinctIds w.mem mlist
  fastTouch : ∀ b ∈ mlist, (w.mem b).fastTouch = .enable
  drawButtonInEnd : ∀ b ∈ mlist, (w.mem b).drawButtonInEnd = .disable
  mode : ∀ b ∈ mlist, (w.mem b).mode = .normal
  result : ∀ b ∈ mlist, (w.mem b).result = 0
  screen : ∀ b ∈ mlist, w.screen b = .release
  func : ∀ b ∈ mlist, (w.mem b).func = some checkBtAddr
  param : ∀ b ∈ mlist, ∃ a, (w.mem b).param = some a ∧ mpara a = ⟨b, mlist, mlist.length⟩

/-! ## Setting up the buttons -/

/-- A rectangle of the test: column, row, width and height. -/
structure Rect where
  x : Int32
  y : Int32
  width : Int32
  height : Int32

/-- The body of the inner loop of `main`: a new button, the `k`-th of the test. -/
def createButton (r : Rect) (k : ℕ) (a : App) : Ptr × App :=
  let (bt, a) := initDefaultButton r.x r.y r.width r.height a
  (bt, { a with
    world.mem := Function.update a.world.mem bt
      { a.world.mem bt with
        drawButtonInEnd := .disable
        fastTouch := .enable
        func := some checkBtAddr
        param := some k } })

/-- The loops of `main`: the array `bt_pass`, and the static data. -/
def createButtons : List Rect → ℕ → App → List Ptr × App
  | [], _, a => ([], a)
  | r :: rs, k, a =>
    let (bt, a) := createButton r k a
    let (btPass, a) := createButtons rs (k + 1) a
    (bt :: btPass, a)

/-- The array `mpara` of `main`. -/
def paras (btPass : List Ptr) (k : Ptr) : Para := ⟨btPass.getD k 0, btPass, btPass.length⟩

/-- The rectangles of `main`: five rows of five, for a screen of the given size. -/
def cells (fbWidth fbHeight : Int32) : List Rect :=
  (List.range 25).map fun k =>
    ⟨Int32.ofNat (k % 5) * (fbWidth / 5), Int32.ofNat (k / 5) * (fbHeight / 5), fbWidth / 5,
      fbHeight / 5⟩

/-- `main` up to `start_listen`, with the value of the environment variable `F1`: the array
`bt_pass`, and the static data. -/
def main (fbWidth fbHeight f1 : Int32) (a : App) : List Ptr × App :=
  let a := a.initParam fbWidth fbHeight
  let a := if f1 = 1 then { a with world := setSwap a.world } else a
  createButtons (cells fbWidth fbHeight) 0 a

/-- What a button of the test looks like before anybody touches it: the one with the given id,
whose parameter is the `k`-th. -/
structure IsFresh (w : World) (b : Ptr) (id : Int32) (k : ℕ) : Prop where
  id_eq : (w.mem b).id = id
  fastTouch : (w.mem b).fastTouch = .enable
  drawButtonInEnd : (w.mem b).drawButtonInEnd = .disable
  mode : (w.mem b).mode = .normal
  result : (w.mem b).result = 0
  screen : w.screen b = .release
  func : (w.mem b).func = some checkBtAddr
  param : (w.mem b).param = some k

/-- It depends on the button and its screen only. -/
lemma IsFresh.congr {w w' : World} {b : Ptr} {id : Int32} {k : ℕ} (h : IsFresh w b id k)
    (hm : w'.mem b = w.mem b) (hs : w'.screen b = w.screen b) : IsFresh w' b id k := by
  obtain ⟨h1, h2, h3, h4, h5, h6, h7, h8⟩ := h
  rw [← hm] at h1 h2 h3 h4 h5 h7 h8
  rw [← hs] at h6
  exact ⟨h1, h2, h3, h4, h5, h6, h7, h8⟩

/-- What the creation of one button does. -/
theorem createButton_spec (r : Rect) (k : ℕ) (a : App) :
    (createButton r k a).1 = a.brk ∧
      (createButton r k a).2.brk = a.brk + 1 ∧
      (createButton r k a).2.widgetId = a.widgetId + 1 ∧
      (createButton r k a).2.buttonList = a.buttonList ++ [a.brk] ∧
      (createButton r k a).2.world.recTouch = a.world.recTouch ∧
      IsFresh (createButton r k a).2.world a.brk a.widgetId.toInt32 k ∧
      ∀ p, p < a.brk → (createButton r k a).2.world.mem p = a.world.mem p ∧
        (createButton r k a).2.world.screen p = a.world.screen p := by
  refine ⟨rfl, rfl, rfl, addButton_eq_concat _ _, rfl, ?_, fun p hp => ?_⟩
  · constructor <;>
      simp [createButton, initDefaultButton, App.newButton, drawDefaultButton, drawImage]
  · have hne : p ≠ a.brk := Nat.ne_of_lt hp
    simp [createButton, initDefaultButton, App.newButton, drawDefaultButton, drawImage, hne]

/-- **What the loops of `main` do**: the buttons lie one after another, with consecutive ids, and
what was there before is untouched.

**Proof sketch.** Induction on the rectangles: the first button lies below all that are created
after it. -/
theorem createButtons_spec (rs : List Rect) : ∀ (k : ℕ) (a : App),
    (createButtons rs k a).1 = List.range' a.brk rs.length ∧
      (createButtons rs k a).2.buttonList = a.buttonList ++ (createButtons rs k a).1 ∧
      (createButtons rs k a).2.world.recTouch = a.world.recTouch ∧
      (∀ i < rs.length, IsFresh (createButtons rs k a).2.world (a.brk + i)
        (a.widgetId + UInt32.ofNat i).toInt32 (k + i)) ∧
      ∀ p, p < a.brk → (createButtons rs k a).2.world.mem p = a.world.mem p ∧
        (createButtons rs k a).2.world.screen p = a.world.screen p := by
  induction rs with
  | nil =>
    intro k a
    refine ⟨rfl, by simp [createButtons], rfl, fun i hi => absurd hi (by simp), ?_⟩
    exact fun p _ => ⟨rfl, rfl⟩
  | cons r rs ih =>
    intro k a
    obtain ⟨hfst, hbrk, hid, hlist, htouch, hfresh, hold⟩ := createButton_spec r k a
    obtain ⟨hfst', hlist', htouch', hfresh', hold'⟩ := ih (k + 1) (createButton r k a).2
    rw [hbrk] at hfst' hfresh' hold'
    have hcons : createButtons (r :: rs) k a =
        ((createButton r k a).1 :: (createButtons rs (k + 1) (createButton r k a).2).1,
          (createButtons rs (k + 1) (createButton r k a).2).2) := rfl
    rw [hcons]
    refine ⟨?_, ?_, htouch'.trans htouch, fun i hi => ?_, fun p hp => ?_⟩
    · rw [hfst, hfst', List.length_cons, List.range'_succ]
    · rw [hlist', hlist, hfst, List.append_assoc, List.singleton_append]
    · cases i with
      | zero =>
        obtain ⟨hm, hs⟩ := hold' a.brk (Nat.lt_succ_self _)
        simpa using hfresh.congr hm hs
      | succ i =>
        have := hfresh' i (by simpa using hi)
        rw [hid] at this
        rw [show a.brk + (i + 1) = a.brk + 1 + i by rw [Nat.add_assoc, Nat.add_comm i],
          show k + (i + 1) = k + 1 + i by rw [Nat.add_assoc, Nat.add_comm i],
          show a.widgetId + UInt32.ofNat (i + 1) = a.widgetId + 1 + UInt32.ofNat i by
            rw [UInt32.ofNat_add, UInt32.add_assoc, UInt32.add_comm (UInt32.ofNat i)]; rfl]
        exact this
    · obtain ⟨hm, hs⟩ := hold p hp
      obtain ⟨hm', hs'⟩ := hold' p (Nat.lt_succ_of_lt hp)
      exact ⟨hm'.trans hm, hs'.trans hs⟩

/-- **The buttons of `main`**, for rectangles of any number and place, are those of a test.

**Proof sketch.** `createButtons_spec` says where the buttons are and what they hold. Their ids
are those of their places, so they differ and none is `0`, and each has the parameter of its own
place. -/
theorem grid_createButtons {rs : List Rect} {a : App} (hne : rs ≠ [])
    (hlen : rs.length < 2 ^ 32 - 1) (hlist : a.buttonList = []) (hid : a.widgetId = 1)
    (hw : a.world.Initial) :
    (createButtons rs 0 a).2.buttonList = (createButtons rs 0 a).1 ∧
      Grid (createButtons rs 0 a).1 (paras (createButtons rs 0 a).1)
        (createButtons rs 0 a).2.world := by
  obtain ⟨hfst, hlist', htouch, hfresh, -⟩ := createButtons_spec rs 0 a
  rw [hlist, List.nil_append] at hlist'
  refine ⟨hlist', ?_⟩
  generalize createButtons rs 0 a = m at hfst hlist' htouch hfresh ⊢
  rw [hid] at hfresh
  have hcell : ∀ b ∈ m.1, a.brk ≤ b ∧ b - a.brk < rs.length ∧
      IsFresh m.2.world b (1 + UInt32.ofNat (b - a.brk)).toInt32 (b - a.brk) := by
    intro b hb
    rw [hfst, List.mem_range'_1] at hb
    obtain ⟨hle, hlt⟩ := hb
    have hi : b - a.brk < rs.length := Nat.sub_lt_left_of_lt_add hle hlt
    have h := hfresh (b - a.brk) hi
    rw [Nat.add_sub_cancel' hle, Nat.zero_add] at h
    exact ⟨hle, hi, h⟩
  refine ⟨?_, ⟨by rw [htouch]; exact hw.1, by rw [htouch]; exact hw.2⟩, ⟨?_, ?_⟩,
    fun b hb => (hcell b hb).2.2.fastTouch, fun b hb => (hcell b hb).2.2.drawButtonInEnd,
    fun b hb => (hcell b hb).2.2.mode, fun b hb => (hcell b hb).2.2.result,
    fun b hb => (hcell b hb).2.2.screen, fun b hb => (hcell b hb).2.2.func, ?_⟩
  · rw [hfst]
    exact fun h => hne (List.length_eq_zero_iff.mp (List.range'_eq_nil_iff.mp h))
  · intro b hb
    obtain ⟨-, hi, h⟩ := hcell b hb
    rw [h.id_eq]
    exact (id_inj (Nat.lt_trans hi hlen) (Nat.lt_trans hi hlen)).1
  · have hnodup : m.1.Nodup := by
      rw [hfst]
      exact List.nodup_range'
    apply hnodup.map_on
    intro b hb b' hb' hids
    obtain ⟨hle, hi, h⟩ := hcell b hb
    obtain ⟨hle', hi', h'⟩ := hcell b' hb'
    rw [h.id_eq, h'.id_eq] at hids
    have hindex := (id_inj (Nat.lt_trans hi hlen) (Nat.lt_trans hi' hlen)).2 hids
    calc b = b - a.brk + a.brk := (Nat.sub_add_cancel hle).symm
      _ = b' - a.brk + a.brk := by rw [hindex]
      _ = b' := Nat.sub_add_cancel hle'
  · intro b hb
    obtain ⟨hle, hi, h⟩ := hcell b hb
    refine ⟨b - a.brk, h.param, ?_⟩
    have hget : (List.range' a.brk rs.length)[b - a.brk]? = some b := by
      rw [List.getElem?_range' hi, Nat.one_mul, Nat.add_sub_cancel' hle]
    rw [paras, List.getD_eq_getElem?_getD, hfst, hget, Option.getD_some]

/-- The program itself: what `main` passes to `start_listen` is a test. -/
theorem grid_main (fbWidth fbHeight f1 : Int32) {a : App} (ha : a.buttonList = []) :
    (main fbWidth fbHeight f1 a).2.buttonList = (main fbWidth fbHeight f1 a).1 ∧
      Grid (main fbWidth fbHeight f1 a).1 (paras (main fbWidth fbHeight f1 a).1)
        (main fbWidth fbHeight f1 a).2.world := by
  have hne : cells fbWidth fbHeight ≠ [] := by simp [cells]
  have hlen : (cells fbWidth fbHeight).length < 2 ^ 32 - 1 := by simp [cells]
  unfold main
  split_ifs
  · exact grid_createButtons hne hlen ha rfl (initial_initParam fbWidth fbHeight a.world).2
  · exact grid_createButtons hne hlen ha rfl (initial_initParam fbWidth fbHeight a.world).1

/-- At some frame of the events, in which the touch machine came to `KEEP_TOUCH`, the button was
the one found by position. -/
def Hit (mlist : List Ptr) (w : World) (es : List InputEvent) (b : Ptr) : Prop :=
  Finger.Signal.frame (some b) ∈ w.signals mlist es

instance (mlist : List Ptr) (w : World) (es : List InputEvent) (b : Ptr) :
    Decidable (Hit mlist w es b) := inferInstanceAs (Decidable (_ ∈ _))

/-- The test goes on after the events `es`. -/
structure Covering (mlist : List Ptr) (w : World) (es : List InputEvent) (v : World) :
    Prop where
  reached : Reached mlist w es v
  mode : ∀ b ∈ mlist, (v.mem b).mode = .normal
  result : ∀ b ∈ mlist, (v.mem b).result = if Hit mlist w es b then 1 else 0
  screen : ∀ b ∈ mlist, v.screen b = if Hit mlist w es b then .press else .release
  missing : ∃ b ∈ mlist, ¬ Hit mlist w es b

/-- The test was ended by the last of the events `es`. -/
structure Covered (mlist : List Ptr) (w : World) (r : Int32) (es : List InputEvent) : Prop where
  returned : r = 0
  first : ∃ pre t, es = pre ++ [t] ∧ ∃ b ∈ mlist, ¬ Hit mlist w pre b
  all_hit : ∀ b ∈ mlist, Hit mlist w es b

/-- At the start nothing has been hit. -/
lemma Grid.covering {mlist : List Ptr} {mpara : Ptr → Para} {w : World}
    (h : Grid mlist mpara w) : Covering mlist w [] w := by
  have hno : ∀ b, ¬ Hit mlist w [] b := fun b => by simp [Hit]
  refine ⟨Reached.refl h.initial mlist, h.mode, ?_, ?_, ?_⟩
  · intro b hb
    rw [if_neg (hno b), h.result b hb]
  · intro b hb
    rw [if_neg (hno b), h.screen b hb]
  · obtain ⟨b, hb⟩ := List.exists_mem_of_ne_nil mlist h.nonempty
    exact ⟨b, hb, hno b⟩

namespace Covering

variable {mlist : List Ptr} {mpara : Ptr → Para} {w v : World} {es : List InputEvent}

/-- What one event more hits is what it activates.

**Proof sketch.** By the signal of the event. A frame hits the button under it; lifting activates
the button under the touch, which has been hit already. -/
lemma hit_concat_iff (h : Covering mlist w es v) (hg : Grid mlist mpara w) (t : InputEvent)
    (b : Ptr) : Hit mlist w (es ++ [t]) b ↔ Hit mlist w es b ∨
      (Finger.unseen.after (w.signals mlist es)).activated (isFast w.mem) (v.signal mlist t) =
        some b := by
  rw [Hit, h.reached.signals_concat, List.mem_append, List.mem_singleton, Finger.activated]
  apply or_congr_right'
  intro hno
  cases hsig : v.signal mlist t with
  | idle => simp
  | frame u =>
    cases u with
    | none => simp
    | some b' =>
      have hfast : isFast w.mem b' = true := by
        simp [isFast, hg.fastTouch b' (World.mem_of_signal_eq_frame hsig)]
      simp [hfast, eq_comm]
  | up =>
    have hunder : (Finger.unseen.after (w.signals mlist es)).under ≠ some b :=
      fun hu => hno (Finger.mem_of_under_eq_some hu)
    simpa using hunder

/-- What is on the screen after one event more: a button that has been hit is drawn pressed, and
never drawn released again.

**Proof sketch.** By what the event draws: the button that the touch comes to is drawn pressed, one
that it stays on is drawn already, and leaving draws nothing because the buttons do not draw in the
end. -/
lemma screen_catchEvent (h : Covering mlist w es v) (hg : Grid mlist mpara w) (t : InputEvent) :
    ∀ b ∈ mlist, (catchEvent mlist v t).1.screen b =
      if Hit mlist w (es ++ [t]) b then .press else .release := by
  intro b hb
  have hdraw : ¬ (v.mem b).drawButtonInEnd = .enable := by
    rw [h.reached.setup.drawButtonInEnd_eq, hg.drawButtonInEnd b hb]
    simp
  have hleave : ∀ u, (v.leave u).screen b = v.screen b := fun u => by
    rw [leave_screen, if_neg fun hc => hdraw hc.2]
  have hscreen := (catchEvent_marks h.reached.tracks (hg.distinct.congr h.reached.setup) t).2
  have hhit : Hit mlist w (es ++ [t]) b ↔
      Hit mlist w es b ∨ v.signal mlist t = .frame (some b) := by
    rw [Hit, h.reached.signals_concat, List.mem_append, List.mem_singleton, eq_comm]
    rfl
  rw [hscreen, if_congr hhit rfl rfl]
  generalize v.signal mlist t = s
  rcases s with _ | (_ | b') | _
  · simpa [World.marksOn] using h.screen b hb
  · simpa [World.marksOn, hleave] using h.screen b hb
  · rw [World.marksOn]
    by_cases hu : (Finger.unseen.after (w.signals mlist es)).under = some b'
    · -- the button was hit when the touch came to it
      have hb' : Hit mlist w es b' := Finger.mem_of_under_eq_some hu
      rw [if_pos hu, h.screen b hb]
      by_cases hbb : b' = b
      · subst hbb
        simp [hb']
      · simp [hbb]
    · rw [if_neg hu, enterButton_screen, hleave, h.screen b hb]
      by_cases hbb : b = b'
      · simp [hbb]
      · simp [hbb, Ne.symm hbb]
  · simpa [World.marksOn, hleave] using h.screen b hb

/-- An event that hits no other button than before leaves a button missing. -/
lemma concat (h : Covering mlist w es v) (hg : Grid mlist mpara w) (t : InputEvent)
    (hhit : ∀ b, Hit mlist w (es ++ [t]) b ↔ Hit mlist w es b) :
    Covering mlist w (es ++ [t]) (catchEvent mlist v t).1 := by
  have hsame := catchEvent_sameButState mlist v t
  refine ⟨(h.reached.step t).1, fun b hb => (hsame.mode_eq b).trans (h.mode b hb),
    fun b hb => ?_, h.screen_catchEvent hg t, ?_⟩
  · rw [hsame.result_eq, h.result b hb, if_congr (hhit b) rfl rfl]
  · obtain ⟨b, hb, hno⟩ := h.missing
    exact ⟨b, hb, fun hc => hno ((hhit b).mp hc)⟩

/-- An event on which nothing is returned hits nothing. -/
private lemma goesOn (h : Covering mlist w es v) (hg : Grid mlist mpara w) (t : InputEvent)
    (ht : (catchEvent mlist v t).2 = none) :
    Covering mlist w (es ++ [t]) (catchEvent mlist v t).1 := by
  have hret := (h.reached.step t).2
  rw [ht, eq_comm, Option.map_eq_none_iff] at hret
  refine h.concat hg t fun b => ?_
  rw [h.hit_concat_iff hg, Finger.activated, hret]
  simp

end Covering

/-! ## The verdict -/

/-- What `start_listen` does with the id of a button of the test: it notes that the button has
been touched, and returns if no button is missing any more.

**Proof sketch.** The function of the button is `check_bt_addr` with the parameter of the test,
so the call is `check_bt`; it returns at the first result that is `0`, and changes the mode
otherwise. -/
private lemma onReturn_grid {P : Program} {mpara : Ptr → Para} (hcode : P.code = code mpara)
    {v : World} {id : Int32} {b a : Ptr} (hfind : findButtonById v.mem id P.buttonList = some b)
    (hfunc : (v.mem b).func = some checkBtAddr) (hparam : (v.mem b).param = some a)
    (hpara : mpara a = ⟨b, P.buttonList, P.buttonList.length⟩)
    (hmode : (v.mem b).mode = .normal) :
    onReturn P id v =
      if ∃ b' ∈ P.buttonList, ((v.setResult b 1).mem b').result = 0 then
        (v.setResult b 1, none)
      else
        ({ v.setResult b 1 with
            mem := (setButtonMode (some b) .ecsListen (v.setResult b 1).mem).2 }, some 0) := by
  have hsame := sameSetup_setResult v b 1
  have hf := (hsame.func_eq b).trans hfunc
  have hp := (hsame.param_eq b).trans hparam
  have hcall : P.code checkBtAddr (some a) (v.setResult b 1).mem =
      checkBt ⟨b, P.buttonList, P.buttonList.length⟩ (v.setResult b 1).mem := by
    rw [hcode, code, if_pos rfl, hpara]
  simp only [onReturn, hfind, hf, hp, hcall]
  unfold checkBt
  simp only [List.take_length, List.any_eq_true, decide_eq_true_eq]
  split_ifs with hzero hmode' hmode'
  · simp [hmode] at hmode'
  · rfl
  · rfl
  · simp [setButtonMode] at hmode'

/-- Once the result of a button is noted, the results tell which buttons have been hit, that button
included, so a result is left at `0` exactly when a button is missing.

**Proof sketch.** A result is that of before, except for the button that has been activated, which
counts as hit from now on. -/
private lemma setResult_hit {mlist : List Ptr} {w v : World} {es : List InputEvent} {t : InputEvent}
    {b : Ptr}
    (hresult : ∀ b' ∈ mlist, (v.mem b').result = if Hit mlist w es b' then 1 else 0)
    (hact : ∀ b', Hit mlist w (es ++ [t]) b' ↔ Hit mlist w es b' ∨ b = b') :
    (∀ b' ∈ mlist, ((v.setResult b 1).mem b').result =
        if Hit mlist w (es ++ [t]) b' then 1 else 0) ∧
      ((∃ b' ∈ mlist, ((v.setResult b 1).mem b').result = 0) ↔
        ∃ b' ∈ mlist, ¬ Hit mlist w (es ++ [t]) b') := by
  have hnew : ∀ b' ∈ mlist, ((v.setResult b 1).mem b').result =
      if Hit mlist w (es ++ [t]) b' then 1 else 0 := by
    intro b' hb'
    rw [if_congr (hact b') rfl rfl, setResult_result, hresult b' hb']
    by_cases hbb : b' = b
    · simp [hbb]
    · simp [hbb, Ne.symm hbb]
  refine ⟨hnew, ?_⟩
  apply exists_congr
  intro b'
  apply and_congr_right
  intro hb'
  rw [hnew b' hb']
  split_ifs with hhit <;> simp [hhit]

/-- **One event of the test**: when `catch_action_for_button` returns, either a button is still
missing and the test goes on, or it is over.

**Proof sketch.** An id of no button changes nothing. That of a button notes its result
(`onReturn_grid`, `setResult_hit`): if a button is missing the invariant goes on, otherwise the test
is over after exactly this event. -/
theorem Grid.respects {P : Program} {mpara : Ptr → Para} {w : World}
    (hg : Grid P.buttonList mpara w) (hcode : P.code = code mpara) :
    Listen.Respects P (Covering P.buttonList w)
      (fun r es _ => Covered P.buttonList w r es) := by
  refine ⟨fun es v h => (hg.distinct.congr h.reached.setup).findButtonById_zero,
    fun es v t h ht => h.goesOn hg t ht, fun es v t id h ht => ?_⟩
  have hact := h.hit_concat_iff hg t
  obtain ⟨o, ho, hmem, hfind⟩ := h.reached.of_ret hg.distinct ht
  simp only [Finger.activated, ho, Option.join_some] at hact
  cases o with
  | none =>
    simp only [onReturn_of_eq_none hfind]
    exact ⟨fun _ => h.concat hg t fun b => by simpa using hact b, fun c hc => by simp at hc⟩
  | some b =>
    have hsame := catchEvent_sameButState P.buttonList v t
    have hscreen := h.screen_catchEvent hg t
    have hreached := (h.reached.step t).1
    have hmode : ∀ b ∈ P.buttonList, ((catchEvent P.buttonList v t).1.mem b).mode = .normal :=
      fun b hb => (hsame.mode_eq b).trans (h.mode b hb)
    have hresult : ∀ b ∈ P.buttonList, ((catchEvent P.buttonList v t).1.mem b).result =
        if Hit P.buttonList w es b then 1 else 0 :=
      fun b hb => (hsame.result_eq b).trans (h.result b hb)
    generalize (catchEvent P.buttonList v t).1 = v' at *
    have hb : b ∈ P.buttonList := hmem b rfl
    obtain ⟨a, ha, hpara⟩ := hg.param b hb
    obtain ⟨hnew, hzero⟩ := setResult_hit hresult fun b' => by simpa using hact b'
    rw [onReturn_grid hcode hfind ((hreached.setup.func_eq b).trans (hg.func b hb))
      ((hreached.setup.param_eq b).trans ha) hpara (hmode b hb), if_congr hzero rfl rfl]
    split_ifs with hmiss
    · refine ⟨fun _ => ⟨hreached.congr (sameSetup_setResult v' b 1) rfl rfl, fun b' hb' => ?_,
        hnew, hscreen, hmiss⟩, fun c hc => by simp at hc⟩
      exact (setResult_mode v' b 1 b').trans (hmode b' hb')
    · push Not at hmiss
      refine ⟨fun hc => by simp at hc, fun c hc => ⟨by simpa using hc.symm, ⟨es, t, rfl, ?_⟩,
        hmiss⟩⟩
      exact h.missing

/-- **The touch-screen test**: however touch and keyboard events arrive, `start_listen` has
returned exactly when every button of the test has been hit, and it returns at the event with
which the last one is; whenever it waits before that, a button has result `1` exactly when it has
been hit, and exactly then it was last drawn pressed.

**Proof sketch.** The rule for `start_listen`, with `Covering` as invariant and `Covered` at the
end (`Grid.respects`): a call returns on every event that hits a button, so no hit is missed, and
a lift returns a button that has been hit before, so none is counted that was not. -/
theorem returned_iff_all_hit (P : Program) (mpara : Ptr → Para) (hcode : P.code = code mpara)
    (w : World) (hg : Grid P.buttonList mpara w) (keyScreen : Ptr → Image)
    (bts keys : List InputEvent) (passes : List (List (Fd × ℕ))) (s : Listen)
    (h : run (pass P) (Listen.start w keyScreen bts keys) passes = some s) :
    Progress P bts keys passes s ∧
      (s.returned = some 0 ↔ ∀ b ∈ P.buttonList, Hit P.buttonList w s.btRead b) ∧
      (∀ r, s.returned = some r → r = 0 ∧ ∃ pre t, s.btRead = pre ++ [t] ∧
        ¬ ∀ b ∈ P.buttonList, Hit P.buttonList w pre b) ∧
      (s.returned = none → ∀ b ∈ P.buttonList,
        ((s.world.mem b).result = 1 ↔ Hit P.buttonList w s.btRead b) ∧
        (s.world.screen b = .press ↔ Hit P.buttonList w s.btRead b)) := by
  obtain ⟨hprogress, hwait, hdone⟩ := listen_rule (hg.respects hcode) hg.covering h
  refine ⟨hprogress, ⟨fun hr => (hdone 0 hr).all_hit, fun hall => ?_⟩, fun r hr => ?_,
    fun hr b hb => ?_⟩
  · cases hr : s.returned with
    | none =>
      obtain ⟨b, hb, hno⟩ := (hwait hr).missing
      exact absurd (hall b hb) hno
    | some r => rw [(hdone r hr).returned]
  · obtain ⟨hzero, ⟨pre, t, hread, b, hb, hno⟩, -⟩ := hdone r hr
    exact ⟨hzero, pre, t, hread, fun hall => hno (hall b hb)⟩
  · rw [(hwait hr).result b hb, (hwait hr).screen b hb]
    by_cases hhit : Hit P.buttonList w s.btRead b <;> simp [hhit]

/-- The two buttons side by side, set up as a test. -/
def gridSideBySide : World :=
  { sideBySide with
    mem := fun p =>
      { sideBySide.mem p with
        fastTouch := .enable
        drawButtonInEnd := .disable
        func := some checkBtAddr
        param := some p } }

/-- The parameters of the two buttons. -/
def paraSideBySide (a : Ptr) : Para := ⟨a, [0, 1], 2⟩

/-- A finger that slides from one button to the other. -/
theorem returned_iff_all_hit_slide :
    ∃ s, run (pass ⟨code paraSideBySide, [0, 1], []⟩)
        (Listen.start gridSideBySide (fun _ => .release)
          (moveTo 5 5 ++ [sync] ++ moveTo 25 5 ++ [sync]) [⟨evKey, 116, 1⟩])
        [[(.bt, 4)], [(.key, 1), (.bt, 3)]] = some s ∧
      (s.returned = some 0 ↔ ∀ b ∈ [0, 1], Hit [0, 1] gridSideBySide s.btRead b) := by
  refine ⟨_, rfl, ?_⟩
  have hg : Grid [0, 1] paraSideBySide gridSideBySide :=
    ⟨by decide, ⟨rfl, rfl⟩, by decide, by decide, by decide, by decide, by decide, by decide,
      by decide, fun b _ => ⟨b, rfl, rfl⟩⟩
  exact (returned_iff_all_hit ⟨code paraSideBySide, [0, 1], []⟩ paraSideBySide rfl gridSideBySide
    hg (fun _ => .release) (moveTo 5 5 ++ [sync] ++ moveTo 25 5 ++ [sync]) [⟨evKey, 116, 1⟩]
    [[(.bt, 4)], [(.key, 1), (.bt, 3)]] _ rfl).2.1

end JzPretest.TestTouchButton

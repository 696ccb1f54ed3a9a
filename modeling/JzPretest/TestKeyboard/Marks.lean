import JzPretest.TestKeyboard.Runs
import Mathlib.Data.List.Nodup

set_option relaxedAutoImplicit false
set_option autoImplicit false

/-!
# The pressed mark and the pressed image

`catch_action_for_button` marks a button by its `state` field and moves the mark when the touch
moves on. When the ids of a list are distinct and not `0`, the button it looks up by the
remembered id is the button under the last frame, so the mark can be followed along any run.

## Main definitions

* `JzPretest.Widget.DistinctIds` — the ids of a list are distinct and not `0`.
* `JzPretest.Widget.Marked`, `JzPretest.Widget.Held` — where the mark is.

## Main results

* `JzPretest.Widget.Reached.of_ret` — the id a call returns is found again by the lookup.
* `JzPretest.Widget.btId_eq_idOf_button_under_touch` — the remembered id is never stale.
* `JzPretest.Widget.keepTouch_only_on_btId` — at most one button is marked.
* `JzPretest.Widget.looksPressed_iff_noRestart` — the button under the finger looks pressed
  exactly as long as no gesture begins where the last one ended.
-/

namespace JzPretest.Widget

open EventLoop

/-! ## The remembered id is never stale -/

/-- **The remembered id**: whatever the events and however they are split into calls, after
every event that leaves the touch machine in `KEEP_TOUCH` or `END_TOUCH` the remembered id is
that of the first button of the list under the touch, `0` if there is none; so this is the id a
call returns at `END_TOUCH`. When no rectangle wraps, a button is under the touch if its rectangle
contains the position strictly.

**Proof sketch.** `Tracks` holds initially and is preserved by every event
(`Tracks.step`); an id is returned at `END_TOUCH` only when the finger is lifted, and
then it is the remembered one. The rectangles are those of the beginning
(`stateAfter_catchEvent`). -/
theorem btId_eq_idOf_button_under_touch (mlist : List Ptr) (w : World) (hw : w.Initial)
    (es : List InputEvent) (ks : List ℕ) :
    ∀ r ∈ (catchCalls mlist w es ks).history,
      (r.after.recTouch.state = .keepTouch ∨ r.after.recTouch.state = .endTouch →
        r.after.recTouch.btId = idOf r.after.mem
          (findButtonByPosition r.after.mem r.after.recTouch mlist)) ∧
      (r.after.recTouch.state = .endTouch → ∀ id, r.ret = some id →
        id = idOf r.after.mem (findButtonByPosition r.after.mem r.after.recTouch mlist)) ∧
      ((∀ b ∈ mlist, (w.mem b).ps.NoWrap) →
        findButtonByPosition r.after.mem r.after.recTouch mlist = mlist.find? fun b =>
          (w.mem b).ps.Contains r.after.recTouch.x.toNat r.after.recTouch.y.toNat) := by
  intro r hr
  rw [catchCalls, (Session.calls_trace _ w es ks).1, mem_trace_iff] at hr
  obtain ⟨pre, t, post, -, rfl⟩ := hr
  have hset : SameSetup w.mem (catchEvent mlist (stateAfter (catchEvent mlist) w pre) t).1.mem :=
    (stateAfter_catchEvent mlist w pre).2.1.trans (catchEvent_sameButState mlist _ t).sameSetup
  obtain ⟨f, hf⟩ := hw.tracks_stateAfter mlist pre
  generalize stateAfter (catchEvent mlist) w pre = v at hf hset
  have hf' := (hf.step t).1
  have hnew : (catchEvent mlist v t).1.recTouch.state ≠ .resetTouch →
      (catchEvent mlist v t).1.recTouch.btId = idOf (catchEvent mlist v t).1.mem
        (findButtonByPosition (catchEvent mlist v t).1.mem
          (catchEvent mlist v t).1.recTouch mlist) := by
    intro hne
    rw [hf'.btId, hf'.current hne]
  dsimp only [readOf]
  refine ⟨fun h => hnew (by rcases h with h | h <;> simp [h]), fun hend id hid => ?_,
    fun hwrap => ?_⟩
  swap
  · exact (hset.findButtonByPosition_eq _ mlist).trans (findButtonByPosition_eq_of_noWrap hwrap _)
  rw [← hnew (by simp [hend])]
  rw [catchEvent_ret] at hid
  rcases catchEvent_cases mlist v t with ⟨-, hsig, -⟩ | ⟨-, -, -, hr⟩ | ⟨-, -, hsig, hr⟩ |
    ⟨-, -, hsig, -⟩ | ⟨-, -, hsig, -⟩
  · simp [hsig, returnOn] at hid
  · simp [hr] at hend
  · rw [hr]
    simpa [hsig, returnOn] using hid.symm
  · simp [hsig, returnOn] at hid
  · simp [hsig, returnOn] at hid

/-- Two taps on one of two buttons. -/
theorem btId_eq_idOf_tapAgain :
    (catchCalls [0, 1] sideBySide tapAgain [4, 3]).history.length = 7 ∧
      ∀ r ∈ (catchCalls [0, 1] sideBySide tapAgain [4, 3]).history,
        (r.after.recTouch.state = .keepTouch ∨ r.after.recTouch.state = .endTouch →
          r.after.recTouch.btId = idOf r.after.mem
            (findButtonByPosition r.after.mem r.after.recTouch [0, 1])) ∧
        (r.after.recTouch.state = .endTouch → ∀ id, r.ret = some id →
          id = idOf r.after.mem (findButtonByPosition r.after.mem r.after.recTouch [0, 1])) ∧
        ((∀ b ∈ [0, 1], (sideBySide.mem b).ps.NoWrap) →
          findButtonByPosition r.after.mem r.after.recTouch [0, 1] = [0, 1].find? fun b =>
            (sideBySide.mem b).ps.Contains r.after.recTouch.x.toNat r.after.recTouch.y.toNat) :=
  ⟨by decide, btId_eq_idOf_button_under_touch [0, 1] sideBySide ⟨rfl, rfl⟩ tapAgain [4, 3]⟩

/-! ## Lists of buttons with distinct ids -/

/-- The ids of a list are pairwise distinct, and none is `0`. -/
structure DistinctIds (mem : Ptr → Button) (mlist : List Ptr) : Prop where
  ne_zero : ∀ b ∈ mlist, (mem b).id ≠ 0
  nodup : (mlist.map fun b => (mem b).id).Nodup

instance (mem : Ptr → Button) (mlist : List Ptr) : Decidable (DistinctIds mem mlist) :=
  decidable_of_iff ((∀ b ∈ mlist, (mem b).id ≠ 0) ∧ (mlist.map fun b => (mem b).id).Nodup)
    ⟨fun h => ⟨h.1, h.2⟩, fun h => ⟨h.1, h.2⟩⟩

namespace DistinctIds

variable {mem mem' : Ptr → Button} {mlist : List Ptr}

/-- Distinct ids are set up once and for all. -/
theorem congr (h : DistinctIds mem mlist) (hm : SameSetup mem mem') :
    DistinctIds mem' mlist := by
  refine ⟨fun b hb => hm.id_eq b ▸ h.ne_zero b hb, ?_⟩
  simpa only [hm.id_eq] using h.nodup

/-- Two buttons of the list with one id are one button. -/
theorem eq_of_id_eq (h : DistinctIds mem mlist) {b b' : Ptr} (hb : b ∈ mlist) (hb' : b' ∈ mlist)
    (hid : (mem b).id = (mem b').id) : b = b' :=
  List.inj_on_of_nodup_map h.nodup hb hb' hid

/-- No button has the id that stands for none. -/
theorem findButtonById_zero (h : DistinctIds mem mlist) : findButtonById mem 0 mlist = none :=
  findButtonById_eq_none.mpr h.ne_zero

/-- The lookup by id undoes `idOf`. -/
theorem findButtonById_idOf (h : DistinctIds mem mlist) {u : Option Ptr}
    (hu : ∀ b ∈ u, b ∈ mlist) : findButtonById mem (idOf mem u) mlist = u := by
  cases u with
  | none => exact h.findButtonById_zero
  | some b =>
    have hb : b ∈ mlist := hu b rfl
    cases hf : findButtonById mem (idOf mem (some b)) mlist with
    | none => exact absurd rfl (findButtonById_eq_none.mp hf b hb)
    | some b' =>
      obtain ⟨hb', hid⟩ := findButtonById_some hf
      rw [h.eq_of_id_eq hb' hb hid]

end DistinctIds

/-- **What a call returns** on an event is the id of what the finger's signal activates, and the
lookup by that id finds it again. -/
theorem Reached.of_ret {mlist : List Ptr} {w v : World} {es : List InputEvent}
    (h : Reached mlist w es v) (hd : DistinctIds w.mem mlist) {t : InputEvent} {id : Int32}
    (ht : (catchEvent mlist v t).2 = some id) :
    ∃ o, (Finger.unseen.after (w.signals mlist es)).outcome (isFast w.mem) (v.signal mlist t) =
        some o ∧ (∀ b ∈ o, b ∈ mlist) ∧
      findButtonById (catchEvent mlist v t).1.mem id mlist = o := by
  obtain ⟨hreached, hret⟩ := h.step t
  rw [ht, eq_comm, Option.map_eq_some_iff] at hret
  obtain ⟨o, ho, rfl⟩ := hret
  have hmem := h.tracks.mem_of_outcome ho
  refine ⟨o, ho, hmem, ?_⟩
  rw [hreached.setup.findButtonById_eq, hd.findButtonById_idOf hmem]

/-- Leave a button, if there is one. -/
def World.leave (w : World) : Option Ptr → World
  | none => w
  | some b => leaveButton b w

/-- What a signal does to the marks and the screen, `u` being the button under the last
frame. -/
def World.marksOn (w : World) (u : Option Ptr) : Finger.Signal Ptr → World
  | .idle => w
  | .frame none => w.leave u
  | .frame (some b) => if u = some b then w else enterButton b (w.leave u)
  | .up => w.leave u

/-- `case KEEP_TOUCH` moves the mark from the remembered button to the one it finds.

**Proof sketch.** By whether there is a button under the touch and whether one is remembered: the
code compares ids, which are equal exactly for the same button. -/
private lemma caseKeepTouch_marks {mlist : List Ptr} {w : World} {u : Option Ptr}
    (hd : DistinctIds w.mem mlist) (hu : ∀ b ∈ u, b ∈ mlist)
    (hid : findButtonById w.mem w.recTouch.btId mlist = u) :
    (caseKeepTouch mlist w).1.mem =
        (w.marksOn u (.frame (findButtonByPosition w.mem w.recTouch mlist))).mem ∧
      (caseKeepTouch mlist w).1.screen =
        (w.marksOn u (.frame (findButtonByPosition w.mem w.recTouch mlist))).screen := by
  unfold caseKeepTouch
  rw [hid]
  cases hp : findButtonByPosition w.mem w.recTouch mlist with
  | none => cases u <;> exact ⟨rfl, rfl⟩
  | some b =>
    cases u with
    | none =>
      have hne : (none : Option Ptr) ≠ some b := by simp
      simp only [World.marksOn, World.leave, if_neg hne]
      split_ifs <;> exact ⟨rfl, rfl⟩
    | some b' =>
      have hb : b ∈ mlist := (findButtonByPosition_some hp).1
      by_cases hbb : some b' = some b
      · have hids : ¬ (w.mem b').id ≠ (w.mem b).id := by
          obtain rfl : b' = b := Option.some.inj hbb
          exact fun h => h rfl
        simp only [World.marksOn, if_neg hids, if_pos hbb]
        split_ifs <;> exact ⟨rfl, rfl⟩
      · have hids : (w.mem b').id ≠ (w.mem b).id := fun h =>
          hbb (congrArg some (hd.eq_of_id_eq (hu b' rfl) hb h))
        simp only [World.marksOn, World.leave, if_pos hids, if_neg hbb]
        split_ifs <;> exact ⟨rfl, rfl⟩

/-- `case END_TOUCH` takes the mark from the remembered button. -/
private lemma caseEndTouch_marks {mlist : List Ptr} {w : World} {u : Option Ptr}
    (hid : findButtonById w.mem w.recTouch.btId mlist = u) :
    (caseEndTouch mlist w).1.mem = (w.marksOn u .up).mem ∧
      (caseEndTouch mlist w).1.screen = (w.marksOn u .up).screen := by
  rw [caseEndTouch_eq, hid]
  cases u <;> exact ⟨rfl, rfl⟩

/-- The touch record has no part in what a signal does to the marks and the screen. -/
private lemma marksOn_withRecTouch (w : World) (m : Touch) (u : Option Ptr)
    (s : Finger.Signal Ptr) :
    ({ w with recTouch := m }.marksOn u s).mem = (w.marksOn u s).mem ∧
      ({ w with recTouch := m }.marksOn u s).screen = (w.marksOn u s).screen := by
  rcases s with _ | (_ | b) | _
  · exact ⟨rfl, rfl⟩
  · cases u <;> simp [World.marksOn, World.leave, leaveButton_eq, World.setState]
  · simp only [World.marksOn]
    split_ifs
    · exact ⟨rfl, rfl⟩
    · cases u <;> simp [World.leave, leaveButton_eq, enterButton_eq, World.setState]
  · cases u <;> simp [World.marksOn, World.leave, leaveButton_eq, World.setState]

/-- **What one pass of the loop does** to the marks and the screen, when the ids are
distinct.

**Proof sketch.** The remembered id is found again because the ids are distinct, so each case of the
code moves the mark of the button under the finger. -/
theorem catchEvent_marks {mlist : List Ptr} {w : World} {f : Finger Ptr}
    (h : Tracks mlist w f) (hd : DistinctIds w.mem mlist) (t : InputEvent) :
    (catchEvent mlist w t).1.mem = (w.marksOn f.under (w.signal mlist t)).mem ∧
      (catchEvent mlist w t).1.screen = (w.marksOn f.under (w.signal mlist t)).screen := by
  have hid : findButtonById w.mem (getTouch w.panel t w.recTouch).2.btId mlist = f.under := by
    rw [getTouch_btId, h.btId, hd.findButtonById_idOf h.mem_list]
  unfold catchEvent World.signal signalOf
  generalize getTouch w.panel t w.recTouch = r at hid ⊢
  obtain ⟨code, x, y, state, id⟩ := r
  dsimp only at hid ⊢
  by_cases hc : code = 0
  · rw [if_pos hc, if_pos hc]
    cases state with
    | resetTouch => exact ⟨rfl, rfl⟩
    | keepTouch =>
      let v : World := { w with recTouch := ⟨x, y, .keepTouch, id⟩ }
      obtain ⟨h1, h2⟩ := caseKeepTouch_marks (w := v) hd h.mem_list hid
      obtain ⟨h3, h4⟩ := marksOn_withRecTouch w v.recTouch f.under
        (.frame (findButtonByPosition v.mem v.recTouch mlist))
      exact ⟨h1.trans h3, h2.trans h4⟩
    | endTouch =>
      let v : World := { w with recTouch := ⟨x, y, .endTouch, id⟩ }
      obtain ⟨h1, h2⟩ := caseEndTouch_marks (w := v) hid
      obtain ⟨h3, h4⟩ := marksOn_withRecTouch w v.recTouch f.under .up
      exact ⟨h1.trans h3, h2.trans h4⟩
  · rw [if_neg hc, if_neg hc]
    exact ⟨rfl, rfl⟩

/-- Leaving a button clears its mark and no other. -/
lemma leave_state (w : World) (u : Option Ptr) (p : Ptr) :
    ((w.leave u).mem p).state = if u = some p then .resetTouch else (w.mem p).state := by
  cases u with
  | none => simp [World.leave]
  | some b =>
    by_cases h : b = p
    · subst h
      simp [World.leave, World.setState]
    · simp [World.leave, World.setState, h, Ne.symm h]

/-- Leaving a button draws it released if it asks for that, and draws no other. -/
theorem leave_screen (w : World) (u : Option Ptr) (p : Ptr) :
    (w.leave u).screen p =
      if u = some p ∧ (w.mem p).drawButtonInEnd = .enable then .release else w.screen p := by
  cases u with
  | none => simp [World.leave]
  | some b =>
    by_cases h : b = p
    · subst h
      by_cases hd : (w.mem b).drawButtonInEnd = .enable <;>
        simp [World.leave, leaveButton_eq, hd]
    · by_cases hd : (w.mem b).drawButtonInEnd = .enable <;>
        simp [World.leave, leaveButton_eq, hd, h, Ne.symm h]

/-- Entering a button marks it and no other. -/
lemma enterButton_state (b : Ptr) (w : World) (p : Ptr) :
    ((enterButton b w).mem p).state = if p = b then .keepTouch else (w.mem p).state := by
  by_cases h : p = b
  · subst h
    simp [World.setState]
  · simp [World.setState, h]

/-- Entering a button draws it pressed, and draws no other. -/
theorem enterButton_screen (b : Ptr) (w : World) (p : Ptr) :
    (enterButton b w).screen p = if p = b then .press else w.screen p := by
  rw [enterButton_eq]
  simp [Function.update_apply]

/-! ## At most one button is marked -/

/-- Only the button under the last frame can be marked, and only until the finger is lifted. -/
structure Marked (mlist : List Ptr) (w : World) (f : Finger Ptr) : Prop where
  tracks : Tracks mlist w f
  distinct : DistinctIds w.mem mlist
  only : ∀ b ∈ mlist, (w.mem b).state = .keepTouch → f.under = some b ∧ f.lifted = false
  ended : w.recTouch.state = .endTouch → f.lifted = true

/-- Every event preserves where the mark is.

**Proof sketch.** A frame takes the mark from the button under the last frame and gives it to
the one it is on; lifting the finger takes it from the button under the last frame. Since no
other button was marked, none is left marked. -/
theorem Marked.step {mlist : List Ptr} {w : World} {f : Finger Ptr}
    (h : Marked mlist w f) (t : InputEvent) :
    Marked mlist (catchEvent mlist w t).1 (f.step (w.signal mlist t)) := by
  have hset := (catchEvent_sameButState mlist w t).sameSetup
  have hmem := (catchEvent_marks h.tracks h.distinct t).1
  refine ⟨(h.tracks.step t).1, h.distinct.congr hset, fun b hb hstate => ?_, ?_⟩
  · rw [hmem] at hstate
    cases hsig : w.signal mlist t with
    | idle =>
      rw [hsig] at hstate
      exact h.only b hb hstate
    | up =>
      rw [hsig, World.marksOn, leave_state] at hstate
      split_ifs at hstate with hu
      exact absurd (h.only b hb hstate).1 hu
    | frame o =>
      cases o with
      | none =>
        rw [hsig, World.marksOn, leave_state] at hstate
        split_ifs at hstate with hu
        exact absurd (h.only b hb hstate).1 hu
      | some b' =>
        rw [hsig, World.marksOn] at hstate
        by_cases hu : f.under = some b'
        · rw [if_pos hu] at hstate
          have := (h.only b hb hstate).1
          exact ⟨hu.symm.trans this, rfl⟩
        · rw [if_neg hu, enterButton_state, leave_state] at hstate
          split_ifs at hstate with hbb hub
          · exact ⟨congrArg some hbb.symm, rfl⟩
          · exact absurd (h.only b hb hstate).1 hub
  · intro hend
    rcases catchEvent_cases mlist w t with ⟨-, -, x, y, hr⟩ | ⟨-, -, -, hr⟩ | ⟨-, -, hsig, -⟩ |
      ⟨-, -, -, hr⟩ | ⟨-, -, hsig, hr⟩
    · simp [hr] at hend
    · simp [hr] at hend
    · simp [hsig]
    · simp [hr] at hend
    · rw [hsig, Finger.step_idle]
      exact h.ended (by rwa [hr] at hend)

/-- **At most one button is pressed**: if no button of a list with distinct ids starts out
marked, then after every event of every run a marked button is the remembered one; so there is
at most one, and none once the finger has been lifted.

**Proof sketch.** That a marked button is the one under the finger, which is remembered, is an
invariant of every event (`Marked.step`). Two marked buttons are then the same, and when the finger
is lifted none is under it. -/
theorem keepTouch_only_on_btId (mlist : List Ptr) (w : World) (hw : w.Initial)
    (hd : DistinctIds w.mem mlist) (hreset : ∀ b ∈ mlist, (w.mem b).state ≠ .keepTouch)
    (es : List InputEvent) (ks : List ℕ) :
    ∀ r ∈ (catchCalls mlist w es ks).history,
      (∀ b ∈ mlist, (r.after.mem b).state = .keepTouch →
        (r.after.mem b).id = r.after.recTouch.btId) ∧
      (∀ b ∈ mlist, ∀ b' ∈ mlist, (r.after.mem b).state = .keepTouch →
        (r.after.mem b').state = .keepTouch → b = b') ∧
      (r.after.recTouch.state = .endTouch →
        ∀ b ∈ mlist, (r.after.mem b).state ≠ .keepTouch) := by
  have hinit : Marked mlist w .unseen :=
    ⟨hw.tracks mlist, hd, fun b hb h => absurd h (hreset b hb), fun h => by simp [hw.1] at h⟩
  intro r hr
  rw [catchCalls, (Session.calls_trace _ w es ks).1] at hr
  obtain ⟨f, hf⟩ : ∃ f, Marked mlist r.after f :=
    trace_invariant (catchEvent mlist) (I := fun v => ∃ f, Marked mlist v f)
      (fun _ e ⟨_, hf⟩ => ⟨_, hf.step e⟩) ⟨_, hinit⟩ _ r hr
  refine ⟨fun b hb h => ?_, fun b hb b' hb' h h' => ?_, fun hend b hb h => ?_⟩
  · rw [hf.tracks.btId, (hf.only b hb h).1]
    rfl
  · exact Option.some.inj ((hf.only b hb h).1.symm.trans (hf.only b' hb' h').1)
  · have := (hf.only b hb h).2
    rw [hf.ended hend] at this
    exact absurd this (by simp)

/-- Two taps on the same button. -/
theorem keepTouch_only_on_btId_tapAgain :
    (catchCalls [0, 1] sideBySide tapAgain [4, 3]).history.length = 7 ∧
      ∀ r ∈ (catchCalls [0, 1] sideBySide tapAgain [4, 3]).history,
        (∀ b ∈ [0, 1], (r.after.mem b).state = .keepTouch →
          (r.after.mem b).id = r.after.recTouch.btId) ∧
        (∀ b ∈ [0, 1], ∀ b' ∈ [0, 1], (r.after.mem b).state = .keepTouch →
          (r.after.mem b').state = .keepTouch → b = b') ∧
        (r.after.recTouch.state = .endTouch →
          ∀ b ∈ [0, 1], (r.after.mem b).state ≠ .keepTouch) :=
  ⟨by decide, keepTouch_only_on_btId [0, 1] sideBySide ⟨rfl, rfl⟩ (by decide) (by decide)
    tapAgain [4, 3]⟩

/-! ## The button under the finger looks pressed -/

/-- What a report that ends on a button has to show: the button is marked, and drawn pressed. -/
def LooksPressed (mlist : List Ptr) (r : Read World InputEvent Int32) : Prop :=
  r.event.IsSync → r.after.recTouch.state = .keepTouch →
    ∀ b, findButtonByPosition r.after.mem r.after.recTouch mlist = some b →
      (r.after.mem b).state = .keepTouch ∧ r.after.screen b = .press

/-- The button under the last frame is marked and drawn pressed until the finger is lifted, and
is not marked any more after that. -/
structure Held (w : World) (f : Finger Ptr) : Prop where
  pressed : ∀ b, f.under = some b → f.lifted = false →
    (w.mem b).state = .keepTouch ∧ w.screen b = .press
  released : ∀ b, f.under = some b → f.lifted = true → (w.mem b).state ≠ .keepTouch

/-- Every event after which no gesture has restarted keeps the button under the finger held.

**Proof sketch.** By the signal. A touch that comes to a button marks and draws it; one that stays
on it finds it held, unless the finger has been lifted and the gesture restarts. -/
lemma Held.step {mlist : List Ptr} {w : World} {f : Finger Ptr} (h : Held w f)
    (ht : Tracks mlist w f) (hd : DistinctIds w.mem mlist) {t : InputEvent}
    (hr : ¬ f.Restarts (w.signal mlist t)) :
    Held (catchEvent mlist w t).1 (f.step (w.signal mlist t)) := by
  obtain ⟨hmem, hscreen⟩ := catchEvent_marks ht hd t
  generalize hsig : w.signal mlist t = s at hr hmem hscreen
  rcases s with _ | (_ | b) | _
  · exact ⟨fun b hu hl => by rw [hmem, hscreen]; exact h.pressed b hu hl,
      fun b hu hl => by rw [hmem]; exact h.released b hu hl⟩
  · exact ⟨fun b hu => by simp at hu, fun b hu => by simp at hu⟩
  · refine ⟨fun b' hu _ => ?_, fun b' _ hl => by simp at hl⟩
    obtain rfl : b = b' := Option.some.inj hu
    rw [hmem, hscreen, World.marksOn]
    by_cases hub : f.under = some b
    · -- the touch has stayed on the button, so it is held already
      have hl : f.lifted = false := by
        cases hl : f.lifted with
        | false => rfl
        | true => exact absurd ⟨hl, hub⟩ hr
      rw [if_pos hub]
      exact h.pressed b hub hl
    · rw [if_neg hub, enterButton_state, enterButton_screen]
      simp
  · refine ⟨fun b _ hl => by simp at hl, fun b hu _ => ?_⟩
    rw [hmem, World.marksOn, leave_state, if_pos (by simpa using hu)]
    simp

/-- As long as the button under the finger is held, a report shows it pressed exactly when no
gesture restarts with it.

**Proof sketch.** If the gesture restarts, the button under the touch has been released and staying
on it marks nothing. Otherwise it is still held after the event (`Held.step`), and it is the one
under the touch. -/
lemma Held.looksPressed_iff {mlist : List Ptr} {w : World} {f : Finger Ptr} (h : Held w f)
    (ht : Tracks mlist w f) (hd : DistinctIds w.mem mlist) (t : InputEvent) :
    LooksPressed mlist (readOf (catchEvent mlist) w t) ↔
      ¬ f.Restarts (w.signal mlist t) := by
  have hset := (catchEvent_sameButState mlist w t).sameSetup
  constructor
  · intro hlook hres
    obtain ⟨hmem, -⟩ := catchEvent_marks ht hd t
    rcases catchEvent_cases mlist w t with ⟨-, hsig, -⟩ | ⟨hsync, -, hsig, hr⟩ | ⟨-, -, hsig, -⟩ |
      ⟨-, -, hsig, -⟩ | ⟨-, -, hsig, -⟩
    · simp [hsig, Finger.Restarts] at hres
    · cases hp : findButtonByPosition w.mem w.recTouch mlist with
      | none => simp [hsig, hp, Finger.Restarts] at hres
      | some b =>
        rw [hsig, hp] at hres hmem
        obtain ⟨hl, hu⟩ := hres
        have hfind : findButtonByPosition (catchEvent mlist w t).1.mem
            (catchEvent mlist w t).1.recTouch mlist = some b := by
          rw [hset.findButtonByPosition_eq, hr]
          exact hp
        have hstate := (hlook hsync (by rw [readOf_after, hr]) b hfind).1
        rw [readOf_after, hmem, World.marksOn, if_pos hu] at hstate
        exact h.released b hu hl hstate
    · simp [hsig, Finger.Restarts] at hres
    · simp [hsig, Finger.Restarts] at hres
    · simp [hsig, Finger.Restarts] at hres
  · intro hres hsync hkeep b hb
    dsimp only [readOf] at hkeep hb ⊢
    have hheld := h.step ht hd hres
    have hcur := (ht.step t).1.current (by simp [hkeep])
    rcases catchEvent_cases mlist w t with ⟨-, -, x, y, hr⟩ | ⟨-, -, hsig, hr⟩ | ⟨-, -, -, hr⟩ |
      ⟨-, -, -, hr⟩ | ⟨-, hns, -⟩
    · simp [hr] at hkeep
    · exact hheld.pressed b (hcur.trans hb) (by rw [hsig]; rfl)
    · simp [hr] at hkeep
    · simp [hr] at hkeep
    · exact absurd hsync hns

/-- **The button under the finger looks pressed** after every report of a run, marked and drawn
so, exactly when no gesture of the run begins on the button on which the gesture before it
ended. The remembered id outlives the gesture, so such a button is taken for one that is
pressed already.

**Proof sketch.** Induction on the events. As long as no gesture restarts, the button under the
finger is held (`Held.step`) and every report shows it pressed; the first report that
restarts a gesture finds its button remembered but no longer marked, and leaves it so. -/
theorem looksPressed_iff_noRestart (mlist : List Ptr) (w : World) (hw : w.Initial)
    (hd : DistinctIds w.mem mlist) (es : List InputEvent) (ks : List ℕ) :
    (∀ r ∈ (catchCalls mlist w es ks).history, LooksPressed mlist r) ↔
      Finger.unseen.NoRestart (w.signals mlist (catchCalls mlist w es ks).events) := by
  rw [catchCalls, (Session.calls_trace _ w es ks).1]
  generalize ((Session.start w es).calls (catchEvent mlist) ks).events = read
  have key : ∀ (es : List InputEvent) (w : World) (f : Finger Ptr), Tracks mlist w f →
      DistinctIds w.mem mlist → Held w f →
      ((∀ r ∈ trace (catchEvent mlist) w es, LooksPressed mlist r) ↔
        f.NoRestart (w.signals mlist es)) := by
    intro es
    induction es with
    | nil => simp [trace, Finger.NoRestart]
    | cons t es ih =>
      intro w f ht hd hh
      rw [trace, List.forall_mem_cons, hh.looksPressed_iff ht hd, World.signals_cons,
        Finger.NoRestart, and_congr_right_iff]
      intro hres
      exact ih _ _ (ht.step t).1 (hd.congr (catchEvent_sameButState mlist w t).sameSetup)
        (hh.step ht hd hres)
  exact key read w .unseen (hw.tracks mlist) hd
    ⟨fun b h => by simp [Finger.unseen] at h, fun b h => by simp [Finger.unseen] at h⟩

/-- One tap. -/
theorem looksPressed_iff_noRestart_tap :
    (∀ r ∈ (catchCalls [0, 1] sideBySide (moveTo 5 5 ++ [sync, sync]) [3, 1]).history,
      LooksPressed [0, 1] r) ↔
      Finger.unseen.NoRestart (sideBySide.signals [0, 1]
        (catchCalls [0, 1] sideBySide (moveTo 5 5 ++ [sync, sync]) [3, 1]).events) :=
  looksPressed_iff_noRestart [0, 1] sideBySide ⟨rfl, rfl⟩ (by decide) _ _

/-- A second tap on the same button does not show it pressed: its id is still remembered from
the first. -/
theorem not_looksPressed_tapAgain :
    sideBySide.Initial ∧ DistinctIds sideBySide.mem [0, 1] ∧
      ¬ ∀ r ∈ (catchCalls [0, 1] sideBySide tapAgain [4, 3]).history, LooksPressed [0, 1] r := by
  refine ⟨⟨rfl, rfl⟩, by decide, fun h => ?_⟩
  have hlast := h _ (List.getElem_mem
    (show 6 < (catchCalls [0, 1] sideBySide tapAgain [4, 3]).history.length by decide))
  exact absurd (hlast (by decide) (by decide) 0 (by decide)).1 (by decide)

end JzPretest.Widget

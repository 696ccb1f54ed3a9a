import Mathlib.Data.List.Induction
import Mathlib.Data.Option.Basic

set_option relaxedAutoImplicit false
set_option autoImplicit false

/-!
# What a finger does to a set of buttons

The purpose of the touch code, apart from how it is written: a finger is seen in *frames*, each
of which is on a button or on none, and is *lifted* from time to time. A button that acts when
touched is activated by a frame on it; any other button is activated when the finger is lifted
from it. The buttons are of any type.

## Main definitions

* `JzPretest.Finger.Signal` — what is reported about the finger.
* `JzPretest.Finger` — what has to be remembered of the reports so far.
* `JzPretest.Finger.outcome` — whether a signal ends a call, and for which button.
* `JzPretest.Finger.verdict` — the first button that a list of signals activates.
* `JzPretest.Finger.NoRestart` — no gesture starts on the button on which the last one ended.
-/

namespace JzPretest

/-- What one event says about the finger. -/
inductive Finger.Signal (β : Type*) where
  /-- Nothing. -/
  | idle
  /-- The finger is seen, on a button or on none. -/
  | frame (b : Option β)
  /-- The finger is lifted. -/
  | up
  deriving DecidableEq, Repr

/-- What is remembered of the signals so far. -/
structure Finger (β : Type*) where
  /-- The button under the last frame. -/
  under : Option β
  /-- Whether the finger has been lifted since that frame. -/
  lifted : Bool
  deriving DecidableEq, Repr

namespace Finger

variable {β : Type*}

/-- Nothing has been seen yet. -/
def unseen : Finger β := ⟨none, false⟩

/-- The effect of a signal. -/
def step (f : Finger β) : Signal β → Finger β
  | .idle => f
  | .frame b => ⟨b, false⟩
  | .up => ⟨f.under, true⟩

/-- How a signal ends a call: not at all, or with the button that is activated, or with no
button when the finger is lifted from none. -/
def outcome (fast : β → Bool) (f : Finger β) : Signal β → Option (Option β)
  | .idle => none
  | .frame none => none
  | .frame (some b) => if fast b then some (some b) else none
  | .up => some f.under

/-- The button that a signal activates. -/
def activated (fast : β → Bool) (f : Finger β) (s : Signal β) : Option β :=
  (f.outcome fast s).join

/-- Nothing happens. -/
@[simp] theorem step_idle (f : Finger β) : f.step .idle = f := rfl

/-- The finger is over a button, or over none. -/
@[simp] theorem step_frame (f : Finger β) (b : Option β) : f.step (.frame b) = ⟨b, false⟩ := rfl

/-- It has been lifted. -/
@[simp] theorem step_up (f : Finger β) : f.step .up = ⟨f.under, true⟩ := rfl

/-- Nothing is returned for it. -/
@[simp] theorem outcome_idle (fast : β → Bool) (f : Finger β) : f.outcome fast .idle = none := rfl

/-- Beside the buttons nothing is returned. -/
@[simp] theorem outcome_frame_none (fast : β → Bool) (f : Finger β) :
    f.outcome fast (.frame none) = none := rfl

/-- A button for fast touches is returned at once. -/
@[simp] theorem outcome_frame_some (fast : β → Bool) (f : Finger β) (b : β) :
    f.outcome fast (.frame (some b)) = if fast b then some (some b) else none := rfl

/-- When the finger is lifted, the button below it is returned. -/
@[simp] theorem outcome_up (fast : β → Bool) (f : Finger β) :
    f.outcome fast .up = some f.under := rfl

/-- What is remembered after a list of signals. -/
def after (f : Finger β) (ss : List (Signal β)) : Finger β := ss.foldl step f

/-- No signal. -/
@[simp] theorem after_nil (f : Finger β) : f.after [] = f := rfl

/-- The last signal comes behind the others. -/
@[simp] theorem after_concat (f : Finger β) (ss : List (Signal β)) (s : Signal β) :
    f.after (ss ++ [s]) = (f.after ss).step s := by
  simp [after]

/-- The button under the last frame was seen in some frame. -/
theorem mem_of_under_eq_some {ss : List (Signal β)} {b : β}
    (h : (unseen.after ss).under = some b) : Signal.frame (some b) ∈ ss := by
  induction ss using List.reverseRecOn with
  | nil => simp [unseen] at h
  | append_singleton ss s ih =>
    rw [after_concat] at h
    cases s with
    | idle => exact List.mem_append_left _ (ih h)
    | frame o =>
      obtain rfl : o = some b := h
      simp
    | up => exact List.mem_append_left _ (ih h)

/-- **The verdict**: the first button that the signals activate. -/
def verdict (fast : β → Bool) : Finger β → List (Signal β) → Option β
  | _, [] => none
  | f, s :: ss => (f.activated fast s).or (verdict fast (f.step s) ss)

/-- One signal more decides only what was undecided. -/
theorem verdict_concat (fast : β → Bool) (f : Finger β) (ss : List (Signal β)) (s : Signal β) :
    f.verdict fast (ss ++ [s]) =
      (f.verdict fast ss).or ((f.after ss).activated fast s) := by
  induction ss generalizing f with
  | nil => simp [verdict]
  | cons s' ss ih => rw [List.cons_append, verdict, ih, verdict, Option.or_assoc]; rfl

/-- The signal sees the finger on the button from which it was last lifted. -/
def Restarts (f : Finger β) : Signal β → Prop
  | .frame (some b) => f.lifted = true ∧ f.under = some b
  | _ => False

/-- **No gesture restarts**: no gesture begins on the button on which the one before it
ended. -/
def NoRestart : Finger β → List (Signal β) → Prop
  | _, [] => True
  | f, s :: ss => ¬ f.Restarts s ∧ NoRestart (f.step s) ss

end Finger

end JzPretest

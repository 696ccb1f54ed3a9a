import JzPretest.Semantics.Transition
import Mathlib.Data.List.Basic

set_option relaxedAutoImplicit false
set_option autoImplicit false

/-!
# Programs that make calls

A program makes calls to its environment and goes on with what they return; what a call can return
depends on the call. A run of it is a log of calls with what they returned, and the value that the
program ends with. Nothing is known of an environment but what it has returned.

A program with a variable is one in the state monad over this. What such a program does to its
environment, or with a resource of it, is followed by an automaton that reads the log; there are
rules of pre- and postconditions for the variable and the state of the automaton.

## Main definitions

* `JzPretest.Calling` — programs, a monad.
* `JzPretest.Calling.Runs` — the runs of a program.
* `JzPretest.Calling.Follows` — what holds of the variable and of an automaton that reads the log.
* `JzPretest.Calling.collect` — the automaton that collects what it finds.

## Main results

* `JzPretest.Calling.runs_bind`, `JzPretest.Calling.runs_run_bind` — the runs of a sequence.
* `JzPretest.Calling.exists_runs` — a run, for any answers.
* `JzPretest.Calling.Follows.bind`, `JzPretest.Calling.Follows.call` — the rules of pre- and
  postconditions.
-/

namespace JzPretest

open Transition

/-- A program that makes calls of type `γ`, each of which returns something of its own type. -/
inductive Calling (γ : Type) (α : γ → Type) (ρ : Type) where
  | ret (r : ρ)
  | ask (c : γ) (k : α c → Calling γ α ρ)

namespace Calling

variable {γ : Type} {α : γ → Type} {ρ τ υ σ κ : Type}

/-- One program after the other. -/
def andThen (x : Calling γ α ρ) (f : ρ → Calling γ α τ) : Calling γ α τ :=
  match x with
  | ret r => f r
  | ask c k => ask c fun a => (k a).andThen f

instance : Monad (Calling γ α) where
  pure := ret
  bind := andThen

/-- The first law of a functor. -/
private lemma id_map' (x : Calling γ α ρ) : id <$> x = x := by
  change andThen x ret = x
  induction x with
  | ret r => rfl
  | ask c k ih => exact congrArg (ask c) (funext ih)

/-- Sequences are associative. -/
private lemma bind_assoc' (x : Calling γ α ρ) (f : ρ → Calling γ α τ) (g : τ → Calling γ α υ) :
    x >>= f >>= g = x >>= fun a => f a >>= g := by
  change andThen (andThen x f) g = andThen x fun a => andThen (f a) g
  induction x with
  | ret r => rfl
  | ask c k ih => exact congrArg (ask c) (funext ih)

instance : LawfulMonad (Calling γ α) :=
  LawfulMonad.mk' (Calling γ α) id_map' (fun _ _ => rfl) bind_assoc'

/-! ## Runs -/

/-- **A run** of a program: the log of its calls, and what it ends with. -/
def Runs : Calling γ α ρ → List (Sigma α) → ρ → Prop
  | ret r, log, b => log = [] ∧ b = r
  | ask c k, log, b => ∃ a rest, log = ⟨c, a⟩ :: rest ∧ Runs (k a) rest b

/-- The runs of a sequence are the runs of its parts, one after the other.

**Proof sketch.** Induction on the first computation. What it returns has no calls; a call it asks
stands first in both logs, and the rest is split by induction. -/
theorem runs_bind {x : Calling γ α ρ} {f : ρ → Calling γ α τ} {log : List (Sigma α)} {b : τ} :
    (x >>= f).Runs log b ↔
      ∃ log₁ a log₂, log = log₁ ++ log₂ ∧ x.Runs log₁ a ∧ (f a).Runs log₂ b := by
  change (andThen x f).Runs log b ↔ _
  induction x generalizing log with
  | ret r =>
    constructor
    · intro h
      exact ⟨[], r, log, rfl, ⟨rfl, rfl⟩, h⟩
    · rintro ⟨log₁, a, log₂, rfl, ⟨rfl, rfl⟩, h⟩
      exact h
  | ask c k ih =>
    constructor
    · rintro ⟨a, rest, rfl, h⟩
      obtain ⟨log₁, r, log₂, rfl, hx, hf⟩ := (ih a).mp h
      exact ⟨⟨c, a⟩ :: log₁, r, log₂, rfl, ⟨a, log₁, rfl, hx⟩, hf⟩
    · rintro ⟨log₁, r, log₂, rfl, ⟨a, rest, rfl, hx⟩, hf⟩
      exact ⟨a, rest ++ log₂, rfl, (ih a).mpr ⟨rest, r, log₂, rfl, hx, hf⟩⟩

/-! ## An environment that answers -/

/-- What a program ends with, in an environment that answers each call in one way. -/
def result (answers : ∀ c, α c) : Calling γ α ρ → ρ
  | ret r => r
  | ask c k => (k (answers c)).result answers

/-- **Every program has a run** in such an environment, whatever the answers are.

**Proof sketch.** By induction on the program: behind a call, the run is that of what goes on with
its answer. -/
theorem exists_runs (answers : ∀ c, α c) (x : Calling γ α ρ) :
    ∃ log, x.Runs log (x.result answers) ∧ ∀ e ∈ log, e.2 = answers e.1 := by
  induction x with
  | ret r => exact ⟨[], ⟨rfl, rfl⟩, by simp⟩
  | ask c k ih =>
    obtain ⟨log, hruns, hlog⟩ := ih (answers c)
    exact ⟨⟨c, answers c⟩ :: log, ⟨answers c, log, rfl, hruns⟩,
      List.forall_mem_cons.mpr ⟨rfl, hlog⟩⟩

/-! ## Programs with a variable -/

/-- A call, in a program with a variable. -/
def call (c : γ) : StateT σ (Calling γ α) (α c) := fun s => ask c fun a => ret (a, s)

/-- The same, with a variable. -/
lemma runs_run_pure {r : ρ} {s : σ} {log : List (Sigma α)} {b : ρ × σ} :
    ((pure r : StateT σ (Calling γ α) ρ).run s).Runs log b ↔ log = [] ∧ b = (r, s) :=
  Iff.rfl

/-- A call has one run for each answer. -/
lemma runs_run_call {c : γ} {s : σ} {log : List (Sigma α)} {b : α c × σ} :
    ((call c : StateT σ (Calling γ α) (α c)).run s).Runs log b ↔
      log = [⟨c, b.1⟩] ∧ b.2 = s := by
  constructor
  · rintro ⟨a, rest, rfl, rfl, rfl⟩
    exact ⟨rfl, rfl⟩
  · rintro ⟨rfl, rfl⟩
    exact ⟨b.1, [], rfl, rfl, rfl⟩

/-- Reading the variable is no call. -/
lemma runs_run_get {s : σ} {log : List (Sigma α)} {b : σ × σ} :
    ((get : StateT σ (Calling γ α) σ).run s).Runs log b ↔ log = [] ∧ b = (s, s) :=
  Iff.rfl

/-- Writing it is none either. -/
lemma runs_run_set {s s' : σ} {log : List (Sigma α)} {b : PUnit × σ} :
    ((set s' : StateT σ (Calling γ α) PUnit).run s).Runs log b ↔ log = [] ∧ b = (⟨⟩, s') :=
  Iff.rfl

/-- The runs of a sequence, with the variable in between. -/
theorem runs_run_bind {x : StateT σ (Calling γ α) ρ} {f : ρ → StateT σ (Calling γ α) τ} {s : σ}
    {log : List (Sigma α)} {b : τ × σ} :
    ((x >>= f).run s).Runs log b ↔
      ∃ log₁ a t log₂, log = log₁ ++ log₂ ∧ (x.run s).Runs log₁ (a, t) ∧
        ((f a).run t).Runs log₂ b := by
  rw [StateT.run_bind, runs_bind]
  constructor
  · rintro ⟨log₁, ⟨a, t⟩, log₂, h⟩
    exact ⟨log₁, a, t, log₂, h⟩
  · rintro ⟨log₁, a, t, log₂, h⟩
    exact ⟨log₁, (a, t), log₂, h⟩

/-! ## What an automaton makes of a run -/

/-- **A program and an automaton** that reads its log: if the variable and the state of the
automaton are as in `P` before a run, and the environment has returned nothing but what `E` admits,
then the automaton accepts the log, and the value, the variable and the state are as in `Q` after
it. -/
def Follows (E : Sigma α → Prop) (step : κ → Sigma α → Option κ) (P : σ → κ → Prop)
    (x : StateT σ (Calling γ α) ρ) (Q : ρ → σ → κ → Prop) : Prop :=
  ∀ s log r t q, (x.run s).Runs log (r, t) → (∀ e ∈ log, E e) → P s q →
    ∃ q', run step q log = some q' ∧ Q r t q'

namespace Follows

variable {E : Sigma α → Prop} {step : κ → Sigma α → Option κ} {P : σ → κ → Prop}

/-- **The rule for a value**: the precondition implies the postcondition. -/
theorem pure {r : ρ} {Q : ρ → σ → κ → Prop} (h : ∀ s q, P s q → Q r s q) :
    Follows E step P (Pure.pure r) Q := by
  intro s log b t q hruns hE hP
  obtain ⟨rfl, hb⟩ := runs_run_pure.mp hruns
  obtain ⟨rfl, rfl⟩ := Prod.mk.inj hb
  exact ⟨q, rfl, h _ q hP⟩

/-- **The rule for a sequence**, with a condition in between for each value. -/
theorem bind {x : StateT σ (Calling γ α) ρ} {f : ρ → StateT σ (Calling γ α) τ}
    {R : ρ → σ → κ → Prop} {Q : τ → σ → κ → Prop} (hx : Follows E step P x R)
    (hf : ∀ a, Follows E step (R a) (f a) Q) : Follows E step P (x >>= f) Q := by
  intro s log b t q hruns hE hP
  obtain ⟨log₁, a, s', log₂, rfl, h₁, h₂⟩ := runs_run_bind.mp hruns
  obtain ⟨q₁, hrun₁, hR⟩ := hx s log₁ a s' q h₁ (fun e he => hE e (List.mem_append_left _ he)) hP
  obtain ⟨q₂, hrun₂, hQ⟩ := hf a s' log₂ b t q₁ h₂
    (fun e he => hE e (List.mem_append_right _ he)) hR
  refine ⟨q₂, ?_, hQ⟩
  rw [run_append, hrun₁]
  exact hrun₂

/-- **The rule for a call**: for each answer that is admitted, the automaton makes a step. -/
theorem call {c : γ} {Q : α c → σ → κ → Prop}
    (h : ∀ s q a, E ⟨c, a⟩ → P s q → ∃ q', step q ⟨c, a⟩ = some q' ∧ Q a s q') :
    Follows E step P (Calling.call c) Q := by
  intro s log a t q hruns hE hP
  obtain ⟨rfl, rfl⟩ := runs_run_call.mp hruns
  obtain ⟨q', hstep, hQ⟩ := h _ q a (hE _ (List.mem_singleton_self _)) hP
  exact ⟨q', run_cons_eq_some.mpr ⟨q', hstep, rfl⟩, hQ⟩

/-- **The rule for reading the variable.** -/
theorem get {Q : σ → σ → κ → Prop} (h : ∀ s q, P s q → Q s s q) :
    Follows E step P MonadState.get Q := by
  intro s log b t q hruns hE hP
  obtain ⟨rfl, hb⟩ := runs_run_get.mp hruns
  obtain ⟨rfl, rfl⟩ := Prod.mk.inj hb
  exact ⟨q, rfl, h _ q hP⟩

/-- The variable can be given a name as it is read. -/
theorem get_bind {f : σ → StateT σ (Calling γ α) ρ} {Q : ρ → σ → κ → Prop}
    (hf : ∀ u, Follows E step (fun s q => P s q ∧ u = s) (f u) Q) :
    Follows E step P (MonadState.get >>= f) Q :=
  bind (get fun _ _ h => ⟨h, rfl⟩) hf

/-- **The rule for writing it.** -/
theorem set {s' : σ} {Q : PUnit → σ → κ → Prop} (h : ∀ s q, P s q → Q ⟨⟩ s' q) :
    Follows E step P (MonadStateOf.set s') Q := by
  intro s log b t q hruns hE hP
  obtain ⟨rfl, hb⟩ := runs_run_set.mp hruns
  obtain ⟨rfl, rfl⟩ := Prod.mk.inj hb
  exact ⟨q, rfl, h s q hP⟩

/-- **The rule of consequence.** -/
theorem imp {x : StateT σ (Calling γ α) ρ} {P' : σ → κ → Prop} {Q Q' : ρ → σ → κ → Prop}
    (hx : Follows E step P' x Q') (hP : ∀ s q, P s q → P' s q)
    (hQ : ∀ r s q, Q' r s q → Q r s q) : Follows E step P x Q := by
  intro s log r t q hruns hE h
  obtain ⟨q', hrun, h'⟩ := hx s log r t q hruns hE (hP s q h)
  exact ⟨q', hrun, hQ r t q' h'⟩

/-- A function of what a program returns. -/
theorem map {x : StateT σ (Calling γ α) ρ} {f : ρ → τ} {Q : τ → σ → κ → Prop}
    (hx : Follows E step P x fun r => Q (f r)) : Follows E step P (f <$> x) Q := by
  rw [map_eq_pure_bind]
  exact bind hx fun r => pure fun _ _ h => h

/-- The precondition can be replaced by one that it implies. -/
theorem weaken {x : StateT σ (Calling γ α) ρ} (P' : σ → κ → Prop) {Q : ρ → σ → κ → Prop}
    (hP : ∀ s q, P s q → P' s q) (hx : Follows E step P' x Q) : Follows E step P x Q :=
  hx.imp hP fun _ _ _ h => h

/-- The postcondition can be replaced by one that implies it. -/
theorem post {x : StateT σ (Calling γ α) ρ} {Q Q' : ρ → σ → κ → Prop}
    (hx : Follows E step P x Q') (hQ : ∀ r s q, Q' r s q → Q r s q) : Follows E step P x Q :=
  hx.imp (fun _ _ h => h) hQ

/-- What the precondition says of anything but the run can be assumed. -/
theorem assume {x : StateT σ (Calling γ α) ρ} {p : Prop} {Q : ρ → σ → κ → Prop}
    (hp : ∀ s q, P s q → p) (h : p → Follows E step P x Q) : Follows E step P x Q := by
  intro s log r t q hruns hE hP
  exact h (hp s q hP) s log r t q hruns hE hP

/-- The state of the automaton can be given a name. -/
theorem fix {x : StateT σ (Calling γ α) ρ} {Q : ρ → σ → κ → Prop}
    (h : ∀ q₀, Follows E step (fun s q => P s q ∧ q = q₀) x Q) : Follows E step P x Q := by
  intro s log r t q hruns hE hP
  exact h q s log r t q hruns hE ⟨hP, rfl⟩

/-- Two postconditions hold together, since the automaton has one run only. -/
theorem and {x : StateT σ (Calling γ α) ρ} {Q Q' : ρ → σ → κ → Prop}
    (h : Follows E step P x Q) (h' : Follows E step P x Q') :
    Follows E step P x fun r s q => Q r s q ∧ Q' r s q := by
  intro s log r t q hruns hE hP
  obtain ⟨q₁, hrun₁, hQ⟩ := h s log r t q hruns hE hP
  obtain ⟨q₂, hrun₂, hQ'⟩ := h' s log r t q hruns hE hP
  obtain rfl := Option.some.inj (hrun₁.symm.trans hrun₂)
  exact ⟨q₁, hrun₁, hQ, hQ'⟩

end Follows

/-- The automaton that collects what it finds in a log. -/
def collect {β : Type} (f : Sigma α → Option β) (l : List β) (e : Sigma α) : Option (List β) :=
  some (l ++ (f e).toList)

/-- What is collected is what is found in the log, in its order. -/
theorem run_collect {β : Type} (f : Sigma α → Option β) (l : List β) (log : List (Sigma α)) :
    run (collect f) l log = some (l ++ log.filterMap f) := by
  induction log generalizing l with
  | nil =>
    rw [List.filterMap_nil, List.append_nil]
    rfl
  | cons e log ih =>
    refine run_cons_eq_some.mpr ⟨l ++ (f e).toList, rfl, ?_⟩
    rw [ih, List.append_assoc]
    cases h : f e <;> simp [h]

end Calling

end JzPretest

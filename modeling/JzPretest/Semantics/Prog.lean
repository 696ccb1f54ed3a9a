import Mathlib.Data.Nat.Notation
import Mathlib.Logic.Relation
import Mathlib.Order.Basic

set_option relaxedAutoImplicit false
set_option autoImplicit false

/-!
# Programs with loops and faults

A program that may loop for ever and may fault is given by its outcomes under a bound on the
passes of each of its loops. More passes never change an outcome, so the outcome, if there is
one, is unique. Such programs form a monad, and there are two judgements on them, with one rule
for each way of building a program: that a program ends with a certain outcome, and that it has
no other outcome, should it end.

## Main definitions

* `JzPretest.Prog` — programs.
* `JzPretest.Prog.loop` — loops, whose passes go on with a new state or leave with a result.
* `JzPretest.Prog.Ends`, `JzPretest.Prog.Always` — total and partial correctness.
* `JzPretest.Prog.Reaches` — the states that the passes of a loop come to.

## Main results

* `JzPretest.Prog.ends_bind`, `JzPretest.Prog.always_bind` — the rules for sequences.
* `JzPretest.Prog.ends_loop_of_variant` — the rule for loops with a variant.
* `JzPretest.Prog.always_loop` — the rule for loops with an invariant.
* `JzPretest.Prog.not_ends_iff` — a program does not end in `Q` iff it always avoids `Q`.
* `JzPretest.Prog.loop_map` — a loop can be run on other states that stand for its own.
-/

namespace JzPretest

/-- A program: its outcome when `n` passes suffice for each of its loops, a value or a fault. -/
structure Prog (φ ρ : Type) where
  /-- The outcome, if `n` passes suffice. -/
  run : ℕ → Option (Except φ ρ)
  /-- More passes do not change it. -/
  mono : ∀ n x, run n = some x → run (n + 1) = some x

/-- How one pass of a loop ends: with the state for the next pass, or by leaving the loop. -/
inductive Pass (σ ρ : Type) where
  | again (s : σ)
  | leave (r : ρ)
  deriving DecidableEq, Repr

/-- The same end of a pass, on states that stand for these. -/
def Pass.map {σ σ' ρ : Type} (f : σ → σ') : Pass σ ρ → Pass σ' ρ
  | .again s => .again (f s)
  | .leave r => .leave r

namespace Prog

variable {φ ρ τ σ : Type}

/-- Programs with equal runs are equal. -/
@[ext] lemma ext {c d : Prog φ ρ} (h : ∀ n, c.run n = d.run n) : c = d := by
  cases c
  cases d
  congr 1
  exact funext h

/-- The outcome of a sequence. -/
def bindRun (c : Prog φ ρ) (f : ρ → Prog φ τ) (n : ℕ) : Option (Except φ τ) :=
  match c.run n with
  | none => none
  | some (.error e) => some (.error e)
  | some (.ok a) => (f a).run n

/-- A sequence that has ended stays so with more fuel. -/
lemma bindRun_mono (c : Prog φ ρ) (f : ρ → Prog φ τ) (n : ℕ) (x : Except φ τ)
    (h : bindRun c f n = some x) : bindRun c f (n + 1) = some x := by
  unfold bindRun at h ⊢
  cases hc : c.run n with
  | none => simp [hc] at h
  | some y =>
    rw [c.mono n y hc]
    rw [hc] at h
    cases y with
    | error e => exact h
    | ok a => exact (f a).mono n x h

instance : Monad (Prog φ) where
  pure a := ⟨fun _ => some (.ok a), fun _ _ h => h⟩
  bind c f := ⟨bindRun c f, bindRun_mono c f⟩

/-- The first law of a functor. -/
private lemma map_id' (c : Prog φ ρ) : id <$> c = c := by
  ext n : 1
  change bindRun c pure n = c.run n
  unfold bindRun
  rcases c.run n with _ | (_ | _) <;> rfl

/-- Sequences are associative. -/
private lemma bind_assoc' {υ : Type} (c : Prog φ ρ) (f : ρ → Prog φ τ) (g : τ → Prog φ υ) :
    c >>= f >>= g = c >>= fun a => f a >>= g := by
  ext n : 1
  change bindRun ⟨bindRun c f, _⟩ g n = bindRun c (fun a => ⟨bindRun (f a) g, _⟩) n
  simp only [bindRun]
  rcases c.run n with _ | (_ | _) <;> rfl

instance : LawfulMonad (Prog φ) :=
  LawfulMonad.mk' (Prog φ) map_id' (fun _ _ => rfl) bind_assoc'

/-- A computation without loops. -/
def lift (x : Except φ ρ) : Prog φ ρ := ⟨fun _ => some x, fun _ _ h => h⟩

instance : MonadLift (Except φ) (Prog φ) := ⟨lift⟩

/-- The outcome of a loop. -/
def loopRun (body : σ → Prog φ (Pass σ ρ)) : ℕ → σ → Option (Except φ ρ)
  | 0, _ => none
  | n + 1, s =>
    match (body s).run n with
    | none => none
    | some (.error e) => some (.error e)
    | some (.ok (.again s')) => loopRun body n s'
    | some (.ok (.leave r)) => some (.ok r)

/-- A loop that has ended stays so with more fuel.

**Proof sketch.** Induction on the fuel. The first pass has ended with less fuel, hence with the
same result, and the loop behind it is shorter. -/
lemma loopRun_mono (body : σ → Prog φ (Pass σ ρ)) (n : ℕ) : ∀ (s : σ) (x : Except φ ρ),
    loopRun body n s = some x → loopRun body (n + 1) s = some x := by
  induction n with
  | zero =>
    intro s x h
    simp [loopRun] at h
  | succ n ih =>
    intro s x h
    rw [loopRun] at h ⊢
    cases hb : (body s).run n with
    | none => simp [hb] at h
    | some y =>
      rw [(body s).mono n y hb]
      rw [hb] at h
      rcases y with e | (s' | r)
      · exact h
      · exact ih s' x h
      · exact h

/-- **A loop**: passes of `body` until one of them leaves. -/
def loop (body : σ → Prog φ (Pass σ ρ)) (s : σ) : Prog φ ρ :=
  ⟨fun n => loopRun body n s, fun n x => loopRun_mono body n s x⟩

/-- **Changing the state**: if the passes on the states `f s` are those on the states `s`, then so
are the loops.

**Proof sketch.** Induction on the fuel: the first pass on `f s` runs as that on `s` with the state
mapped, so it fails, goes on or leaves in the same way. -/
theorem loop_map {σ' : Type} {body : σ → Prog φ (Pass σ ρ)} {body' : σ' → Prog φ (Pass σ' ρ)}
    (f : σ → σ') (h : ∀ s, body' (f s) = Pass.map f <$> body s) (s : σ) :
    loop body' (f s) = loop body s := by
  ext n : 1
  change loopRun body' n (f s) = loopRun body n s
  induction n generalizing s with
  | zero => rfl
  | succ n ih =>
    have hrun : (body' (f s)).run n = bindRun (body s) (fun p => pure (p.map f)) n := by
      rw [h, map_eq_pure_bind]
      rfl
    rw [loopRun, loopRun, hrun, bindRun]
    cases hb : (body s).run n with
    | none => rfl
    | some x =>
      rcases x with e | (s' | r)
      · rfl
      · exact ih s'
      · rfl

/-! ## Outcomes -/

/-- The program ends, with an outcome in `Q`. -/
def Ends (c : Prog φ ρ) (Q : Except φ ρ → Prop) : Prop := ∃ n x, c.run n = some x ∧ Q x

/-- If the program ends, its outcome is in `Q`. -/
def Always (c : Prog φ ρ) (Q : Except φ ρ → Prop) : Prop := ∀ n x, c.run n = some x → Q x

/-- What a sequence makes of the outcome of its first part. -/
def andThen (P : τ → Prop) (Q : Except φ ρ → Prop) : Except φ τ → Prop
  | .ok a => P a
  | .error e => Q (.error e)

/-- What a loop makes of the outcome of a pass. -/
def orAgain (I : σ → Prop) (Q : Except φ ρ → Prop) : Except φ (Pass σ ρ) → Prop
  | .ok (.again s) => I s
  | .ok (.leave r) => Q (.ok r)
  | .error e => Q (.error e)

/-- A value is passed on. -/
@[simp] theorem andThen_ok (P : τ → Prop) (Q : Except φ ρ → Prop) (a : τ) :
    andThen P Q (.ok a) = P a := rfl

/-- A fault is the end. -/
@[simp] theorem andThen_error (P : τ → Prop) (Q : Except φ ρ → Prop) (e : φ) :
    andThen P Q (.error e) = Q (.error e) := rfl

/-- A fault ends a loop. -/
@[simp] theorem orAgain_error (I : σ → Prop) (Q : Except φ ρ → Prop) (e : φ) :
    orAgain I Q (.error e : Except φ (Pass σ ρ)) = Q (.error e) := rfl

/-- More passes do not change the outcome. -/
lemma run_of_le (c : Prog φ ρ) {n m : ℕ} (h : n ≤ m) {x : Except φ ρ}
    (hn : c.run n = some x) : c.run m = some x := by
  induction h with
  | refl => exact hn
  | step _ ih => exact c.mono _ _ ih

/-- There is only one outcome. -/
lemma run_unique (c : Prog φ ρ) {n m : ℕ} {x y : Except φ ρ} (hx : c.run n = some x)
    (hy : c.run m = some y) : x = y := by
  have h1 := c.run_of_le (Nat.le_max_left n m) hx
  have h2 := c.run_of_le (Nat.le_max_right n m) hy
  exact Option.some.inj (h1.symm.trans h2)

/-- What is computed from the outcome is known from one run. -/
theorem eq_of_run_map (c : Prog φ ρ) {f : Except φ ρ → τ} {n m : ℕ} {x : Except φ ρ} {y : τ}
    (hf : (c.run m).map f = some y) (hx : c.run n = some x) : f x = y := by
  obtain ⟨z, hz, rfl⟩ := Option.map_eq_some_iff.mp hf
  rw [c.run_unique hx hz]

section Rules

variable {c : Prog φ ρ} {f : ρ → Prog φ τ} {body : σ → Prog φ (Pass σ ρ)} {s : σ}

/-- A weaker postcondition. -/
theorem Ends.imp {Q Q' : Except φ ρ → Prop} (h : c.Ends Q) (hQ : ∀ x, Q x → Q' x) :
    c.Ends Q' := by
  obtain ⟨n, x, hx, hq⟩ := h
  exact ⟨n, x, hx, hQ x hq⟩

/-- A weaker postcondition. -/
theorem Always.imp {Q Q' : Except φ ρ → Prop} (h : c.Always Q) (hQ : ∀ x, Q x → Q' x) :
    c.Always Q' :=
  fun n x hx => hQ x (h n x hx)

/-- A program that ends in `Q` has no outcome outside `Q`. -/
theorem Ends.always {Q : Except φ ρ → Prop} (h : c.Ends Q) : c.Always Q := by
  obtain ⟨n, x, hx, hq⟩ := h
  intro m y hy
  rwa [c.run_unique hy hx]

/-- Whether a program that ends in `P` ends in `Q`, where `P` decides it. -/
theorem Ends.iff {P Q : Except φ ρ → Prop} {R : Prop} (h : c.Ends P)
    (hQ : ∀ x, P x → (Q x ↔ R)) : c.Ends Q ↔ R := by
  obtain ⟨n, x, hx, hp⟩ := h
  constructor
  · rintro ⟨m, y, hy, hq⟩
    rw [c.run_unique hy hx] at hq
    exact (hQ x hp).mp hq
  · exact fun hR => ⟨n, x, hx, (hQ x hp).mpr hR⟩

/-- **Not ending in `Q`** is always avoiding `Q`. -/
theorem not_ends_iff {Q : Except φ ρ → Prop} : ¬ c.Ends Q ↔ c.Always fun x => ¬ Q x := by
  constructor
  · intro h n x hx hq
    exact h ⟨n, x, hx, hq⟩
  · rintro h ⟨n, x, hx, hq⟩
    exact h n x hx hq

/-- A value is returned. -/
@[simp] theorem ends_pure {Q : Except φ ρ → Prop} (a : ρ) :
    (pure a : Prog φ ρ).Ends Q ↔ Q (.ok a) := by
  constructor
  · rintro ⟨n, x, hx, hq⟩
    obtain rfl : Except.ok a = x := Option.some.inj hx
    exact hq
  · exact fun h => ⟨0, _, rfl, h⟩

/-- Nothing else is. -/
@[simp] theorem always_pure {Q : Except φ ρ → Prop} (a : ρ) :
    (pure a : Prog φ ρ).Always Q ↔ Q (.ok a) := by
  constructor
  · exact fun h => h 0 _ rfl
  · intro h n x hx
    obtain rfl : Except.ok a = x := Option.some.inj hx
    exact h

/-- A computation that may fault ends with what it is. -/
@[simp] theorem ends_lift {Q : Except φ ρ → Prop} (x : Except φ ρ) :
    (lift x).Ends Q ↔ Q x := by
  constructor
  · rintro ⟨n, y, hy, hq⟩
    obtain rfl : x = y := Option.some.inj hy
    exact hq
  · exact fun h => ⟨0, _, rfl, h⟩

/-- With nothing else. -/
@[simp] lemma always_lift {Q : Except φ ρ → Prop} (x : Except φ ρ) :
    (lift x).Always Q ↔ Q x := by
  constructor
  · exact fun h => h 0 _ rfl
  · intro h n y hy
    obtain rfl : x = y := Option.some.inj hy
    exact h

/-- The same, inside of `do`. -/
@[simp] theorem ends_liftM {Q : Except φ ρ → Prop} (x : Except φ ρ) :
    (liftM x : Prog φ ρ).Ends Q ↔ Q x := ends_lift x

/-- The same, inside of `do`. -/
@[simp] theorem always_liftM {Q : Except φ ρ → Prop} (x : Except φ ρ) :
    (liftM x : Prog φ ρ).Always Q ↔ Q x := always_lift x

/-- **Sequences**: the first part ends, and the second ends from the value it returns.

**Proof sketch.** If the sequence has run with some fuel, so has its first part with the same fuel.
Conversely the larger of the two amounts of fuel is enough for both. -/
theorem ends_bind {Q : Except φ τ → Prop} :
    (c >>= f).Ends Q ↔ c.Ends (andThen (fun a => (f a).Ends Q) Q) := by
  constructor
  · rintro ⟨n, x, hx, hq⟩
    change bindRun c f n = some x at hx
    unfold bindRun at hx
    cases hc : c.run n with
    | none => simp [hc] at hx
    | some y =>
      rw [hc] at hx
      refine ⟨n, y, hc, ?_⟩
      cases y with
      | error e =>
        obtain rfl : Except.error e = x := Option.some.inj hx
        exact hq
      | ok a => exact ⟨n, x, hx, hq⟩
  · rintro ⟨n, y, hy, hq⟩
    cases y with
    | error e =>
      refine ⟨n, _, ?_, hq⟩
      change bindRun c f n = _
      rw [bindRun, hy]
    | ok a =>
      obtain ⟨m, x, hx, hq⟩ := hq
      refine ⟨max n m, x, ?_, hq⟩
      change bindRun c f (max n m) = _
      rw [bindRun, c.run_of_le (Nat.le_max_left n m) hy]
      exact (f a).run_of_le (Nat.le_max_right n m) hx

/-- **Sequences**, for partial correctness. -/
theorem always_bind {Q : Except φ τ → Prop} :
    (c >>= f).Always Q ↔ c.Always (andThen (fun a => (f a).Always Q) Q) := by
  have h : ∀ x : Except φ ρ, ¬ andThen (fun a => (f a).Ends fun y => ¬ Q y) (fun y => ¬ Q y) x ↔
      andThen (fun a => (f a).Always Q) Q x := by
    intro x
    cases x with
    | error e => simp
    | ok a => simp [not_ends_iff]
  have hends := not_congr (ends_bind (c := c) (f := f) (Q := fun y => ¬ Q y))
  rw [not_ends_iff, not_ends_iff] at hends
  simpa only [not_not, h] using hends

/-- **Loops**: one pass, and then the rest.

**Proof sketch.** A loop that has run has spent one unit of fuel on a first pass. Conversely one
unit more than the larger of the two amounts is enough. -/
theorem ends_loop {Q : Except φ ρ → Prop} :
    (loop body s).Ends Q ↔
      (body s).Ends (orAgain (fun s' => (loop body s').Ends Q) Q) := by
  constructor
  · rintro ⟨n, x, hx, hq⟩
    cases n with
    | zero => simp [loop, loopRun] at hx
    | succ n =>
      change loopRun body (n + 1) s = some x at hx
      rw [loopRun] at hx
      cases hb : (body s).run n with
      | none => simp [hb] at hx
      | some y =>
        rw [hb] at hx
        refine ⟨n, y, hb, ?_⟩
        rcases y with e | (s' | r)
        · obtain rfl : Except.error e = x := Option.some.inj hx
          exact hq
        · exact ⟨n, x, hx, hq⟩
        · obtain rfl : Except.ok r = x := Option.some.inj hx
          exact hq
  · rintro ⟨n, y, hy, hq⟩
    rcases y with e | (s' | r)
    · exact ⟨n + 1, _, by change loopRun body (n + 1) s = _; rw [loopRun, hy], hq⟩
    · obtain ⟨m, x, hx, hq⟩ := hq
      refine ⟨max n m + 1, x, ?_, hq⟩
      change loopRun body (max n m + 1) s = _
      rw [loopRun, (body s).run_of_le (Nat.le_max_left n m) hy]
      exact (loop body s').run_of_le (Nat.le_max_right n m) hx
    · exact ⟨n + 1, _, by change loopRun body (n + 1) s = _; rw [loopRun, hy], hq⟩

/-- **Loops with a variant**: if every pass from a state in `I` ends, and either leaves in `Q` or
goes on in `I` with a smaller variant, then the loop ends in `Q`. -/
theorem ends_loop_of_variant {I : σ → Prop} {Q : Except φ ρ → Prop} (μ : σ → ℕ)
    (hbody : ∀ s, I s → (body s).Ends (orAgain (fun s' => I s' ∧ μ s' < μ s) Q)) (hs : I s) :
    (loop body s).Ends Q := by
  have key : ∀ k s, I s → μ s = k → (loop body s).Ends Q := by
    intro k
    induction k using Nat.strongRecOn with
    | ind k ih =>
      intro s hs hk
      rw [ends_loop]
      apply (hbody s hs).imp
      rintro (e | (s' | r)) h
      · exact h
      · exact ih (μ s') (by rw [← hk]; exact h.2) s' h.1 rfl
      · exact h
  exact key (μ s) s hs rfl

/-- **Loops with an invariant**: if every pass from a state in `I` that ends either leaves in `Q`
or goes on in `I`, then the loop has no outcome outside `Q`.

**Proof sketch.** Induction on the fuel: the first pass leaves in `Q` or goes on in `I`, where the
induction applies. -/
theorem always_loop {I : σ → Prop} {Q : Except φ ρ → Prop}
    (hbody : ∀ s, I s → (body s).Always (orAgain I Q)) (hs : I s) :
    (loop body s).Always Q := by
  intro n
  induction n generalizing s with
  | zero =>
    intro x hx
    simp [loop, loopRun] at hx
  | succ n ih =>
    intro x hx
    change loopRun body (n + 1) s = some x at hx
    rw [loopRun] at hx
    cases hb : (body s).run n with
    | none => simp [hb] at hx
    | some y =>
      have hq := hbody s hs n y hb
      rw [hb] at hx
      rcases y with e | (s' | r)
      · obtain rfl : Except.error e = x := Option.some.inj hx
        exact hq
      · exact ih hq x hx
      · obtain rfl : Except.ok r = x := Option.some.inj hx
        exact hq

/-! ## The states that a loop comes to -/

/-- The passes of a loop come from one state to another. -/
def Reaches (body : σ → Prog φ (Pass σ ρ)) : σ → σ → Prop :=
  Relation.ReflTransGen fun s t => (body s).Ends fun x => x = .ok (.again t)

/-- From a state whose pass goes on, a loop comes to that state itself, and to those that it comes
to from the next one.

**Proof sketch.** A pass has only one outcome. -/
theorem reaches_iff_of_again {s s' t : σ} (h : (body s).Ends fun x => x = .ok (.again s')) :
    Reaches body s t ↔ s = t ∨ Reaches body s' t := by
  unfold Reaches
  rw [Relation.ReflTransGen.cases_head_iff]
  refine or_congr_right ⟨?_, fun hreach => ⟨s', h, hreach⟩⟩
  rintro ⟨u, ⟨m, x, hx, rfl⟩, hreach⟩
  have hu := h.always m _ hx
  simp only [Except.ok.injEq, Pass.again.injEq] at hu
  rwa [← hu]

/-- From a state whose pass leaves the loop or faults, it comes to no other one. -/
theorem reaches_iff_of_not_again {s t : σ}
    (h : (body s).Always fun x => ∀ s', x ≠ .ok (.again s')) : Reaches body s t ↔ s = t := by
  unfold Reaches
  rw [Relation.ReflTransGen.cases_head_iff]
  refine or_iff_left ?_
  rintro ⟨u, ⟨m, x, hx, rfl⟩, -⟩
  exact h m _ hx u rfl

end Rules

end Prog

end JzPretest

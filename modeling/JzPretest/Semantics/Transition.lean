import Mathlib.Data.List.Basic
import Mathlib.Data.List.Induction
import Mathlib.Data.Nat.Init

set_option relaxedAutoImplicit false
set_option autoImplicit false

/-!
# Runs of partial transition systems

A transition system is a partial step function `σ → α → Option σ`: the label chooses what the
environment does next, and `none` says that it cannot do so. A run is a list of labels.

## Main definitions

* `JzPretest.Transition.run` — the state a list of labels leads to; `JzPretest.Transition.Along` —
  every step on the way meets a condition.
* `JzPretest.Transition.Stuck` — no label is possible.
* `JzPretest.Transition.lastWrite` — what the last item that writes a register writes.

## Main results

* `JzPretest.Transition.run_invariant` — what every step preserves holds along every run.
* `JzPretest.Transition.run_invariant_of` — the same for steps that meet a condition.
* `JzPretest.Transition.run_history` — the same for what also depends on the labels so far.
* `JzPretest.Transition.run_map` — a map of the states that every step commutes with.
* `JzPretest.Transition.run_rel` — systems that take related steps take related runs.
* `JzPretest.Transition.run_filter` — labels that change nothing can be left out.
* `JzPretest.Transition.runCost_le` — a budget that every step is paid from limits the cost of a
  run.
* `JzPretest.Transition.along_iff` — a condition along a run is one on what its beginnings reach.
* `JzPretest.Transition.length_le_of_run` — a measure every step decreases bounds the runs.
* `JzPretest.Transition.register_foldl` — a register holds what was last written to it.
* `JzPretest.Transition.lastWrite_rel_iff` — when two ways of writing the same items leave the same.
-/

namespace JzPretest.Transition

variable {σ α : Type*}

/-- The state that a list of labels leads to, if every step is possible. -/
def run (step : σ → α → Option σ) : σ → List α → Option σ
  | s, [] => some s
  | s, a :: as => (step s a).bind fun s' => run step s' as

/-- Every step of a run meets a condition. -/
def Along (step : σ → α → Option σ) (P : σ → α → Prop) : σ → List α → Prop
  | _, [] => True
  | s, a :: as => P s a ∧ (step s a).elim True fun s' => Along step P s' as

instance decidableElim {P : σ → Prop} [DecidablePred P] (o : Option σ) :
    Decidable (o.elim True P) :=
  match o with
  | none => isTrue trivial
  | some s => inferInstanceAs (Decidable (P s))

instance decidableAlong (step : σ → α → Option σ) (P : σ → α → Prop) [∀ s a, Decidable (P s a)] :
    ∀ (as : List α) (s : σ), Decidable (Along step P s as)
  | [], _ => isTrue trivial
  | a :: as, s =>
    have : DecidablePred fun s' => Along step P s' as := decidableAlong step P as
    inferInstanceAs (Decidable (P s a ∧ (step s a).elim True fun s' => Along step P s' as))

/-- No step is possible. -/
def Stuck (step : σ → α → Option σ) (s : σ) : Prop := ∀ a, step s a = none

variable {step : σ → α → Option σ}

/-- A run of at least one step is a step followed by a run. -/
theorem run_cons_eq_some {s t : σ} {a : α} {as : List α} :
    run step s (a :: as) = some t ↔ ∃ s', step s a = some s' ∧ run step s' as = some t := by
  simp [run, Option.bind_eq_some_iff]

/-- One run after another. -/
theorem run_append (s : σ) (as bs : List α) :
    run step s (as ++ bs) = (run step s as).bind fun s' => run step s' bs := by
  induction as generalizing s with
  | nil => rfl
  | cons a as ih =>
    rw [List.cons_append, run, run]
    cases step s a with
    | none => rfl
    | some s' => exact ih s'

/-- A run of at least one step is a run followed by a step. -/
theorem run_concat_eq_some {s t : σ} {a : α} {as : List α} :
    run step s (as ++ [a]) = some t ↔ ∃ s', run step s as = some s' ∧ step s' a = some t := by
  simp [run_append, run, Option.bind_eq_some_iff]

/-- A beginning of a run is a run. -/
theorem run_of_append {s t : σ} {as bs : List α} (h : run step s (as ++ bs) = some t) :
    ∃ s', run step s as = some s' := by
  rw [run_append, Option.bind_eq_some_iff] at h
  obtain ⟨s', hs', -⟩ := h
  exact ⟨s', hs'⟩

/-- **Invariants**: what holds at the start and is preserved by every step holds in every state
that a run reaches. -/
theorem run_invariant {I : σ → Prop} (hstep : ∀ s a s', I s → step s a = some s' → I s') :
    ∀ {as : List α} {s t : σ}, I s → run step s as = some t → I t := by
  intro as
  induction as with
  | nil =>
    intro s t hs hr
    obtain rfl : s = t := Option.some.inj hr
    exact hs
  | cons a as ih =>
    intro s t hs hr
    obtain ⟨s', ha, hr⟩ := run_cons_eq_some.mp hr
    exact ih (hstep s a s' hs ha) hr

/-- **Invariants under a condition**: what holds at the start and is preserved by every step that
meets the condition holds in every state that a run of such steps reaches. -/
theorem run_invariant_of {I : σ → Prop} {P : σ → α → Prop}
    (hstep : ∀ s a s', I s → P s a → step s a = some s' → I s') :
    ∀ {as : List α} {s t : σ}, I s → Along step P s as → run step s as = some t → I t := by
  intro as
  induction as with
  | nil =>
    intro s t hs _ hr
    obtain rfl : s = t := Option.some.inj hr
    exact hs
  | cons a as ih =>
    rintro s t hs ⟨hmeets, halong⟩ hr
    obtain ⟨s', ha, hr⟩ := run_cons_eq_some.mp hr
    rw [ha] at halong
    exact ih (hstep s a s' hs hmeets ha) halong hr

/-- **Invariants with a history**: what holds at the start and is preserved by every step, of the
state and the labels so far, holds in every state that a run reaches. -/
theorem run_history {I : List α → σ → Prop}
    (hstep : ∀ past s a s', I past s → step s a = some s' → I (past ++ [a]) s') :
    ∀ {as past : List α} {s t : σ}, I past s → run step s as = some t → I (past ++ as) t := by
  intro as
  induction as with
  | nil =>
    intro past s t hs hr
    obtain rfl : s = t := Option.some.inj hr
    rwa [List.append_nil]
  | cons a as ih =>
    intro past s t hs hr
    obtain ⟨s', ha, hr⟩ := run_cons_eq_some.mp hr
    have h := ih (hstep past s a s' hs ha) hr
    rwa [List.append_assoc] at h

/-- **A condition along a run** is one on every state that a beginning of the run reaches, and the
label that follows.

**Proof sketch.** Induction on the run. The condition on the first step is that of the empty
beginning; every longer beginning starts with this step, and the rest is the induction. -/
theorem along_iff {P : σ → α → Prop} {as : List α} {s : σ} :
    Along step P s as ↔
      ∀ past a, past ++ [a] <+: as → ∀ t, run step s past = some t → P t a := by
  induction as generalizing s with
  | nil => exact iff_of_true trivial fun past a h => absurd (List.prefix_nil.mp h) (by simp)
  | cons b as ih =>
    constructor
    · rintro ⟨hb, halong⟩ past a hpast t hrun
      cases past with
      | nil =>
        obtain ⟨rfl, -⟩ := List.cons_prefix_cons.mp hpast
        obtain rfl : s = t := Option.some.inj hrun
        exact hb
      | cons c past =>
        obtain ⟨rfl, hrest⟩ := List.cons_prefix_cons.mp hpast
        obtain ⟨s', hstep, hrun⟩ := run_cons_eq_some.mp hrun
        rw [hstep] at halong
        exact ih.mp halong past a hrest t hrun
    · intro h
      refine ⟨h [] b (List.cons_prefix_cons.mpr ⟨rfl, List.nil_prefix⟩) s rfl, ?_⟩
      cases hstep : step s b with
      | none => trivial
      | some s' =>
        refine ih.mpr fun past a hpast t hrun => ?_
        exact h (b :: past) a (List.cons_prefix_cons.mpr ⟨rfl, hpast⟩) t
          (run_cons_eq_some.mpr ⟨s', hstep, hrun⟩)

/-- **Simulations**: a map of the states that every step commutes with commutes with every run. -/
theorem run_map {τ : Type*} {step' : τ → α → Option τ} {f : σ → τ}
    (hstep : ∀ s a, step' (f s) a = (step s a).map f) (as : List α) (s : σ) :
    run step' (f s) as = (run step s as).map f := by
  induction as generalizing s with
  | nil => rfl
  | cons a as ih =>
    rw [run, run, hstep]
    cases step s a with
    | none => rfl
    | some s' => exact ih s'

/-- **Refinement**: two systems that take related steps from related states take related runs; the
labels of the first one stand for labels of the second one. -/
theorem run_rel {τ β : Type*} {step' : τ → β → Option τ} {R : σ → τ → Prop} {f : α → β}
    (hstep : ∀ s t a, R s t → Option.Rel R (step s a) (step' t (f a))) (as : List α) {s : σ} {t : τ}
    (h : R s t) : Option.Rel R (run step s as) (run step' t (as.map f)) := by
  induction as generalizing s t with
  | nil => exact .some h
  | cons a as ih =>
    have hfirst := hstep s t a h
    rw [List.map_cons, run, run]
    generalize step s a = o at *
    generalize step' t (f a) = o' at *
    cases hfirst with
    | none => exact .none
    | some h' => exact ih h'

/-- **Stuttering**: labels that leave the state as it is can be left out of a run.

**Proof sketch.** Induction on the run: a step that is left out keeps the state, any other is the
first one of the filtered run too. -/
theorem run_filter {I : σ → Prop} {idle : α → Bool}
    (hinv : ∀ s a s', I s → step s a = some s' → I s')
    (hidle : ∀ s a s', I s → idle a = true → step s a = some s' → s' = s) :
    ∀ {as : List α} {s t : σ}, I s → run step s as = some t →
      run step s (as.filter fun a => !idle a) = some t := by
  intro as
  induction as with
  | nil => exact fun _ hr => hr
  | cons a as ih =>
    intro s t hs hr
    obtain ⟨s', ha, hr⟩ := run_cons_eq_some.mp hr
    have hrest := ih (hinv s a s' hs ha) hr
    rw [List.filter_cons]
    by_cases hi : idle a = true
    · rw [hidle s a s' hs hi ha] at hrest
      rwa [hi, if_neg (by simp)]
    · rw [if_pos (by simpa using hi)]
      exact run_cons_eq_some.mpr ⟨s', ha, hrest⟩

/-! ## Costs -/

/-- What the steps of a run cost together. -/
def runCost (step : σ → α → Option σ) (cost : σ → α → ℕ) : σ → List α → ℕ
  | _, [] => 0
  | s, a :: as => cost s a + (step s a).elim 0 fun s' => runCost step cost s' as

/-- Systems that take related steps at the same cost have runs of the same cost. -/
theorem runCost_rel {τ β : Type*} {step' : τ → β → Option τ} {R : σ → τ → Prop} {f : α → β}
    {cost : σ → α → ℕ} {cost' : τ → β → ℕ}
    (hstep : ∀ s t a, R s t → Option.Rel R (step s a) (step' t (f a)))
    (hcost : ∀ s t a, R s t → cost s a = cost' t (f a)) (as : List α) {s : σ} {t : τ}
    (h : R s t) : runCost step cost s as = runCost step' cost' t (as.map f) := by
  induction as generalizing s t with
  | nil => rfl
  | cons a as ih =>
    have hfirst := hstep s t a h
    rw [List.map_cons, runCost, runCost, hcost s t a h]
    generalize step s a = o at *
    generalize step' t (f a) = o' at *
    cases hfirst with
    | none => rfl
    | some h' => rw [Option.elim_some, Option.elim_some, ih h']

/-- **Budgets**: what every step can pay from what is left limits what a run costs.

**Proof sketch.** Induction on the run: the first step pays from the budget of its state, the rest
from that of the next state. -/
theorem runCost_le {cost : σ → α → ℕ} {μ : σ → ℕ} {I : σ → Prop}
    (hinv : ∀ s a s', I s → step s a = some s' → I s')
    (hstep : ∀ s a s', I s → step s a = some s' → cost s a + μ s' ≤ μ s)
    (hstuck : ∀ s a, I s → step s a = none → cost s a ≤ μ s) :
    ∀ {as : List α} {s : σ}, I s → runCost step cost s as ≤ μ s := by
  intro as
  induction as with
  | nil => exact fun _ => Nat.zero_le _
  | cons a as ih =>
    intro s hs
    rw [runCost]
    cases ha : step s a with
    | none =>
      have := hstuck s a hs ha
      simpa using this
    | some s' =>
      have h1 := hstep s a s' hs ha
      have h2 := ih (hinv s a s' hs ha)
      simp only [Option.elim_some]
      omega

/-- **Termination**: a measure that every step decreases bounds the length of every run. -/
theorem length_le_of_run {μ : σ → ℕ} (hstep : ∀ s a s', step s a = some s' → μ s' < μ s) :
    ∀ {as : List α} {s t : σ}, run step s as = some t → as.length + μ t ≤ μ s := by
  intro as
  induction as with
  | nil =>
    intro s t hr
    obtain rfl : s = t := Option.some.inj hr
    simp
  | cons a as ih =>
    intro s t hr
    obtain ⟨s', ha, hr⟩ := run_cons_eq_some.mp hr
    have h1 := hstep s a s' ha
    have h2 := ih hr
    simp only [List.length_cons]
    omega

/-! ## Registers -/

section Register

variable {ι β γ : Type*}

/-- What the last item that writes a register writes. -/
def lastWrite (write : ι → Option β) (l : List ι) : Option β := (l.filterMap write).getLast?

/-- **Registers**: a part of the state that some items overwrite, and the others leave alone, holds
what was last written to it. -/
theorem register_foldl {next : σ → ι → σ} {get : σ → β} {write : ι → Option β} {l : List ι}
    (hnext : ∀ i ∈ l, ∀ s, get (next s i) = (write i).getD (get s)) (s : σ) :
    get (l.foldl next s) = (lastWrite write l).getD (get s) := by
  unfold lastWrite
  induction l generalizing s with
  | nil => rfl
  | cons i l ih =>
    obtain ⟨hi, hl⟩ := List.forall_mem_cons.mp hnext
    rw [List.foldl_cons, ih hl, hi, List.filterMap_cons]
    cases write i with
    | none => rfl
    | some v => rw [Option.getD_some, List.getLast?_cons, Option.getD_some]

/-- A function of all that is written is one of the last. -/
theorem lastWrite_map (f : β → γ) (write : ι → Option β) (l : List ι) :
    lastWrite (fun i => (write i).map f) l = (lastWrite write l).map f := by
  rw [lastWrite, lastWrite, ← List.getLast?_map, List.map_filterMap]

/-- What is written may be read off a function of the inputs. -/
theorem lastWrite_comp (f : ι → β) (write : β → Option γ) (l : List ι) :
    lastWrite (fun i => write (f i)) l = lastWrite write (l.map f) := by
  rw [lastWrite, lastWrite, List.filterMap_map]
  rfl

/-- Nothing has been written if no item writes. -/
theorem lastWrite_eq_none_iff {write : ι → Option β} {l : List ι} :
    lastWrite write l = none ↔ ∀ i ∈ l, write i = none := by
  rw [lastWrite, List.getLast?_eq_none_iff, List.filterMap_eq_nil_iff]

/-- Equal writes have an equal last one. -/
theorem lastWrite_congr {write write' : ι → Option β} {l : List ι}
    (h : ∀ i ∈ l, write i = write' i) : lastWrite write l = lastWrite write' l := by
  rw [lastWrite, lastWrite, List.filterMap_congr h]

/-- What the last item writes, or else what has been written before. -/
theorem lastWrite_concat (write : ι → Option β) (l : List ι) (i : ι) :
    lastWrite write (l ++ [i]) = (write i).or (lastWrite write l) := by
  rw [lastWrite, List.filterMap_append, List.filterMap_cons, List.filterMap_nil]
  cases write i with
  | none => rw [List.append_nil, Option.none_or, lastWrite]
  | some v => rw [List.getLast?_concat, Option.some_or]

/-- **The last item that writes**: what it writes is what is left. -/
theorem lastWrite_eq_some_iff {write : ι → Option β} {l : List ι} {b : β} :
    lastWrite write l = some b ↔ ∃ before i after,
      l = before ++ i :: after ∧ write i = some b ∧ ∀ j ∈ after, write j = none := by
  unfold lastWrite
  constructor
  · intro h
    obtain ⟨ys, hys⟩ := List.getLast?_eq_some_iff.mp h
    obtain ⟨l₁, l₂, rfl, -, hl₂⟩ := List.filterMap_eq_append_iff.mp hys
    obtain ⟨l₃, i, after, rfl, -, hi, hafter⟩ := List.filterMap_eq_cons_iff.mp hl₂
    refine ⟨l₁ ++ l₃, i, after, by rw [List.append_assoc], hi, ?_⟩
    exact List.filterMap_eq_nil_iff.mp hafter
  · rintro ⟨before, i, after, rfl, hi, hafter⟩
    rw [List.filterMap_append, List.filterMap_cons, hi, List.filterMap_eq_nil_iff.mpr hafter]
    exact List.getLast?_concat

/-- **Two ways of writing** the same items, of which one writes whenever the other does, and the
same: they leave related values exactly if each item that only one of them writes is followed by one
that is written, or related to what the other one leaves.

**Proof sketch.** If the values are related, an item that only the first way writes, with none
behind it, is its last write, so the second way has written something related. Conversely the last
write of the first way is written by the second way as well, and is the last there too, or it is one
of the items of the condition. -/
theorem lastWrite_rel_iff {R : β → β → Prop} (hR : ∀ b, R b b) {write write' : ι → Option β}
    {l : List ι} (h : ∀ i ∈ l, ∀ b, write' i = some b → write i = some b) :
    Option.Rel R (lastWrite write l) (lastWrite write' l) ↔
      ∀ before i after, l = before ++ i :: after → write' i = none → ∀ b, write i = some b →
        (∃ j ∈ after, write j ≠ none) ∨ ∃ c, lastWrite write' l = some c ∧ R b c := by
  constructor
  · intro hrel before i after hl _ b hb
    by_cases hlater : ∃ j ∈ after, write j ≠ none
    · exact .inl hlater
    have hafter : ∀ j ∈ after, write j = none := fun j hj =>
      by_contra fun hne => hlater ⟨j, hj, hne⟩
    rw [lastWrite_eq_some_iff.mpr ⟨before, i, after, hl, hb, hafter⟩] at hrel
    cases hlast : lastWrite write' l with
    | none =>
      rw [hlast] at hrel
      cases hrel
    | some c =>
      rw [hlast] at hrel
      cases hrel with
      | some hr => exact .inr ⟨c, rfl, hr⟩
  · intro hall
    have hnone : ∀ j ∈ l, write j = none → write' j = none := by
      intro j hj hw
      rw [Option.eq_none_iff_forall_not_mem]
      intro b hb
      rw [h j hj b hb] at hw
      cases hw
    cases hlast : lastWrite write l with
    | none =>
      have hw := lastWrite_eq_none_iff.mp hlast
      rw [lastWrite_eq_none_iff.mpr fun j hj => hnone j hj (hw j hj)]
      exact .none
    | some b =>
      obtain ⟨before, i, after, hl, hi, hafter⟩ := lastWrite_eq_some_iff.mp hlast
      have hsub : ∀ j ∈ i :: after, j ∈ l := fun j hj => by
        rw [hl]
        exact List.mem_append_right _ hj
      cases hw : write' i with
      | some c =>
        obtain rfl : c = b := by
          have hc := h i (hsub i List.mem_cons_self) c hw
          exact Option.some.inj (hc.symm.trans hi)
        have hafter' : ∀ j ∈ after, write' j = none := fun j hj =>
          hnone j (hsub j (List.mem_cons_of_mem i hj)) (hafter j hj)
        rw [lastWrite_eq_some_iff.mpr ⟨before, i, after, hl, hw, hafter'⟩]
        exact .some (hR c)
      | none =>
        rcases hall before i after hl hw b hi with ⟨j, hj, hne⟩ | ⟨c, hc, hr⟩
        · exact absurd (hafter j hj) hne
        · rw [hc]
          exact .some hr

end Register

end JzPretest.Transition

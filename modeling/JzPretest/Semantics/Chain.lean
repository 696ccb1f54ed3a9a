import Mathlib.Data.List.InsertIdx
import Mathlib.Data.List.Nodup
import Mathlib.Logic.Function.Basic

set_option relaxedAutoImplicit false
set_option autoImplicit false

/-!
# Chains of pointers

Nodes that each point to the next one, up to a null pointer. A chain that ends goes through no node
twice, so that a pointer that is changed is changed in one place of it.

## Main definitions

* `JzPretest.Chained` — the chain from a pointer goes through these nodes.

## Main results

* `JzPretest.Chained.unique`, `JzPretest.Chained.nodup` — the nodes are determined, and distinct.
* `JzPretest.Chained.congr` — pointers of other nodes do not matter.
* `JzPretest.Chained.insertIdx`, `JzPretest.Chained.eraseIdx` — linking a node in, and out.
-/

namespace JzPretest

variable {α : Type} {next next' : α → Option α} {p : Option α} {l l' : List α}

/-- The chain from the pointer `p` goes through exactly these nodes, and ends. -/
def Chained (next : α → Option α) : Option α → List α → Prop
  | p, [] => p = none
  | p, a :: l => p = some a ∧ Chained next (next a) l

namespace Chained

/-- The pointer points to the first of the nodes. -/
theorem eq_head? (h : Chained next p l) : p = l.head? := by
  cases l with
  | nil => exact h
  | cons a l => exact h.1

/-- **The nodes of a chain** are determined by the pointer to the first one. -/
theorem unique (h : Chained next p l) (h' : Chained next p l') : l = l' := by
  induction l generalizing p l' with
  | nil =>
    cases l' with
    | nil => rfl
    | cons a l' => exact absurd (h.symm.trans h'.1) (by simp)
  | cons a l ih =>
    cases l' with
    | nil => exact absurd (h.1.symm.trans h') (by simp)
    | cons b l' =>
      obtain rfl : a = b := Option.some.inj (h.1.symm.trans h'.1)
      rw [ih h.2 h'.2]

/-- Behind a node there is the rest of the chain. -/
lemma of_append {l₁ l₂ : List α} {a : α} (h : Chained next p (l₁ ++ a :: l₂)) :
    Chained next (next a) l₂ := by
  induction l₁ generalizing p with
  | nil => exact h.2
  | cons b l₁ ih => exact ih h.2

/-- **A chain that ends goes through no node twice**.

**Proof sketch.** From both places the same nodes would follow, and yet fewer from the second. -/
theorem nodup (h : Chained next p l) : l.Nodup := by
  induction l generalizing p with
  | nil => exact List.nodup_nil
  | cons a l ih =>
    refine List.nodup_cons.mpr ⟨fun hmem => ?_, ih h.2⟩
    obtain ⟨l₁, l₂, rfl⟩ := List.append_of_mem hmem
    have hlen := congrArg List.length (unique h.2 (of_append h.2))
    rw [List.length_append, List.length_cons] at hlen
    omega

/-- **Frame**: the pointers of other nodes do not matter. -/
theorem congr (h : Chained next p l) (hnext : ∀ a ∈ l, next' a = next a) : Chained next' p l := by
  induction l generalizing p with
  | nil => exact h
  | cons a l ih =>
    obtain ⟨ha, hl⟩ := List.forall_mem_cons.mp hnext
    exact ⟨h.1, ha ▸ ih h.2 hl⟩

/-- The pointer of a node points to the one after it. -/
theorem next_eq (h : Chained next p l) {k : ℕ} {a : α} (ha : l[k]? = some a) :
    next a = l[k + 1]? := by
  induction l generalizing p k with
  | nil => exact absurd ha (by simp)
  | cons b l ih =>
    cases k with
    | zero =>
      obtain rfl : b = a := Option.some.inj ha
      rw [h.2.eq_head?, List.head?_eq_getElem?]
      rfl
    | succ k => exact ih h.2 ha

variable [DecidableEq α]

/-- **Linking a node in** behind another one.

**Proof sketch.** Induction on the list. At the front the two updates are the new links, and no
other node of the rest is among the changed ones, because the nodes differ; further behind the
updates do not touch the node in front. -/
theorem insertIdx (h : Chained next p l) {k : ℕ} {a b : α} (ha : l[k]? = some a) (hb : b ∉ l) :
    Chained (Function.update (Function.update next b (next a)) a (some b)) p
      (l.insertIdx (k + 1) b) := by
  induction l generalizing p k with
  | nil => exact absurd ha (by simp)
  | cons c l ih =>
    obtain ⟨hbc, hbl⟩ := List.ne_and_not_mem_of_not_mem_cons hb
    obtain ⟨hcl, -⟩ := List.nodup_cons.mp h.nodup
    rw [List.insertIdx_succ_cons]
    cases k with
    | zero =>
      obtain rfl : c = a := Option.some.inj ha
      rw [List.insertIdx_zero]
      refine ⟨h.1, Function.update_self .., ?_⟩
      rw [Function.update_of_ne hbc, Function.update_self]
      apply h.2.congr
      intro d hd
      have hdc : d ≠ c := ne_of_mem_of_not_mem hd hcl
      have hdb : d ≠ b := ne_of_mem_of_not_mem hd hbl
      rw [Function.update_of_ne hdc, Function.update_of_ne hdb]
    | succ k =>
      have hca : c ≠ a := fun hca => hcl (hca ▸ List.mem_of_getElem? ha)
      refine ⟨h.1, ?_⟩
      rw [Function.update_of_ne hca, Function.update_of_ne (Ne.symm hbc)]
      exact ih h.2 ha hbl

/-- **Linking out** the node behind another one.

**Proof sketch.** Induction on the list, as for `insertIdx`: only the link of the node before the
removed one changes. -/
theorem eraseIdx (h : Chained next p l) {k : ℕ} {a b : α} (ha : l[k]? = some a)
    (hb : l[k + 1]? = some b) :
    Chained (Function.update next a (next b)) p (l.eraseIdx (k + 1)) := by
  induction l generalizing p k with
  | nil => exact absurd ha (by simp)
  | cons c l ih =>
    obtain ⟨hcl, -⟩ := List.nodup_cons.mp h.nodup
    rw [List.eraseIdx_cons_succ]
    cases k with
    | zero =>
      obtain rfl : c = a := Option.some.inj ha
      refine ⟨h.1, ?_⟩
      cases l with
      | nil => exact absurd hb (by simp)
      | cons d l =>
        obtain rfl : d = b := Option.some.inj hb
        rw [Function.update_self, List.eraseIdx_cons_zero]
        apply h.2.2.congr
        intro e he
        have hec : e ≠ c := ne_of_mem_of_not_mem (List.mem_cons_of_mem d he) hcl
        exact Function.update_of_ne hec _ _
    | succ k =>
      have hca : c ≠ a := fun hca => hcl (hca ▸ List.mem_of_getElem? ha)
      refine ⟨h.1, ?_⟩
      rw [Function.update_of_ne hca]
      exact ih h.2 ha hb

end Chained

end JzPretest

import JzPretest.Semantics.Transition
import Mathlib.Data.List.Range
import Mathlib.Data.Nat.Notation
import Mathlib.Logic.Function.Basic

set_option relaxedAutoImplicit false
set_option autoImplicit false

/-!
# Writing to a memory

A program that only writes to a memory is given by the list of its writes. What is in the memory
afterwards is decided at each address by the last write there. Programs that draw make their writes
in loops over rows and columns.

## Main definitions

* `JzPretest.Raster.store` — the memory after some writes.
* `JzPretest.Raster.grid` — a loop over rows and columns.
* `JzPretest.Raster.alternate` — a loop whose passes do two things by turns.

## Main results

* `JzPretest.Raster.store_of_not_mem` — what is not written stays.
* `JzPretest.Raster.store_of_mem` — where all writes agree, what they write is there afterwards.
* `JzPretest.Raster.store_append_of_not_mem` — later writes elsewhere do not matter.
-/

namespace JzPretest.Raster

/-! ## The memory -/

section Store

variable {ι β ω : Type*} [DecidableEq ι] (addr : ω → ι) (val : ω → β)

/-- The memory after some writes: `addr` is where a write goes, and `val` what it writes. -/
def store (m : ι → β) (ws : List ω) : ι → β :=
  ws.foldl (fun m w => Function.update m (addr w) (val w)) m

/-- Writes come one after the other. -/
theorem store_append (m : ι → β) (ws ws' : List ω) :
    store addr val m (ws ++ ws') = store addr val (store addr val m ws) ws' :=
  List.foldl_append

/-- What a write leaves at an address, if it goes there. -/
def valueAt (a : ι) (w : ω) : Option β := if addr w = a then some (val w) else none

/-- An address holds what was last written there. -/
lemma store_apply (m : ι → β) (ws : List ω) (a : ι) :
    store addr val m ws a = (Transition.lastWrite (valueAt addr val a) ws).getD (m a) := by
  have hnext : ∀ w ∈ ws, ∀ m : ι → β, Function.update m (addr w) (val w) a =
      (valueAt addr val a w).getD (m a) := by
    intro w _ m
    rw [Function.update_apply, valueAt]
    by_cases h : addr w = a
    · rw [if_pos h.symm, if_pos h, Option.getD_some]
    · rw [if_neg (Ne.symm h), if_neg h, Option.getD_none]
  exact @Transition.register_foldl _ _ _ (fun m w => Function.update m (addr w) (val w))
    (fun m => m a) (valueAt addr val a) ws hnext m

variable {addr val}

/-- The value that a write leaves at a place. -/
lemma valueAt_eq_some_iff {a : ι} {w : ω} {v : β} :
    valueAt addr val a w = some v ↔ addr w = a ∧ val w = v := by
  unfold valueAt
  split_ifs with h
  · rw [Option.some.injEq, and_iff_right h]
  · exact iff_of_false not_false fun hw => h hw.1

/-- **The frame**: what is not written stays. -/
theorem store_of_not_mem {m : ι → β} {ws : List ω} {a : ι} (h : ∀ w ∈ ws, addr w ≠ a) :
    store addr val m ws a = m a := by
  have hnone : Transition.lastWrite (valueAt addr val a) ws = none :=
    Transition.lastWrite_eq_none_iff.mpr fun w hw => if_neg (h w hw)
  rw [store_apply, hnone, Option.getD_none]

/-- **Where all writes agree**, what they write is there afterwards.

**Proof sketch.** What is stored is the last write at the address (`store_apply`). There is one, and
as all writes there agree, its value is the common one. -/
theorem store_of_mem {m : ι → β} {ws : List ω} {a : ι} {v : β} (hex : ∃ w ∈ ws, addr w = a)
    (hall : ∀ w ∈ ws, addr w = a → val w = v) : store addr val m ws a = v := by
  obtain ⟨w, hw, ha⟩ := hex
  rw [store_apply]
  cases hlast : Transition.lastWrite (valueAt addr val a) ws with
  | none =>
    have hnone := Transition.lastWrite_eq_none_iff.mp hlast w hw
    rw [valueAt_eq_some_iff.mpr ⟨ha, rfl⟩] at hnone
    exact absurd hnone (Option.some_ne_none _)
  | some u =>
    obtain ⟨before, w', after, hws, hu, -⟩ := Transition.lastWrite_eq_some_iff.mp hlast
    have hw' : w' ∈ ws := by
      rw [hws]
      exact List.mem_append_right _ List.mem_cons_self
    obtain ⟨ha', rfl⟩ := valueAt_eq_some_iff.mp hu
    exact hall w' hw' ha'

/-- **Later writes** elsewhere do not matter. -/
theorem store_append_of_not_mem {m : ι → β} {ws ws' : List ω} {a : ι}
    (h : ∀ w ∈ ws', addr w ≠ a) : store addr val m (ws ++ ws') a = store addr val m ws a := by
  rw [store_append, store_of_not_mem h]

end Store

/-! ## Loops -/

section Loops

variable {ω : Type*}

/-- A loop over `h` rows, and in each over `w` columns. -/
def grid (w h : ℕ) (f : ℕ → ℕ → ω) : List ω :=
  (List.range h).flatMap fun j => (List.range w).map fun i => f i j

/-- The writes of a grid are those of its cells. -/
@[simp] theorem mem_grid {w h : ℕ} {f : ℕ → ℕ → ω} {x : ω} :
    x ∈ grid w h f ↔ ∃ i < w, ∃ j < h, f i j = x := by
  simp only [grid, List.mem_flatMap, List.mem_map, List.mem_range]
  constructor
  · rintro ⟨j, hj, i, hi, rfl⟩
    exact ⟨i, hi, j, hj, rfl⟩
  · rintro ⟨i, hi, j, hj, rfl⟩
    exact ⟨j, hj, i, hi, rfl⟩

/-- Two loops are the same if their bodies are, at each row and column. -/
theorem grid_congr {w h : ℕ} {f g : ℕ → ℕ → ω} (hfg : ∀ i < w, ∀ j < h, f i j = g i j) :
    grid w h f = grid w h g := by
  unfold grid
  refine List.flatMap_congr fun j hj => List.map_congr_left fun i hi => ?_
  exact hfg i (List.mem_range.mp hi) j (List.mem_range.mp hj)

/-- A loop with a counter below `n` that does `f` and `g` by turns: each pass does both and advances
the counter after each of them, so that `g` may see the counter at `n`. -/
def alternate (n : ℕ) (f g : ℕ → List ω) : List ω :=
  (List.range ((n + 1) / 2)).flatMap fun m => f (2 * m) ++ g (2 * m + 1)

/-- The writes of two rows that take turns. -/
theorem mem_alternate {n : ℕ} {f g : ℕ → List ω} {x : ω} :
    x ∈ alternate n f g ↔ ∃ i, 2 * (i / 2) < n ∧ x ∈ if i % 2 = 0 then f i else g i := by
  have hrange : ∀ m, m < (n + 1) / 2 ↔ 2 * m < n := fun m => by omega
  simp only [alternate, List.mem_flatMap, List.mem_range, List.mem_append, hrange]
  constructor
  · rintro ⟨m, hm, hx | hx⟩
    · exact ⟨2 * m, by omega, by rwa [if_pos (by omega)]⟩
    · exact ⟨2 * m + 1, by omega, by rwa [if_neg (by omega)]⟩
  · rintro ⟨i, hi, hx⟩
    refine ⟨i / 2, hi, ?_⟩
    split_ifs at hx with hmod
    · exact .inl (by rwa [show 2 * (i / 2) = i by omega])
    · exact .inr (by rwa [show 2 * (i / 2) + 1 = i by omega])

/-- A loop that does nothing. -/
theorem alternate_nil (n : ℕ) : alternate n (fun _ => ([] : List ω)) (fun _ => []) = [] :=
  List.flatMap_eq_nil_iff.mpr fun _ _ => rfl

/-- **The passes before, at and after** one value of the counter.

**Proof sketch.** The range of passes is split at the one with the given counter; every pass in the
second part has a larger counter. -/
theorem exists_alternate_eq {n m : ℕ} (h : 2 * m < n) (f g : ℕ → List ω) :
    ∃ before after, alternate n f g = before ++ (f (2 * m) ++ g (2 * m + 1)) ++ after ∧
      ∀ x ∈ after, ∃ i, 2 * m + 1 < i ∧ x ∈ if i % 2 = 0 then f i else g i := by
  obtain ⟨r, hr⟩ : ∃ r, (n + 1) / 2 = m + (r + 1) := ⟨(n + 1) / 2 - m - 1, by omega⟩
  have hsplit : List.range (m + (r + 1)) = List.range m ++ m :: List.range' (m + 1) r := by
    rw [List.range_eq_range', List.range_eq_range', ← List.range'_append_1, Nat.zero_add,
      List.range'_succ]
  refine ⟨(List.range m).flatMap fun k => f (2 * k) ++ g (2 * k + 1),
    (List.range' (m + 1) r).flatMap fun k => f (2 * k) ++ g (2 * k + 1), ?_, ?_⟩
  · rw [alternate, hr, hsplit, List.flatMap_append, List.flatMap_cons]
    simp only [List.append_assoc]
  · intro x hx
    obtain ⟨k, hk, hx⟩ := List.mem_flatMap.mp hx
    have hle := (List.mem_range'_1.mp hk).1
    rcases List.mem_append.mp hx with hx | hx
    · exact ⟨2 * k, by omega, by rwa [if_pos (by omega)]⟩
    · exact ⟨2 * k + 1, by omega, by rwa [if_neg (by omega)]⟩

end Loops

end JzPretest.Raster

import Mathlib.Data.Nat.ModEq
import Mathlib.Data.Nat.Notation

set_option relaxedAutoImplicit false
set_option autoImplicit false

/-!
# Ones' complement sums

Words below a base `B` are added, and what does not fit in a word is carried round to its end. The
result is the sum modulo `B - 1`, where a sum that is not zero is never written as `0`. Sums of
parts can therefore be continued, and a word that is added to make up `B - 1` shows a change of any
other word, unless the two are the same modulo `B - 1`.

## Main definitions

* `JzPretest.OnesComplement.carry` — one end-around carry.
* `JzPretest.OnesComplement.residue` — the word that a sum ends up as.
* `JzPretest.OnesComplement.wordSum` — the sum of the words of two bytes that bytes make up.

## Main results

* `JzPretest.OnesComplement.residue_carry`, `JzPretest.OnesComplement.carry_lt` — carrying keeps the
  residue, and comes to an end.
* `JzPretest.OnesComplement.residue_add` — a sum can be continued from its residue.
* `JzPretest.OnesComplement.residue_complement` — the complement of a sum makes up `B - 1`.
* `JzPretest.OnesComplement.residue_eq_iff` — which sums have the same residue.
* `JzPretest.OnesComplement.eq_or_of_modEq` — which words are the same modulo `B - 1`.
* `JzPretest.OnesComplement.wordSum_append` — parts that begin at a word can be added separately.
-/

namespace JzPretest.OnesComplement

variable {B : ℕ}

/-- The end-around carry: what is above a word is added to it. -/
def carry (B n : ℕ) : ℕ := n % B + n / B

/-- The word that stands for a sum. -/
def residue (B n : ℕ) : ℕ := if n = 0 then 0 else (n - 1) % (B - 1) + 1

/-- Nothing is left of nothing. -/
@[simp] lemma residue_zero (B : ℕ) : residue B 0 = 0 := rfl

/-- Only of nothing there is nothing left. -/
@[simp] lemma residue_eq_zero_iff {n : ℕ} : residue B n = 0 ↔ n = 0 := by
  unfold residue
  split_ifs with h <;> simp [h]

/-- The residue is one digit. -/
theorem residue_lt (hB : 2 ≤ B) (n : ℕ) : residue B n < B := by
  unfold residue
  split_ifs
  · omega
  · have := Nat.mod_lt (n - 1) (show 0 < B - 1 by omega)
    omega

/-- A word stands for itself. -/
theorem residue_of_lt {n : ℕ} (h : n < B) : residue B n = n := by
  unfold residue
  split_ifs with h0
  · exact h0.symm
  · rw [Nat.mod_eq_of_lt (by omega)]
    omega

/-- A number and its residue are congruent. -/
lemma residue_modEq (B n : ℕ) : residue B n ≡ n [MOD B - 1] := by
  unfold residue
  split_ifs with h0
  · rw [h0]
  · have h := (Nat.mod_modEq (n - 1) (B - 1)).add_right 1
    rwa [Nat.sub_add_cancel (by omega)] at h

/-- **Equal residues**: sums that are the same modulo `B - 1`, and both zero or both not. -/
theorem residue_eq_iff {a b : ℕ} :
    residue B a = residue B b ↔ (a = 0 ↔ b = 0) ∧ a ≡ b [MOD B - 1] := by
  constructor
  · intro h
    refine ⟨?_, (residue_modEq B a).symm.trans (h ▸ residue_modEq B b)⟩
    rw [← residue_eq_zero_iff (B := B), h, residue_eq_zero_iff]
  · rintro ⟨hzero, hmod⟩
    by_cases ha : a = 0
    · rw [ha, hzero.mp ha]
    · have hb : b ≠ 0 := fun hb => ha (hzero.mpr hb)
      have h : a - 1 ≡ b - 1 [MOD B - 1] := by
        apply Nat.ModEq.add_right_cancel' 1
        rwa [Nat.sub_add_cancel (by omega), Nat.sub_add_cancel (by omega)]
      rw [residue, residue, if_neg ha, if_neg hb, h]

/-- Adding the carry keeps the residue class. -/
lemma carry_modEq (B n : ℕ) : carry B n ≡ n [MOD B - 1] := by
  rcases Nat.eq_zero_or_pos B with rfl | hB
  · simp [carry]
  · have h : n = n % B + n / B + (B - 1) * (n / B) := by
      conv_lhs => rw [← Nat.mod_add_div n B]
      rw [show B = B - 1 + 1 by omega, Nat.add_one_mul]
      simp only [Nat.add_sub_cancel]
      omega
    unfold carry
    conv_rhs => rw [h]
    exact (Nat.modEq_of_dvd (by simp)).symm

/-- **Carrying** does not change what a sum stands for. -/
theorem residue_carry (B n : ℕ) : residue B (carry B n) = residue B n := by
  refine residue_eq_iff.mpr ⟨?_, carry_modEq B n⟩
  have h := Nat.mod_add_div n B
  constructor
  · intro h0
    obtain ⟨hm, hd⟩ := Nat.add_eq_zero_iff.mp h0
    rw [← h, hm, hd, Nat.mul_zero]
  · rintro rfl
    simp [carry]

/-- Carrying makes a sum of more than a word smaller. -/
theorem carry_lt (hB : 2 ≤ B) {n : ℕ} (h : B ≤ n) : carry B n < n := by
  have hdiv : 0 < n / B := Nat.div_pos h (by omega)
  have hn := Nat.mod_add_div n B
  have hmul : 2 * (n / B) ≤ B * (n / B) := Nat.mul_le_mul_right _ hB
  unfold carry
  omega

/-- **Sums of parts**: a sum can be continued from what the first part stands for. -/
theorem residue_add (B a b : ℕ) : residue B (residue B a + b) = residue B (a + b) := by
  refine residue_eq_iff.mpr ⟨?_, (residue_modEq B a).add_right b⟩
  simp

/-- **The complement** of a sum makes up the word of ones only.

**Proof sketch.** Both sides are residues; by `residue_eq_iff` they agree when the sums vanish
together and are congruent, and `n` is congruent to its own residue. -/
theorem residue_complement (hB : 2 ≤ B) (n : ℕ) :
    residue B (n + (B - 1 - residue B n)) = B - 1 := by
  have hlt := residue_lt hB n
  conv_rhs => rw [← residue_of_lt (B := B) (n := B - 1) (by omega)]
  refine residue_eq_iff.mpr ⟨?_, ?_⟩
  · constructor
    · intro h0
      have hn : n = 0 := by omega
      rw [hn, residue_zero] at h0
      omega
    · intro h0
      omega
  · calc n + (B - 1 - residue B n)
        ≡ residue B n + (B - 1 - residue B n) [MOD B - 1] :=
          ((residue_modEq B n).symm).add_right _
      _ = B - 1 := by omega

/-- Two words that are the same modulo `B - 1` are equal, or the zero and the word of ones. -/
theorem eq_or_of_modEq {v w : ℕ} (hv : v < B) (hw : w < B) (h : v ≡ w [MOD B - 1]) :
    v = w ∨ v = 0 ∧ w = B - 1 ∨ v = B - 1 ∧ w = 0 := by
  unfold Nat.ModEq at h
  by_cases hv1 : v = B - 1
  · by_cases hw1 : w = B - 1
    · exact .inl (hv1.trans hw1.symm)
    · rw [hv1, Nat.mod_self, Nat.mod_eq_of_lt (by omega)] at h
      exact .inr (.inr ⟨hv1, h.symm⟩)
  · by_cases hw1 : w = B - 1
    · rw [hw1, Nat.mod_self, Nat.mod_eq_of_lt (by omega)] at h
      exact .inr (.inl ⟨h, hw1⟩)
    · rw [Nat.mod_eq_of_lt (by omega), Nat.mod_eq_of_lt (by omega)] at h
      exact .inl h

/-! ## The words of a sequence of bytes -/

/-- The sum of the words of two bytes, the lower one first; a last single byte is a word too. -/
def wordSum : List UInt8 → ℕ
  | a :: b :: rest => a.toNat + 256 * b.toNat + wordSum rest
  | [a] => a.toNat
  | [] => 0

/-- No bytes, no sum. -/
@[simp] theorem wordSum_nil : wordSum [] = 0 := rfl

/-- Two bytes are one word, with the low byte first. -/
@[simp] theorem wordSum_cons_cons (a b : UInt8) (rest : List UInt8) :
    wordSum (a :: b :: rest) = a.toNat + 256 * b.toNat + wordSum rest := rfl

/-- **Parts of a sequence**: after whole words the sum goes on. -/
theorem wordSum_append {l : List UInt8} (h : 2 ∣ l.length) (l' : List UInt8) :
    wordSum (l ++ l') = wordSum l + wordSum l' := by
  induction l using wordSum.induct with
  | case1 a b rest ih =>
    have hrest : 2 ∣ rest.length := by
      simp only [List.length_cons] at h
      omega
    simp only [List.cons_append, wordSum_cons_cons, ih hrest]
    omega
  | case2 a =>
    simp at h
  | case3 => simp

/-- Half as many words as bytes, rounded up, each of at most sixteen bits.

**Proof sketch.** Induction on the bytes, two by two. A last byte alone counts as a word below
256. -/
theorem wordSum_le (l : List UInt8) : 2 * wordSum l ≤ 65535 * (l.length + 1) := by
  induction l using wordSum.induct with
  | case1 a b rest ih =>
    have ha := a.toNat_lt
    have hb := b.toNat_lt
    simp only [wordSum_cons_cons, List.length_cons]
    omega
  | case2 a =>
    have ha := a.toNat_lt
    simp only [wordSum, List.length_cons, List.length_nil]
    omega
  | case3 => simp

end JzPretest.OnesComplement

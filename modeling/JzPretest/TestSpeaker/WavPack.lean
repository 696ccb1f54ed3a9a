import JzPretest.TestSpeaker.Wav

set_option relaxedAutoImplicit false
set_option autoImplicit false

/-!
# The two sample converters undo each other

`wav_32bit_to_24bit` goes through a block from the first sample to the last and drops every fourth
byte. It works in place, as `wav_expand_24bit_to_32bit` does, in the other direction: the new place
of a sample lies below the old one.

## Main results

* `JzPretest.Sndkit.wav32bitTo24bit_eq` — the fourth bytes are dropped.
* `JzPretest.Sndkit.expand_pack` — either converter after the other.
-/

namespace JzPretest.Sndkit

/-- Where the `i`-th byte stood before the fourth bytes were dropped. -/
def packIndex (i : ℕ) : ℕ := i / 3 * 4 + i % 3

/-- One pass of the loop of `wav_32bit_to_24bit`, when the new place of the sample does not lie
above the old one.

**Proof sketch.** All loads and stores are inside the block. The new place is not above the old one,
so no byte is overwritten before it is read. -/
private lemma packPasses_succ (n : ℕ) (data : Buffer) {d s : ℕ} (hs : d ≤ s)
    (hd : s + 2 < data.size) :
    ∃ data', packPasses (n + 1) data d s = packPasses n data' ((d : ℤ) + 3) ((s : ℤ) + 4) ∧
      data'.size = data.size ∧ ∀ i, data'.byte i =
        if i = d + 2 then data.byte (s + 2) else if i = d + 1 then data.byte (s + 1)
        else if i = d then data.byte s else data.byte i := by
  have e1 : ((s : ℤ) + 1).toNat = s + 1 := rfl
  have e2 : ((s : ℤ) + 2).toNat = s + 2 := rfl
  have e3 : ((d : ℤ) + 1).toNat = d + 1 := rfl
  have e4 : ((d : ℤ) + 2).toNat = d + 2 := rfl
  rw [packPasses]
  simp (disch := ((try dsimp only); omega)) only [Buffer.load_eq, Buffer.store_eq, bind,
    Except.bind]
  refine ⟨_, rfl, rfl, fun i => ?_⟩
  simp only [e1, e2, e3, e4, Int.toNat_natCast]
  rw [if_neg (show ¬ s + 2 = d + 1 by omega), if_neg (show ¬ s + 2 = d by omega),
    if_neg (show ¬ s + 1 = d by omega)]

/-- **What the loop does**: from the first sample on, each is moved to its new place.

**Proof sketch.** Induction on the passes. The sample that is moved first ends below all places
that are read after it. -/
theorem packPasses_eq (n : ℕ) : ∀ (j : ℕ) (data : Buffer), 4 * (j + n) ≤ data.size →
    ∃ data', packPasses n data ((3 * j : ℕ) : ℤ) ((4 * j : ℕ) : ℤ) = .ok data' ∧
      data'.size = data.size ∧ ∀ i, data'.byte i =
        if 3 * j ≤ i ∧ i < 3 * (j + n) then data.byte (packIndex i) else data.byte i := by
  induction n with
  | zero =>
    intro j data _
    refine ⟨data, rfl, rfl, fun i => ?_⟩
    rw [if_neg (by omega)]
  | succ n ih =>
    intro j data hsize
    obtain ⟨data₁, hpass, hsize₁, hbyte₁⟩ := packPasses_succ n data
      (show 3 * j ≤ 4 * j by omega) (by omega)
    obtain ⟨data', hrun, hsize', hbyte⟩ := ih (j + 1) data₁ (by omega)
    refine ⟨data', ?_, hsize'.trans hsize₁, fun i => ?_⟩
    · rw [hpass, ← hrun]
      congr 1
    · rw [hbyte i]
      by_cases hi : 3 * (j + 1) ≤ i ∧ i < 3 * (j + 1 + n)
      · have hsrc : 4 * (j + 1) ≤ packIndex i := by
          unfold packIndex
          omega
        rw [if_pos hi, if_pos ⟨by omega, by omega⟩, hbyte₁, if_neg (by omega),
          if_neg (by omega), if_neg (by omega)]
      · rw [if_neg hi, hbyte₁]
        by_cases hmoved : 3 * j ≤ i ∧ i < 3 * (j + 1)
        · -- the sample that has just been moved
          rw [if_pos (show 3 * j ≤ i ∧ i < 3 * (j + (n + 1)) by omega)]
          have hindex : packIndex i = 4 * j + (i - 3 * j) := by
            unfold packIndex
            omega
          obtain rfl | rfl | rfl : i = 3 * j ∨ i = 3 * j + 1 ∨ i = 3 * j + 2 := by omega
          · rw [if_neg (by omega), if_neg (by omega), if_pos rfl, hindex, Nat.sub_self,
              Nat.add_zero]
          · rw [if_neg (by omega), if_pos rfl, hindex, Nat.add_sub_cancel_left]
          · rw [if_pos rfl, hindex, Nat.add_sub_cancel_left]
        · rw [if_neg (show ¬ (3 * j ≤ i ∧ i < 3 * (j + (n + 1))) by omega), if_neg (by omega),
            if_neg (by omega), if_neg (by omega)]

/-- **Dropping the fourth bytes** of the samples of a block; the rest stays as it is. -/
theorem wav32bitTo24bit_eq (data : Buffer) {m : ℕ} (hsize : 4 * m ≤ data.size) :
    ∃ data', wav32bitTo24bit data (4 * m) = .ok data' ∧ data'.size = data.size ∧
      ∀ i, data'.byte i = if i < 3 * m then data.byte (packIndex i) else data.byte i := by
  obtain ⟨data', hrun, hsize', hbyte⟩ := packPasses_eq m 0 data (by omega)
  have hpasses : (4 * m + 3) / 4 = m := by omega
  refine ⟨data', ?_, hsize', fun i => ?_⟩
  · rw [wav32bitTo24bit, hpasses]
    exact hrun
  · rw [hbyte, Nat.zero_add]
    simp only [Nat.mul_zero, Nat.zero_le, true_and]

/-- **Either converter after the other.** Samples that are expanded and then packed again are
restored; samples that are packed and then expanded again lose every fourth byte, and nothing
else.

**Proof sketch.** Both converters are known byte by byte (`wavExpand24bitTo32bit_eq`,
`wav32bitTo24bit_eq`). The place of a byte that is expanded and packed is its own, and so is that of
one that is packed and expanded, unless it is a fourth byte. -/
theorem expand_pack (data : Buffer) {m : ℕ} (hm : 3 ≤ m) (hsize : 4 * m ≤ data.size) :
    (∃ data₁ data₂, wavExpand24bitTo32bit data (3 * m) = .ok data₁ ∧
      wav32bitTo24bit data₁ (4 * m) = .ok data₂ ∧
      slice data₂.byte 0 (3 * m) = slice data.byte 0 (3 * m)) ∧
    ∃ data₁ data₂, wav32bitTo24bit data (4 * m) = .ok data₁ ∧
      wavExpand24bitTo32bit data₁ (3 * m) = .ok data₂ ∧
      slice data₂.byte 0 (4 * m) =
        slice (fun i => if i % 4 = 3 then 0 else data.byte i) 0 (4 * m) := by
  have hdiv : 3 * m / 3 = m := by omega
  constructor
  · obtain ⟨data₁, hexpand, hsize₁, hbyte₁⟩ := wavExpand24bitTo32bit_eq data
      (show 9 ≤ 3 * m by omega) (by omega)
    obtain ⟨data₂, hpack, -, hbyte₂⟩ := wav32bitTo24bit_eq data₁ (m := m) (by omega)
    refine ⟨data₁, data₂, hexpand, hpack, slice_congr fun i hi => ?_⟩
    have hindex : packIndex i = 4 * (i / 3) + i % 3 := by
      unfold packIndex
      omega
    rw [Nat.zero_add, hbyte₂, if_pos hi, hbyte₁, hdiv, hindex, if_pos (by omega),
      expandByte_of_lt _ _ (by omega), Nat.div_add_mod]
  · obtain ⟨data₁, hpack, hsize₁, hbyte₁⟩ := wav32bitTo24bit_eq data hsize
    obtain ⟨data₂, hexpand, -, hbyte₂⟩ := wavExpand24bitTo32bit_eq data₁
      (show 9 ≤ 3 * m by omega) (by omega)
    refine ⟨data₁, data₂, hpack, hexpand, slice_congr fun i hi => ?_⟩
    rw [Nat.zero_add, hbyte₂, hdiv, if_pos hi, expandByte]
    by_cases hfourth : i % 4 = 3
    · rw [if_pos hfourth, if_pos hfourth]
    · have hindex : packIndex (i / 4 * 3 + i % 4) = i := by
        unfold packIndex
        omega
      rw [if_neg hfourth, if_neg hfourth, hbyte₁, if_pos (by omega), hindex]

/-- Six samples. -/
theorem expand_pack_six : ∃ data₁ data₂,
    wav32bitTo24bit (Buffer.ofBytes [1, 2, 3, 4, 5, 6, 7, 8, 9, 10, 11, 12, 13, 14, 15, 16, 17, 18,
        19, 20, 21, 22, 23, 24]) 24 = .ok data₁ ∧
      wavExpand24bitTo32bit data₁ 18 = .ok data₂ ∧
      slice data₂.byte 0 24 = [1, 2, 3, 0, 5, 6, 7, 0, 9, 10, 11, 0, 13, 14, 15, 0, 17, 18, 19, 0,
        21, 22, 23, 0] := by
  obtain ⟨-, data₁, data₂, hpack, hexpand, hbytes⟩ :=
    expand_pack (Buffer.ofBytes [1, 2, 3, 4, 5, 6, 7, 8, 9, 10, 11, 12, 13, 14, 15, 16, 17, 18, 19,
      20, 21, 22, 23, 24]) (show 3 ≤ 6 by omega) (by decide)
  exact ⟨data₁, data₂, hpack, hexpand, hbytes⟩

end JzPretest.Sndkit

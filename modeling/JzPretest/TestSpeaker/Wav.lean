import JzPretest.Semantics.ByteIO
import Mathlib.Tactic.IntervalCases

set_option relaxedAutoImplicit false
set_option autoImplicit false

/-!
# The sample converters of `wav.c`

Samples of 24 bits take three bytes in a WAV file and four bytes on the sound device. Both
converters of `wav.c` work in place. The one that expands goes from the last sample to the first,
and copies the first three through a temporary array, because there the two places of a sample
overlap.

## Main definitions

* `JzPretest.Sndkit.wavExpand24bitTo32bit`, `JzPretest.Sndkit.wav32bitTo24bit` — the functions.
* `JzPretest.Sndkit.expand24` — what expanding is for: a zero byte after every three bytes.

## Main results

* `JzPretest.Sndkit.wavExpand24bitTo32bit_eq` — a block of at least three samples is expanded;
  `JzPretest.Sndkit.expand_in_place` — the same, sample by sample.
* `JzPretest.Sndkit.wavExpand24bitTo32bit_of_lt` — a smaller one stops the program.
-/

namespace JzPretest.Sndkit

/-! ## The functions -/

/-- The body of the loop of `wav_expand_24bit_to_32bit`. -/
def copySample (data : Buffer) (dst src : ℤ) : Except Fault Buffer := do
  let data ← data.store dst (← data.load src)
  let data ← data.store (dst + 1) (← data.load (src + 1))
  let data ← data.store (dst + 2) (← data.load (src + 2))
  data.store (dst + 3) 0

/-- The loop of `wav_expand_24bit_to_32bit`: the block, and the two pointers. -/
def expandPasses : ℕ → Buffer → ℤ → ℤ → Except Fault (Buffer × ℤ × ℤ)
  | 0, data, dst, src => .ok (data, dst, src)
  | n + 1, data, dst, src => do
    let data ← copySample data dst src
    expandPasses n data (dst - 4) (src - 3)

/-- `wav_expand_24bit_to_32bit`. -/
def wavExpand24bitTo32bit (data : Buffer) (len : ℕ) : Except Fault Buffer := do
  let len := if len % 3 ≠ 0 then len - len % 3 else len
  let (data, dst, src) ←
    expandPasses (len / 3 - 3) data ((len / 3 * 4 : ℕ) - 4 : ℤ) ((len : ℤ) - 3)
  let tmp ← data.loadAll 0 9
  let data ← data.storeAll 0
    [tmp.getD 0 0, tmp.getD 1 0, tmp.getD 2 0, 0, tmp.getD 3 0, tmp.getD 4 0, tmp.getD 5 0, 0,
      tmp.getD 6 0, tmp.getD 7 0, tmp.getD 8 0, 0]
  let src := src - 6
  let dst := dst - 8
  if src ≠ 0 then .error (.assertionFailed "src == data")
  else if dst ≠ 0 then .error (.assertionFailed "dst == data")
  else .ok data

/-- The loop of `wav_32bit_to_24bit`. -/
def packPasses : ℕ → Buffer → ℤ → ℤ → Except Fault Buffer
  | 0, data, _, _ => .ok data
  | n + 1, data, dst, src => do
    let data ← data.store dst (← data.load src)
    let data ← data.store (dst + 1) (← data.load (src + 1))
    let data ← data.store (dst + 2) (← data.load (src + 2))
    packPasses n data (dst + 3) (src + 4)

/-- `wav_32bit_to_24bit`: one pass for every four bytes begun. -/
def wav32bitTo24bit (data : Buffer) (len : ℕ) : Except Fault Buffer :=
  packPasses ((len + 3) / 4) data 0 0

/-! ## Expanding -/

/-- A zero byte after every three bytes. -/
def expand24 : List UInt8 → List UInt8
  | a :: b :: c :: rest => a :: b :: c :: 0 :: expand24 rest
  | _ => []

/-- Less than a sample has no expansion. -/
lemma expand24_of_length_lt {l : List UInt8} (h : l.length < 3) : expand24 l = [] := by
  match l with
  | [] => rfl
  | [a] => rfl
  | [a, b] => rfl
  | a :: b :: c :: rest =>
    simp only [List.length_cons] at h
    omega

/-- What has no three elements is shorter. -/
private lemma length_lt_three {l : List UInt8}
    (h : ∀ a b c rest, l = a :: b :: c :: rest → False) : l.length < 3 := by
  match l with
  | [] => simp
  | [a] => simp
  | [a, b] => simp
  | a :: b :: c :: rest => exact absurd rfl (h a b c rest)

/-- Bytes after the last whole sample are dropped. -/
theorem expand24_take (l : List UInt8) : expand24 (l.take (3 * (l.length / 3))) = expand24 l := by
  induction l using expand24.induct with
  | case1 a b c rest ih =>
    rw [show 3 * ((a :: b :: c :: rest).length / 3) = 3 * (rest.length / 3) + 1 + 1 + 1 by
      simp only [List.length_cons]; omega]
    simp only [List.take_succ_cons, expand24, ih]
  | case2 l hl =>
    have hlt := length_lt_three hl
    rw [expand24_of_length_lt hlt, expand24_of_length_lt (by rw [List.length_take]; omega)]

/-- Four bytes for every whole sample. -/
theorem length_expand24 (l : List UInt8) : (expand24 l).length = 4 * (l.length / 3) := by
  induction l using expand24.induct with
  | case1 a b c rest ih =>
    simp only [expand24, List.length_cons, ih]
    omega
  | case2 l hl =>
    have hlt := length_lt_three hl
    rw [expand24_of_length_lt hlt, List.length_nil]
    omega

/-- Whole samples are expanded by themselves. -/
theorem expand24_append {l : List UInt8} (l' : List UInt8) (h : 3 ∣ l.length) :
    expand24 (l ++ l') = expand24 l ++ expand24 l' := by
  induction l using expand24.induct with
  | case1 a b c rest ih =>
    have hrest : 3 ∣ rest.length := by
      simp only [List.length_cons] at h
      omega
    simp only [List.cons_append, expand24, ih hrest]
  | case2 l hl =>
    have hlt := length_lt_three hl
    obtain rfl : l = [] := List.eq_nil_of_length_eq_zero (by omega)
    rfl

/-- Bytes laid out four by four that are those of `f` and a zero are the expansion of `f`.

**Proof sketch.** Induction on the samples: the first four bytes are the first sample and a zero. -/
private lemma slice_eq_expand24 {f g : ℕ → UInt8} (k : ℕ) : ∀ p q : ℕ,
    (∀ j < k, g (p + 4 * j) = f (q + 3 * j) ∧ g (p + 4 * j + 1) = f (q + 3 * j + 1) ∧
      g (p + 4 * j + 2) = f (q + 3 * j + 2) ∧ g (p + 4 * j + 3) = 0) →
    slice g p (4 * k) = expand24 (slice f q (3 * k)) := by
  induction k with
  | zero =>
    intro p q _
    rfl
  | succ k ih =>
    intro p q h
    have hrest := ih (p + 4) (q + 3) fun j hj => by
      have := h (j + 1) (by omega)
      rw [show p + 4 * (j + 1) = p + 4 + 4 * j by omega,
        show q + 3 * (j + 1) = q + 3 + 3 * j by omega] at this
      exact this
    obtain ⟨h0, h1, h2, h3⟩ := h 0 (by omega)
    simp only [Nat.mul_zero, Nat.add_zero] at h0 h1 h2 h3
    rw [show 4 * (k + 1) = 4 * k + 1 + 1 + 1 + 1 by omega,
      show 3 * (k + 1) = 3 * k + 1 + 1 + 1 by omega]
    simp only [slice_succ, expand24, h0, h1, h2, h3, hrest]

/-- What one pass of the loop does, when the new place of the sample lies above the old one.

**Proof sketch.** All loads and stores are inside the block. The new place is above the old one, so
no byte is overwritten before it is read. -/
private lemma copySample_eq (data : Buffer) {d s : ℕ} (hs : s + 2 < d) (hd : d + 3 < data.size) :
    ∃ data', copySample data d s = .ok data' ∧ data'.size = data.size ∧
      ∀ i, data'.byte i =
        if i = d + 3 then 0 else if i = d + 2 then data.byte (s + 2)
        else if i = d + 1 then data.byte (s + 1) else if i = d then data.byte s
        else data.byte i := by
  have e1 : ((s : ℤ) + 1).toNat = s + 1 := rfl
  have e2 : ((s : ℤ) + 2).toNat = s + 2 := rfl
  have e3 : ((d : ℤ) + 1).toNat = d + 1 := rfl
  have e4 : ((d : ℤ) + 2).toNat = d + 2 := rfl
  have e5 : ((d : ℤ) + 3).toNat = d + 3 := rfl
  unfold copySample
  simp (disch := ((try dsimp only); omega)) only [Buffer.load_eq, Buffer.store_eq, bind,
    Except.bind]
  refine ⟨_, rfl, rfl, fun i => ?_⟩
  simp only [e1, e2, e3, e4, e5, Int.toNat_natCast]
  rw [if_neg (show ¬ s + 2 = d + 1 by omega), if_neg (show ¬ s + 2 = d by omega),
    if_neg (show ¬ s + 1 = d by omega)]

/-- The `i`-th byte of the expansion of `f`. -/
def expandByte (f : ℕ → UInt8) (i : ℕ) : UInt8 :=
  if i % 4 = 3 then 0 else f (i / 4 * 3 + i % 4)

/-- The fourth byte is zero. -/
lemma expandByte_three (f : ℕ → UInt8) (k : ℕ) : expandByte f (4 * k + 3) = 0 :=
  if_pos (by omega)

/-- The others are those of the sample. -/
theorem expandByte_of_lt (f : ℕ → UInt8) (k : ℕ) {r : ℕ} (hr : r < 3) :
    expandByte f (4 * k + r) = f (3 * k + r) := by
  rw [expandByte, if_neg (by omega)]
  congr 1
  omega

/-- **What the loop does**: from the last sample down to the fourth, each is moved to its new
place and followed by a zero byte.

**Proof sketch.** Induction on the passes. The sample that is moved first lies above all places
that are read after it. -/
theorem expandPasses_eq (n : ℕ) : ∀ data : Buffer, 4 * (n + 3) ≤ data.size →
    ∃ data', expandPasses n data ((4 * (n + 2) : ℕ) : ℤ) ((3 * (n + 2) : ℕ) : ℤ) =
        .ok (data', 8, 6) ∧
      data'.size = data.size ∧ ∀ i, data'.byte i =
        if 12 ≤ i ∧ i < 4 * (n + 3) then expandByte data.byte i else data.byte i := by
  induction n with
  | zero =>
    intro data _
    refine ⟨data, rfl, rfl, fun i => ?_⟩
    rw [if_neg (by omega)]
  | succ n ih =>
    intro data hsize
    obtain ⟨data₁, hcopy, hsize₁, hbyte₁⟩ := copySample_eq data
      (show 3 * (n + 3) + 2 < 4 * (n + 3) by omega) (by omega)
    obtain ⟨data', hrun, hsize', hbyte⟩ := ih data₁ (by omega)
    have hlow : ∀ i, i < 4 * (n + 3) → data₁.byte i = data.byte i := by
      intro i hi
      rw [hbyte₁, if_neg (by omega), if_neg (by omega), if_neg (by omega), if_neg (by omega)]
    refine ⟨data', ?_, hsize'.trans hsize₁, fun i => ?_⟩
    · rw [expandPasses, hcopy]
      change expandPasses n data₁ _ _ = _
      rw [← hrun]
      congr 1 <;> omega
    · rw [hbyte i]
      by_cases hi : i < 4 * (n + 3)
      · have hsrc : expandByte data₁.byte i = expandByte data.byte i := by
          rw [expandByte, expandByte, hlow (i / 4 * 3 + i % 4) (by omega)]
        rw [hsrc, hlow i hi]
        by_cases h12 : 12 ≤ i
        · rw [if_pos ⟨h12, hi⟩, if_pos ⟨h12, by omega⟩]
        · rw [if_neg fun h => h12 h.1, if_neg fun h => h12 h.1]
      · rw [if_neg fun h => hi h.2, hbyte₁ i]
        by_cases htop : i < 4 * (n + 3) + 4
        · -- the sample that has just been moved
          rw [if_pos (show 12 ≤ i ∧ i < 4 * (n + 1 + 3) by omega)]
          obtain ⟨r, hr, rfl⟩ : ∃ r, r < 4 ∧ i = 4 * (n + 3) + r := ⟨i - 4 * (n + 3), by omega⟩
          obtain rfl | rfl | rfl | rfl : r = 0 ∨ r = 1 ∨ r = 2 ∨ r = 3 := by omega
          · rw [expandByte_of_lt _ _ (by omega)]
            simp
          · simp [expandByte_of_lt]
          · simp [expandByte_of_lt]
          · simp [expandByte_three]
        · rw [if_neg (show ¬ (12 ≤ i ∧ i < 4 * (n + 1 + 3)) by omega), if_neg (by omega),
            if_neg (by omega), if_neg (by omega), if_neg (by omega)]

/-- The first three samples, through the temporary array. -/
private lemma storeFirst_eq (data : Buffer) (t : ℕ → UInt8) (h : 12 ≤ data.size) :
    ∃ data', data.storeAll 0 [(slice t 0 9).getD 0 0, (slice t 0 9).getD 1 0,
        (slice t 0 9).getD 2 0, 0, (slice t 0 9).getD 3 0, (slice t 0 9).getD 4 0,
        (slice t 0 9).getD 5 0, 0, (slice t 0 9).getD 6 0, (slice t 0 9).getD 7 0,
        (slice t 0 9).getD 8 0, 0] = .ok data' ∧
      data'.size = data.size ∧ ∀ i, data'.byte i =
        if i < 12 then expandByte t i else data.byte i := by
  rw [Buffer.storeAll_eq (by simpa using h)]
  refine ⟨_, rfl, rfl, fun i => ?_⟩
  simp only [Buffer.overlay, List.length_cons, List.length_nil, Nat.zero_le, true_and,
    Nat.zero_add, Nat.sub_zero]
  by_cases hi : i < 12
  · rw [if_pos hi, if_pos hi]
    interval_cases i <;> rfl
  · rw [if_neg hi, if_neg hi]

/-- **Expanding a block** of at least three samples: every sample is followed by a zero byte, and
the rest of the block stays as it is.

**Proof sketch.** The loop moves all but the first three samples (`expandPasses_eq`), from the last
one down; these three are read at once and stored (`storeFirst_eq`). -/
theorem wavExpand24bitTo32bit_eq (data : Buffer) {len : ℕ} (hlen : 9 ≤ len)
    (hsize : 4 * (len / 3) ≤ data.size) :
    ∃ data', wavExpand24bitTo32bit data len = .ok data' ∧ data'.size = data.size ∧
      ∀ i, data'.byte i = if i < 4 * (len / 3) then expandByte data.byte i else data.byte i := by
  obtain ⟨n, hn⟩ : ∃ n, len / 3 = n + 3 := ⟨len / 3 - 3, by omega⟩
  rw [hn] at hsize ⊢
  have hround : (if len % 3 ≠ 0 then len - len % 3 else len) = 3 * (n + 3) := by
    split_ifs <;> omega
  obtain ⟨data₁, hloop, hsize₁, hbyte₁⟩ := expandPasses_eq n data (by omega)
  obtain ⟨data', hstore, hsize', hbyte'⟩ := storeFirst_eq data₁ data₁.byte (by omega)
  have hload : data₁.loadAll 0 9 = .ok (slice data₁.byte 0 9) := Buffer.loadAll_eq (by omega)
  have hlow : ∀ i, i < 12 → data₁.byte i = data.byte i := fun i hi => by
    rw [hbyte₁, if_neg (by omega)]
  refine ⟨data', ?_, hsize'.trans hsize₁, fun i => ?_⟩
  · have hdst : ((3 * (n + 3) / 3 * 4 : ℕ) - 4 : ℤ) = ((4 * (n + 2) : ℕ) : ℤ) := by omega
    have hsrc : ((3 * (n + 3) : ℕ) : ℤ) - 3 = ((3 * (n + 2) : ℕ) : ℤ) := by omega
    have hpasses : 3 * (n + 3) / 3 - 3 = n := by omega
    simp only [wavExpand24bitTo32bit, hround, hpasses, hdst, hsrc, hloop, hload, hstore, bind,
      Except.bind]
    rfl
  · rw [hbyte']
    by_cases h12 : i < 12
    · rw [if_pos h12, if_pos (by omega), expandByte, expandByte,
        hlow (i / 4 * 3 + i % 4) (by omega)]
    · rw [if_neg h12, hbyte₁]
      by_cases hi : i < 4 * (n + 3)
      · rw [if_pos hi, if_pos ⟨by omega, hi⟩]
      · rw [if_neg hi, if_neg fun h => hi h.2]

/-- **Expanding in place**: the bytes of every whole sample arrive at their new place, followed by a
zero byte, and everything behind the expanded samples stays as it is. No access leaves the block and
both closing assertions hold. (Lengths are those of objects in memory, whose size fits an `int`.)

**Proof sketch.** `wavExpand24bitTo32bit_eq`, read for the four bytes of each sample and for the
bytes behind all of them. -/
theorem expand_in_place (data : Buffer) {len : ℕ} (hlen : 9 ≤ len)
    (hsize : max len (4 * (len / 3)) ≤ data.size) :
    ∃ data', wavExpand24bitTo32bit data len = .ok data' ∧ data'.size = data.size ∧
      (∀ k < len / 3, data'.byte (4 * k) = data.byte (3 * k) ∧
        data'.byte (4 * k + 1) = data.byte (3 * k + 1) ∧
        data'.byte (4 * k + 2) = data.byte (3 * k + 2) ∧ data'.byte (4 * k + 3) = 0) ∧
      ∀ i, 4 * (len / 3) ≤ i → data'.byte i = data.byte i := by
  obtain ⟨data', hrun, hsize', hbyte⟩ :=
    wavExpand24bitTo32bit_eq data hlen (Nat.le_trans (Nat.le_max_right _ _) hsize)
  refine ⟨data', hrun, hsize', fun k hk => ⟨?_, ?_, ?_, ?_⟩, fun i hi => ?_⟩
  · rw [hbyte, if_pos (by omega)]
    exact expandByte_of_lt data.byte k (r := 0) (by omega)
  · rw [hbyte, if_pos (by omega), expandByte_of_lt _ _ (by omega)]
  · rw [hbyte, if_pos (by omega), expandByte_of_lt _ _ (by omega)]
  · rw [hbyte, if_pos (by omega), expandByte_three]
  · rw [hbyte, if_neg (by omega)]

/-- A block with six samples and a byte more.

**Proof sketch.** `expand_in_place` for this block, read at the first, the fifth and the sixth
sample and at the byte behind them. -/
theorem expand_in_place_nineteen : ∃ data',
    wavExpand24bitTo32bit (Buffer.ofBytes [1, 2, 3, 4, 5, 6, 7, 8, 9, 10, 11, 12, 13, 14, 15, 16,
        17, 18, 19, 20, 21, 22, 23, 24, 25]) 19 = .ok data' ∧
      slice data'.byte 0 4 = [1, 2, 3, 0] ∧ slice data'.byte 16 4 = [13, 14, 15, 0] ∧
      slice data'.byte 20 4 = [16, 17, 18, 0] ∧ data'.byte 24 = 25 := by
  obtain ⟨data', hrun, -, hsample, hrest⟩ :=
    expand_in_place (Buffer.ofBytes [1, 2, 3, 4, 5, 6, 7, 8, 9, 10, 11, 12, 13, 14, 15, 16, 17, 18,
      19, 20, 21, 22, 23, 24, 25]) (show 9 ≤ 19 by omega) (by decide)
  have hslice : ∀ p, slice data'.byte p 4 =
      [data'.byte p, data'.byte (p + 1), data'.byte (p + 2), data'.byte (p + 3)] := fun p => rfl
  obtain ⟨h0, h1, h2, h3⟩ := hsample 0 (by decide)
  obtain ⟨h16, h17, h18, h19⟩ := hsample 4 (by decide)
  obtain ⟨h20, h21, h22, h23⟩ := hsample 5 (by decide)
  refine ⟨data', hrun, ?_, ?_, ?_, hrest 24 (by decide)⟩
  · exact (hslice 0).trans (by rw [h0, h1, h2, h3]; rfl)
  · exact (hslice 16).trans (by rw [h16, h17, h18, h19]; rfl)
  · exact (hslice 20).trans (by rw [h20, h21, h22, h23]; rfl)

/-- The block that is written for a block of samples. -/
theorem slice_wavExpand24bitTo32bit {data data' : Buffer} {k : ℕ}
    (h : ∀ i < 4 * k, data'.byte i = expandByte data.byte i) :
    slice data'.byte 0 (4 * k) = expand24 (slice data.byte 0 (3 * k)) := by
  apply slice_eq_expand24
  intro j hj
  simp only [Nat.zero_add]
  refine ⟨?_, ?_, ?_, ?_⟩
  · rw [h _ (by omega)]
    exact expandByte_of_lt data.byte j (r := 0) (by omega)
  · rw [h _ (by omega), expandByte_of_lt _ _ (by omega)]
  · rw [h _ (by omega), expandByte_of_lt _ _ (by omega)]
  · rw [h _ (by omega), expandByte_three]

/-- **A block of fewer than three samples** stops the program: the pointers do not end where the
closing assertions want them. -/
theorem wavExpand24bitTo32bit_of_lt (data : Buffer) {len : ℕ} (hlen : len < 9) :
    ∃ e, wavExpand24bitTo32bit data len = .error e := by
  obtain ⟨m, hround, hm⟩ : ∃ m, (if len % 3 ≠ 0 then len - len % 3 else len) = m ∧ m < 9 :=
    ⟨_, rfl, by split_ifs <;> omega⟩
  have hpasses : m / 3 - 3 = 0 := by omega
  simp only [wavExpand24bitTo32bit, hround, hpasses, expandPasses, bind, Except.bind]
  cases data.loadAll 0 9 with
  | error e => exact ⟨e, rfl⟩
  | ok tmp =>
    dsimp only
    split
    · exact ⟨_, rfl⟩
    · rw [if_pos (show (m : ℤ) - 3 - 6 ≠ 0 by omega)]
      exact ⟨_, rfl⟩

end JzPretest.Sndkit

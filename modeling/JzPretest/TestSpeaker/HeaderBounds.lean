import JzPretest.TestSpeaker.WavHeader

set_option relaxedAutoImplicit false
set_option autoImplicit false

/-!
# The bounds of a header

`parse_wav_header` adds the lengths of the `JUNK` chunk and of the `fmt` chunk to its pointer as
they stand in the file, and looks at the bytes there without knowing how large the block is. Here it
is said which blocks are read inside their bounds: those in which the chunks, one by one, fit.

## Main definitions

* `JzPretest.Sndkit.Compares` — comparing with the type of a chunk stays inside the block.
* `JzPretest.Sndkit.HeaderFits` — so does every access, chunk by chunk.

## Main results

* `JzPretest.Sndkit.parse_inside_iff` — the headers that are parsed inside the block.
* `JzPretest.Sndkit.parse_leaves_block` — a `JUNK` chunk that is too long for the block.
-/

namespace JzPretest.Sndkit

/-! ## Single accesses -/

/-- Every byte that is compared, because those before it agree, lies in the block. -/
def Compares (data : Buffer) (pos : ℕ) (type : List UInt8) : Prop :=
  ∀ i < type.length, slice data.byte pos i = type.take i → pos + i < data.size

/-- A comparison looks at the next byte only if this one is the same.

**Proof sketch.** Where the first bytes are the same, the comparison goes on with the others one
place further; else it ends. -/
lemma compares_cons {data : Buffer} {pos : ℕ} {b : UInt8} {bs : List UInt8} :
    Compares data pos (b :: bs) ↔
      pos < data.size ∧ (data.byte pos = b → Compares data (pos + 1) bs) := by
  constructor
  · intro h
    refine ⟨h 0 (by simp) rfl, fun hb i hi hslice => ?_⟩
    have hnext := h (i + 1) (by simpa using hi)
      (by rw [slice_succ, hb, hslice, List.take_succ_cons])
    omega
  · rintro ⟨hpos, hrest⟩ i hi hslice
    cases i with
    | zero => exact hpos
    | succ i =>
      rw [slice_succ, List.take_succ_cons, List.cons.injEq] at hslice
      have hnext := hrest hslice.1 i (by simpa using hi) hslice.2
      omega

/-- Some bytes are there if the first one is, and the others are behind it. -/
private lemma holds_cons {data : Buffer} {pos : ℕ} {b : UInt8} {bs : List UInt8} :
    data.Holds pos (b :: bs) ↔ data.byte pos = b ∧ data.Holds (pos + 1) bs := by
  unfold Buffer.Holds
  rw [List.length_cons, slice_succ, List.cons.injEq]
  constructor
  · rintro ⟨hsize, hb, hbs⟩
    exact ⟨hb, by omega, hbs⟩
  · rintro ⟨hb, hsize, hbs⟩
    exact ⟨by omega, hb, hbs⟩

/-- Comparing from a place in the block on.

**Proof sketch.** Induction on the characters: the first one is compared, which has to be inside the
block, and the others only if it is the same. -/
private lemma standsAt_iff_of_le {data : Buffer} {type : List UInt8} {b : Bool} : ∀ {pos : ℕ},
    pos ≤ data.size → (standsAt data pos type = .ok b ↔
      Compares data pos type ∧ (data.Holds pos type ↔ b = true)) := by
  induction type with
  | nil =>
    intro pos hpos
    have hcompares : Compares data pos [] := fun i hi => absurd hi (Nat.not_lt_zero i)
    have hholds : data.Holds pos [] := ⟨hpos, rfl⟩
    constructor
    · intro h
      obtain rfl : true = b := Except.ok.inj h
      exact ⟨hcompares, iff_of_true hholds rfl⟩
    · rintro ⟨-, hb⟩
      rw [hb.mp hholds]
      rfl
  | cons v vs ih =>
    intro pos hpos
    rw [standsAt, bind_eq_ok, compares_cons, holds_cons]
    constructor
    · rintro ⟨w, hload, h⟩
      have hlt : (pos : ℤ) < data.size := by
        unfold Buffer.load at hload
        split_ifs at hload with hin
        exact hin.2
      rw [Buffer.load_eq (Int.natCast_nonneg pos) hlt, Except.ok.injEq, Int.toNat_natCast] at hload
      subst hload
      refine ⟨⟨by omega, fun hv => ?_⟩, ?_⟩
      · rw [if_pos hv, ih (by omega)] at h
        exact h.1
      · by_cases hv : data.byte pos = v
        · rw [if_pos hv, ih (by omega)] at h
          rw [← h.2]
          exact and_iff_right hv
        · rw [if_neg hv] at h
          obtain rfl : false = b := Except.ok.inj h
          exact iff_of_false (fun h => hv h.1) (by decide)
    · rintro ⟨⟨hlt, hrest⟩, hb⟩
      refine ⟨data.byte pos, Buffer.load_eq (Int.natCast_nonneg pos) (by omega), ?_⟩
      by_cases hv : data.byte pos = v
      · rw [if_pos hv, ih (by omega)]
        exact ⟨hrest hv, by rw [← hb]; exact (and_iff_right hv).symm⟩
      · rw [if_neg hv, (Bool.eq_false_iff.mpr fun h => hv (hb.mpr h).1 : b = false)]
        rfl

/-- **Comparing** with the type of a chunk: the bytes that are compared have to lie in the block. -/
theorem standsAt_eq_ok_iff {data : Buffer} {pos : ℕ} {type : List UInt8} (htype : type ≠ [])
    {b : Bool} : standsAt data pos type = .ok b ↔
      Compares data pos type ∧ (data.Holds pos type ↔ b = true) := by
  by_cases hpos : pos ≤ data.size
  · exact standsAt_iff_of_le hpos
  · obtain ⟨v, vs, rfl⟩ := List.exists_cons_of_ne_nil htype
    constructor
    · intro h
      rw [standsAt, Buffer.load, if_neg (by omega)] at h
      exact absurd h (by simp [bind, Except.bind])
    · rintro ⟨hcompares, -⟩
      exact absurd (compares_cons.mp hcompares).1 (by omega)

/-- A branch on a comparison. -/
lemma if_standsAt_eq_ok {α : Type} {data : Buffer} {pos : ℕ} {type : List UInt8}
    (htype : type ≠ []) {x y : Except Fault α} {r : α} :
    (standsAt data pos type >>= fun found => if found = true then x else y) = .ok r ↔
      Compares data pos type ∧ (if data.Holds pos type then x else y) = .ok r := by
  rw [bind_eq_ok]
  constructor
  · rintro ⟨found, hfound, h⟩
    obtain ⟨hcompares, hholds⟩ := (standsAt_eq_ok_iff htype).mp hfound
    refine ⟨hcompares, ?_⟩
    simp only [hholds]
    exact h
  · rintro ⟨hcompares, h⟩
    refine ⟨decide (data.Holds pos type), (standsAt_eq_ok_iff htype).mpr
      ⟨hcompares, decide_eq_true_iff.symm⟩, ?_⟩
    simpa only [decide_eq_true_iff] using h

/-- A place where the whole type lies in the block. -/
lemma compares_of_le {data : Buffer} {pos : ℕ} {type : List UInt8}
    (h : pos + type.length ≤ data.size) : Compares data pos type := by
  intro i hi _
  omega

/-- The type of a chunk is not empty. -/
lemma chunkType_ne_nil (a b c d : Char) : chunkType a b c d ≠ [] := List.cons_ne_nil _ _

/-! ## The chunks -/

/-- Where the chunk ends that begins at `pos`, as its length says. The sum of the length and the
size of the head is an `unsigned int`. -/
def chunkEnd (data : Buffer) (pos : ℕ) : ℕ := pos + (data.field32 (pos + 4) + 8).toNat

/-- Where the `fact` chunk ends, if there is one. -/
def factEnd (data : Buffer) (pos : ℕ) : ℕ :=
  if data.Holds pos (chunkType 'f' 'a' 'c' 't') then pos + 12 else pos

/-- The head of the `data` chunk fits. -/
def DataFits (data : Buffer) (pos : ℕ) : Prop :=
  Compares data pos (chunkType 'd' 'a' 't' 'a') ∧
    (data.Holds pos (chunkType 'd' 'a' 't' 'a') → pos + 8 ≤ data.size)

/-- The `fmt` chunk fits; and if its data is not compressed, so do the chunks behind it. -/
def FmtFits (data : Buffer) (pos : ℕ) : Prop :=
  Compares data pos (chunkType 'f' 'm' 't' ' ') ∧
    (data.Holds pos (chunkType 'f' 'm' 't' ' ') → pos + 10 ≤ data.size ∧
      (data.field16 (pos + 8) = 1 → pos + 24 ≤ data.size ∧
        Compares data (chunkEnd data pos) (chunkType 'f' 'a' 'c' 't') ∧
        DataFits data (factEnd data (chunkEnd data pos))))

/-- In a block with a `RIFF` header the chunks fit. -/
def HeaderFits (data : Buffer) : Prop :=
  data.Holds 0 (chunkType 'R' 'I' 'F' 'F') → data.Holds 8 (chunkType 'W' 'A' 'V' 'E') →
    FmtFits data
      (if data.Holds 12 (chunkType 'J' 'U' 'N' 'K') then chunkEnd data 12 else 12)

/-- A `fact` chunk is skipped if the comparison with its type stays in the block. -/
private lemma skipFact_eq_ok_iff {data : Buffer} {pos q : ℕ} :
    skipFact data pos = .ok q ↔
      Compares data pos (chunkType 'f' 'a' 'c' 't') ∧ factEnd data pos = q := by
  rw [skipFact, if_standsAt_eq_ok (chunkType_ne_nil _ _ _ _), factEnd]
  refine and_congr_right fun _ => ?_
  split_ifs
  · exact iff_of_eq (Except.ok.injEq _ _)
  · exact iff_of_eq (Except.ok.injEq _ _)

/-- The `data` chunk is read without a fault if it fits. -/
private lemma parseDataChunk_ok_iff {data : Buffer} {pos : ℕ} (info : WavInfo) :
    (∃ r, parseDataChunk data pos info = .ok r) ↔ DataFits data pos := by
  simp only [parseDataChunk, if_standsAt_eq_ok (chunkType_ne_nil _ _ _ _), exists_and_left]
  refine and_congr_right fun _ => ?_
  by_cases hdata : data.Holds pos (chunkType 'd' 'a' 't' 'a')
  · simp only [hdata, if_true, bind_eq_ok, Buffer.load32_eq_ok_iff, forall_const]
    constructor
    · rintro ⟨r, len, ⟨hsize, -⟩, -⟩
      exact hsize
    · intro hsize
      exact ⟨_, _, ⟨hsize, rfl⟩, rfl⟩
  · simp only [hdata, if_false, false_implies, iff_true]
    exact ⟨_, rfl⟩

/-- The `fmt ` chunk is read without a fault, and what follows it, if it fits.

**Proof sketch.** The reads are followed in the order of the source: the comparison with the type,
the tag, the fields behind it if the tag is that of PCM, and then the `fact` chunk and the `data`
chunk at the end of this one. Each of them succeeds under one of the conditions of `FmtFits`, and
the first that fails decides. -/
private lemma parseFmtChunk_ok_iff {data : Buffer} {pos : ℕ} (info : WavInfo) :
    (∃ r, parseFmtChunk data pos info = .ok r) ↔ FmtFits data pos := by
  simp only [parseFmtChunk, if_standsAt_eq_ok (chunkType_ne_nil _ _ _ _), exists_and_left]
  refine and_congr_right fun _ => ?_
  by_cases hfmt : data.Holds pos (chunkType 'f' 'm' 't' ' ')
  · simp only [hfmt, if_true, forall_const, bind_eq_ok, Buffer.load16_eq_ok_iff]
    by_cases htag : data.field16 (pos + 8) = 1
    · constructor
      · rintro ⟨r, fmtTag, ⟨hsize, rfl⟩, h⟩
        rw [if_neg (not_not_intro htag)] at h
        obtain ⟨channels, hchannels, h⟩ := bind_eq_ok.mp h
        obtain ⟨sampleRate, hrate, h⟩ := bind_eq_ok.mp h
        obtain ⟨bits, hbits, h⟩ := bind_eq_ok.mp h
        obtain ⟨length, hlength, h⟩ := bind_eq_ok.mp h
        obtain ⟨pos', hskip, h⟩ := bind_eq_ok.mp h
        obtain ⟨-, rfl⟩ := Buffer.load32_eq_ok_iff.mp hlength
        obtain ⟨hcompares, rfl⟩ := skipFact_eq_ok_iff.mp hskip
        exact ⟨hsize, fun _ => ⟨(Buffer.load16_eq_ok_iff.mp hbits).1, hcompares,
          (parseDataChunk_ok_iff _).mp ⟨r, h⟩⟩⟩
      · rintro ⟨hsize, h⟩
        obtain ⟨hfields, hcompares, hdata⟩ := h htag
        have hchannels : data.load16 (pos + 10) = .ok _ :=
          Buffer.load16_eq_ok_iff.mpr ⟨by omega, rfl⟩
        have hrate : data.load32 (pos + 12) = .ok _ :=
          Buffer.load32_eq_ok_iff.mpr ⟨by omega, rfl⟩
        have hbits : data.load16 (pos + 22) = .ok _ :=
          Buffer.load16_eq_ok_iff.mpr ⟨by omega, rfl⟩
        have hlength : data.load32 (pos + 4) = .ok _ :=
          Buffer.load32_eq_ok_iff.mpr ⟨by omega, rfl⟩
        have hskip : skipFact data (chunkEnd data pos) = .ok _ :=
          skipFact_eq_ok_iff.mpr ⟨hcompares, rfl⟩
        obtain ⟨r, hr⟩ := (parseDataChunk_ok_iff { info with
          channels := (data.field16 (pos + 10)).toUInt32
          sampleRate := data.field32 (pos + 12)
          bits := (data.field16 (pos + 22)).toUInt32 }).mpr hdata
        refine ⟨r, _, ⟨hsize, rfl⟩, ?_⟩
        rw [if_neg (not_not_intro htag)]
        exact bind_eq_ok.mpr ⟨_, hchannels, bind_eq_ok.mpr ⟨_, hrate, bind_eq_ok.mpr
          ⟨_, hbits, bind_eq_ok.mpr ⟨_, hlength, bind_eq_ok.mpr ⟨_, hskip, hr⟩⟩⟩⟩⟩
    · constructor
      · rintro ⟨r, fmtTag, ⟨hsize, -⟩, -⟩
        exact ⟨hsize, fun h => absurd h htag⟩
      · rintro ⟨hsize, -⟩
        refine ⟨(0, info), _, ⟨hsize, rfl⟩, ?_⟩
        rw [if_pos htag]
        rfl
  · simp only [hfmt, if_false, false_implies, iff_true]
    exact ⟨_, rfl⟩

/-- Where the `fmt` chunk begins. -/
private lemma skipJunk_eq {data : Buffer} {pos : ℕ} (hsize : pos + 8 ≤ data.size) :
    skipJunk data pos = .ok
      (if data.Holds pos (chunkType 'J' 'U' 'N' 'K') then chunkEnd data pos else pos) := by
  rw [skipJunk, if_standsAt_eq_ok (chunkType_ne_nil _ _ _ _)]
  refine ⟨compares_of_le (by rw [length_chunkType]; omega), ?_⟩
  split_ifs
  · exact bind_eq_ok.mpr ⟨_, Buffer.load32_eq_ok_iff.mpr ⟨by omega, rfl⟩, rfl⟩
  · rfl

/-- The header is read without a fault if it fits.

**Proof sketch.** The first three comparisons are inside, since there are twenty bytes. A `JUNK`
chunk moves the place where the `fmt ` chunk is looked for, and from there on it is
`parseFmtChunk_ok_iff`. -/
private lemma parseWavHeader_ok_iff {data : Buffer} (hsize : 20 ≤ data.size) (info : WavInfo) :
    (∃ r, parseWavHeader data info = .ok r) ↔ HeaderFits data := by
  have hriff : Compares data 0 (chunkType 'R' 'I' 'F' 'F') :=
    compares_of_le (by rw [length_chunkType]; omega)
  have hwave : Compares data 8 (chunkType 'W' 'A' 'V' 'E') :=
    compares_of_le (by rw [length_chunkType]; omega)
  have hjunk := skipJunk_eq (show 12 + 8 ≤ data.size by omega)
  simp only [parseWavHeader, if_standsAt_eq_ok (chunkType_ne_nil _ _ _ _), hriff, true_and]
  unfold HeaderFits
  by_cases h0 : data.Holds 0 (chunkType 'R' 'I' 'F' 'F')
  · simp only [h0, if_true, forall_const, if_standsAt_eq_ok (chunkType_ne_nil _ _ _ _), hwave,
      true_and]
    by_cases h8 : data.Holds 8 (chunkType 'W' 'A' 'V' 'E')
    · simp only [h8, if_true, forall_const]
      rw [hjunk]
      exact parseFmtChunk_ok_iff info
    · simp only [h8, if_false, false_implies, iff_true]
      exact ⟨_, rfl⟩
  · simp only [h0, if_false, false_implies, iff_true]
    exact ⟨_, rfl⟩

/-- **Which blocks are parsed inside their bounds**: exactly those in which the chunks fit. A header
that is accepted then ends inside the block as well. -/
theorem parse_inside_iff (data : Buffer) (hsize : data.size = maxWavHeadSize) (info : WavInfo) :
    (∃ dataLen info', parseWavHeader data info = .ok (dataLen, info') ∧
      (dataLen ≠ 0 → info'.headLen ≤ maxWavHeadSize)) ↔ HeaderFits data := by
  have hlarge : 20 ≤ data.size := by
    rw [hsize]
    decide
  rw [← parseWavHeader_ok_iff hlarge info]
  constructor
  · rintro ⟨dataLen, info', hparse, -⟩
    exact ⟨_, hparse⟩
  · rintro ⟨⟨dataLen, info'⟩, hparse⟩
    exact ⟨dataLen, info', hparse, fun hlen => hsize ▸ headLen_le_of_parseWavHeader hparse hlen⟩

/-- A header with a `JUNK` chunk of 1000 bytes, and nothing more. -/
def longJunk : Buffer where
  size := maxWavHeadSize
  byte i := (chunkType 'R' 'I' 'F' 'F' ++ [0, 0, 0, 0] ++ chunkType 'W' 'A' 'V' 'E' ++
    chunkType 'J' 'U' 'N' 'K' ++ littleEndian 4 1000).getD i 0

/-- **A `JUNK` chunk that is longer than the block**: the parser looks for the `fmt` chunk outside
the block. -/
theorem parse_leaves_block : longJunk.size = maxWavHeadSize ∧
    parseWavHeader longJunk ⟨0, 0, 0, 0⟩ = .error (.outOfBounds 1020) ∧
    ¬ ∃ dataLen info', parseWavHeader longJunk ⟨0, 0, 0, 0⟩ = .ok (dataLen, info') ∧
      (dataLen ≠ 0 → info'.headLen ≤ maxWavHeadSize) := by
  have hparse : parseWavHeader longJunk ⟨0, 0, 0, 0⟩ = .error (.outOfBounds 1020) := rfl
  refine ⟨rfl, hparse, ?_⟩
  rintro ⟨dataLen, info', h, -⟩
  rw [hparse] at h
  exact absurd h (by simp)

/-- The same block does not fit its chunks. -/
theorem parse_inside_iff_longJunk : ¬ HeaderFits longJunk := by
  rw [← parse_inside_iff longJunk rfl ⟨0, 0, 0, 0⟩]
  rintro ⟨dataLen, info', h, -⟩
  have hparse : parseWavHeader longJunk ⟨0, 0, 0, 0⟩ = .error (.outOfBounds 1020) := rfl
  rw [hparse] at h
  exact absurd h (by simp)

end JzPretest.Sndkit

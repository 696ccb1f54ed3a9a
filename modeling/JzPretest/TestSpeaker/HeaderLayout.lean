import JzPretest.TestSpeaker.WavHeader
import Mathlib.Algebra.Group.Int.Defs

set_option relaxedAutoImplicit false
set_option autoImplicit false

/-!
# The layouts of a header

The headers that `parse_wav_header` reads: the `RIFF` header, perhaps a `JUNK` chunk, the `fmt`
chunk, perhaps a `fact` chunk, and the head of the `data` chunk. The `JUNK` chunk and the `fmt`
chunk say themselves how long they are, so that every later field stands where the earlier ones
put it.

## Main definitions

* `JzPretest.Sndkit.HeaderLayout` — a header, chunk by chunk; `HeaderLayout.bytes` — its bytes.

## Main results

* `JzPretest.Sndkit.parseWavHeader_of_holds` — reading a header of any of these layouts;
  `JzPretest.Sndkit.parse_layout` — the same for the block that the callers pass.
* `JzPretest.Sndkit.parseWavHeader_eq` — reading back the header that was written.
* `JzPretest.Sndkit.parse_init` — the header that is written, field by field, and what is read.
-/

namespace JzPretest.Sndkit

/-- A fixed number of bytes. -/
abbrev Bytes (n : ℕ) := { bytes : List UInt8 // bytes.length = n }

/-- A header, chunk by chunk. -/
structure HeaderLayout where
  /-- The length in the `RIFF` header; nothing looks at it. -/
  riffLength : Bytes 4
  /-- The contents of the `JUNK` chunk, if there is one. -/
  junk : Option (List UInt8)
  channels : UInt16
  sampleRate : UInt32
  bytesPerSecond : UInt32
  blockAlign : UInt16
  bits : UInt16
  /-- What the `fmt` chunk contains behind its 16 bytes. -/
  extra : List UInt8
  /-- The length and the contents of the `fact` chunk, if there is one. -/
  fact : Option (Bytes 8)
  dataLen : UInt32

namespace HeaderLayout

variable (layout : HeaderLayout)

/-- The `JUNK` chunk. -/
def junkBytes : List UInt8 :=
  match layout.junk with
  | none => []
  | some contents => chunkType 'J' 'U' 'N' 'K' ++ (littleEndian 4 contents.length ++ contents)

/-- The `fmt` chunk. -/
def fmtBytes : List UInt8 :=
  chunkType 'f' 'm' 't' ' ' ++ (littleEndian 4 (16 + layout.extra.length) ++
    (littleEndian 2 1 ++ (littleEndian 2 layout.channels.toNat ++
    (littleEndian 4 layout.sampleRate.toNat ++ (littleEndian 4 layout.bytesPerSecond.toNat ++
    (littleEndian 2 layout.blockAlign.toNat ++ (littleEndian 2 layout.bits.toNat ++
    layout.extra)))))))

/-- The `fact` chunk. -/
def factBytes : List UInt8 :=
  match layout.fact with
  | none => []
  | some contents => chunkType 'f' 'a' 'c' 't' ++ contents.val

/-- The head of the `data` chunk. -/
def dataBytes : List UInt8 := chunkType 'd' 'a' 't' 'a' ++ littleEndian 4 layout.dataLen.toNat

/-- All bytes of the header. -/
def bytes : List UInt8 :=
  chunkType 'R' 'I' 'F' 'F' ++ (layout.riffLength.val ++ (chunkType 'W' 'A' 'V' 'E' ++
    (layout.junkBytes ++ (layout.fmtBytes ++ (layout.factBytes ++ layout.dataBytes)))))

/-- The head of the `data` chunk. -/
private lemma length_dataBytes : layout.dataBytes.length = 8 := by
  simp [dataBytes, chunkType]

/-- The `fmt ` chunk, with its tail. -/
private lemma length_fmtBytes : layout.fmtBytes.length = 24 + layout.extra.length := by
  simp [fmtBytes, chunkType]
  omega

/-- The whole header. -/
private lemma length_bytes : layout.bytes.length =
    12 + layout.junkBytes.length + layout.fmtBytes.length + layout.factBytes.length + 8 := by
  simp only [bytes, List.length_append, layout.riffLength.property, length_dataBytes, chunkType,
    List.length_cons, List.length_nil]
  omega

end HeaderLayout

/-! ## Reading the chunks -/

section Chunks

variable {data : Buffer} {pos : ℕ}

/-- Comparing bytes that stand in the block. -/
lemma standsAt_of_holds {bytes : List UInt8} (h : data.Holds pos bytes) :
    standsAt data pos bytes = .ok true := by
  rw [standsAt_eq h.1, decide_eq_true h.2]

/-- Comparing other bytes than those that stand in the block. -/
lemma standsAt_of_holds_ne {bytes other : List UInt8} (h : data.Holds pos bytes)
    (hlen : other.length = bytes.length) (hne : bytes ≠ other) :
    standsAt data pos other = .ok false := by
  obtain ⟨hsize, hbytes⟩ := h
  rw [← hlen] at hsize hbytes
  rw [standsAt_eq hsize, hbytes, decide_eq_false hne]

/-- The length of a chunk, and how far it is to the next one. -/
lemma load32_of_holds {n : ℕ} (hn : n + 8 < 2 ^ 32) (h : data.Holds pos (littleEndian 4 n)) :
    ∃ length : UInt32, data.load32 pos = .ok length ∧ (length + 8).toNat = n + 8 := by
  have hlt : n < UInt32.size := Nat.lt_of_le_of_lt (Nat.le_add_right n 8) hn
  have hlength : (UInt32.ofNat n).toNat = n := UInt32.toNat_ofNat_of_lt' hlt
  refine ⟨UInt32.ofNat n, Buffer.Holds.load32 (by rwa [hlength]), ?_⟩
  rw [UInt32.toNat_add, hlength]
  exact Nat.mod_eq_of_lt hn

variable {layout : HeaderLayout}

/-- The `JUNK` chunk is skipped, if there is one.

**Proof sketch.** Without the chunk, `fmt` stands there and is not `JUNK`. With it, the length in
its header tells where the next chunk begins. -/
private lemma skipJunk_of_holds (h : data.Holds pos (layout.junkBytes ++ layout.fmtBytes))
    (hlen : layout.junkBytes.length < 2 ^ 32) :
    skipJunk data pos = .ok (pos + layout.junkBytes.length) := by
  obtain ⟨hjunk, hfmt⟩ := Buffer.holds_append.mp h
  cases hopt : layout.junk with
  | none =>
    have hnil : layout.junkBytes = [] := by simp only [HeaderLayout.junkBytes, hopt]
    rw [hnil, List.length_nil, Nat.add_zero] at hfmt
    have hne : standsAt data pos (chunkType 'J' 'U' 'N' 'K') = .ok false :=
      standsAt_of_holds_ne (Buffer.holds_append.mp hfmt).1 rfl (by decide)
    rw [skipJunk, hne, hnil]
    rfl
  | some contents =>
    have hbytes : layout.junkBytes =
        chunkType 'J' 'U' 'N' 'K' ++ (littleEndian 4 contents.length ++ contents) := by
      simp only [HeaderLayout.junkBytes, hopt]
    rw [hbytes] at hjunk hlen ⊢
    obtain ⟨htype, hrest⟩ := Buffer.holds_append.mp hjunk
    have hfield : data.Holds (pos + 4) (littleEndian 4 contents.length) :=
      (Buffer.holds_append.mp hrest).1
    have hlength : (chunkType 'J' 'U' 'N' 'K' ++ (littleEndian 4 contents.length ++
        contents)).length = contents.length + 8 := by
      simp [chunkType]
      omega
    rw [hlength] at hlen ⊢
    obtain ⟨junkLen, hload, hnext⟩ := load32_of_holds hlen hfield
    rw [skipJunk, standsAt_of_holds htype]
    change (do let junkLen ← data.load32 (pos + 4); _) = _
    rw [hload, ← hnext]
    rfl

/-- The `fact` chunk is skipped, if there is one.

**Proof sketch.** Without the chunk, `data` stands there and is not `fact`. With it, twelve bytes
are skipped. -/
private lemma skipFact_of_holds (h : data.Holds pos (layout.factBytes ++ layout.dataBytes)) :
    skipFact data pos = .ok (pos + layout.factBytes.length) := by
  obtain ⟨hfact, hdata⟩ := Buffer.holds_append.mp h
  cases hopt : layout.fact with
  | none =>
    have hnil : layout.factBytes = [] := by simp only [HeaderLayout.factBytes, hopt]
    rw [hnil, List.length_nil, Nat.add_zero] at hdata
    have hne : standsAt data pos (chunkType 'f' 'a' 'c' 't') = .ok false :=
      standsAt_of_holds_ne (Buffer.holds_append.mp hdata).1 rfl (by decide)
    rw [skipFact, hne, hnil]
    rfl
  | some contents =>
    have hbytes : layout.factBytes = chunkType 'f' 'a' 'c' 't' ++ contents.val := by
      simp only [HeaderLayout.factBytes, hopt]
    rw [hbytes] at hfact ⊢
    rw [skipFact, standsAt_of_holds (Buffer.holds_append.mp hfact).1, List.length_append,
      contents.property]
    rfl

/-- The head of the `data` chunk. -/
private lemma parseDataChunk_of_holds (h : data.Holds pos layout.dataBytes) (info : WavInfo) :
    parseDataChunk data pos info =
      .ok (layout.dataLen.toInt32, { info with headLen := pos + 8 }) := by
  obtain ⟨htype, hlen⟩ := Buffer.holds_append.mp h
  have hlen : data.load32 (pos + 4) = .ok layout.dataLen := hlen.load32
  rw [parseDataChunk, standsAt_of_holds htype]
  change (do let dataLen ← data.load32 (pos + 4); _) = _
  rw [hlen]
  rfl

/-- **The `fmt` chunk** and the rest of the header: each field is read where the ones before it
end.

**Proof sketch.** Each field of the chunk is held at its offset and read from there; its length
leads to `fact` or `data`, which have their own lemmas. -/
theorem parseFmtChunk_of_holds
    (h : data.Holds pos (layout.fmtBytes ++ (layout.factBytes ++ layout.dataBytes)))
    (hlen : layout.fmtBytes.length < 2 ^ 32) (info : WavInfo) :
    parseFmtChunk data pos info = .ok (layout.dataLen.toInt32,
      ⟨pos + layout.fmtBytes.length + layout.factBytes.length + 8,
        layout.channels.toUInt32, layout.sampleRate, layout.bits.toUInt32⟩) := by
  obtain ⟨hfmt, hrest⟩ := Buffer.holds_append.mp h
  have hnext : layout.fmtBytes.length = 16 + layout.extra.length + 8 := by
    rw [layout.length_fmtBytes]
    omega
  rw [hnext] at hrest hlen ⊢
  simp only [HeaderLayout.fmtBytes, Buffer.holds_append, length_littleEndian] at hfmt
  obtain ⟨htype, hlength, htag, hchannels, hrate, -, -, hbits, -⟩ := hfmt
  obtain ⟨length, hload, hskip⟩ := load32_of_holds hlen hlength
  have htag : data.load16 (pos + 8) = .ok 1 := Buffer.Holds.load16 htag
  have hchannels : data.load16 (pos + 10) = .ok layout.channels := hchannels.load16
  have hrate : data.load32 (pos + 12) = .ok layout.sampleRate := hrate.load32
  have hbits : data.load16 (pos + 22) = .ok layout.bits := hbits.load16
  have hload : data.load32 (pos + 4) = .ok length := hload
  simp only [parseFmtChunk, standsAt_of_holds htype, htag, hchannels, hrate, hbits, hload, hskip,
    skipFact_of_holds hrest, bind, Except.bind, if_true, ne_eq, not_true_eq_false, if_false]
  rw [parseDataChunk_of_holds (Buffer.holds_append.mp hrest).2]

/-- **Reading a header** of any layout, at the beginning of a block.

**Proof sketch.** The two types at the beginning are compared, `skipJunk_of_holds` leads to the
`fmt` chunk, and `parseFmtChunk_of_holds` reads the rest. -/
theorem parseWavHeader_of_holds (h : data.Holds 0 layout.bytes)
    (hlen : layout.bytes.length < 2 ^ 32) (info : WavInfo) :
    parseWavHeader data info = .ok (layout.dataLen.toInt32,
      ⟨layout.bytes.length, layout.channels.toUInt32, layout.sampleRate,
        layout.bits.toUInt32⟩) := by
  rw [layout.length_bytes] at hlen ⊢
  simp only [HeaderLayout.bytes, Buffer.holds_append, layout.riffLength.property] at h
  obtain ⟨hriff, -, hwave, hjunk, hfmt, hfact, hdata⟩ := h
  have hriff : standsAt data 0 (chunkType 'R' 'I' 'F' 'F') = .ok true := standsAt_of_holds hriff
  have hwave : standsAt data 8 (chunkType 'W' 'A' 'V' 'E') = .ok true := standsAt_of_holds hwave
  have hskip : skipJunk data 12 = .ok (12 + layout.junkBytes.length) :=
    skipJunk_of_holds (Buffer.holds_append.mpr ⟨hjunk, hfmt⟩) (by omega)
  have hparse := parseFmtChunk_of_holds
    (Buffer.holds_append.mpr ⟨hfmt, Buffer.holds_append.mpr ⟨hfact, hdata⟩⟩) (by omega) info
  simp only [parseWavHeader, hriff, hwave, hskip, bind, Except.bind, if_true]
  exact hparse

end Chunks

/-- **The headers that are read**: in a block as the callers pass it, a header of any of the
layouts gives the length of the data, the position of the data just behind the header, and the
format. The contents of the `JUNK` chunk, of the `fact` chunk and of the end of the `fmt` chunk may
be any bytes, also such as look like other chunks. -/
theorem parse_layout (layout : HeaderLayout) (data : Buffer) (info : WavInfo)
    (hsize : data.size = maxWavHeadSize) (hlen : layout.bytes.length ≤ maxWavHeadSize)
    (hbytes : slice data.byte 0 layout.bytes.length = layout.bytes) :
    parseWavHeader data info = .ok (layout.dataLen.toInt32,
      ⟨layout.bytes.length, layout.channels.toUInt32, layout.sampleRate,
        layout.bits.toUInt32⟩) := by
  have hholds : data.Holds 0 layout.bytes := ⟨by omega, hbytes⟩
  exact parseWavHeader_of_holds hholds (Nat.lt_of_le_of_lt hlen (by decide)) info

/-- A header with all chunks. Their contents look like other chunks. -/
def fullLayout : HeaderLayout where
  riffLength := ⟨[84, 0, 0, 0], rfl⟩
  junk := some (chunkType 'f' 'm' 't' ' ' ++ chunkType 'd' 'a' 't' 'a')
  channels := 2
  sampleRate := 48000
  bytesPerSecond := 288000
  blockAlign := 6
  bits := 24
  extra := chunkType 'd' 'a' 't' 'a'
  fact := some ⟨[4, 0, 0, 0] ++ chunkType 'd' 'a' 't' 'a', rfl⟩
  dataLen := 9

/-- Reading it. -/
theorem parse_layout_full :
    parseWavHeader ⟨maxWavHeadSize, fun i => fullLayout.bytes.getD i 0⟩ ⟨0, 0, 0, 0⟩ =
      .ok (9, ⟨76, 2, 48000, 24⟩) :=
  parse_layout fullLayout _ ⟨0, 0, 0, 0⟩ rfl (by decide) (slice_getD fullLayout.bytes)

/-! ## The header that this tool writes -/

/-- The layout of the header that `init_wav_header` writes. -/
def writtenLayout (dataLen : Int32) (channels sampleRate bits : UInt32) : HeaderLayout where
  riffLength := ⟨littleEndian 4 (dataLen.toUInt32 + 4 + 24 + 8).toNat, length_littleEndian _ _⟩
  junk := none
  channels := channels.toUInt16
  sampleRate := sampleRate
  bytesPerSecond := sampleRate * (blockAlign channels bits).toUInt32
  blockAlign := blockAlign channels bits
  bits := bits.toUInt16
  extra := []
  fact := none
  dataLen := dataLen.toUInt32

/-- The header that is written has this layout. -/
private lemma bytes_writtenLayout (dataLen : Int32) (channels sampleRate bits : UInt32) :
    (writtenLayout dataLen channels sampleRate bits).bytes =
      wavHeader dataLen channels sampleRate bits := rfl

/-- **Reading a header back** gives the length, the position of the data and what was written,
channels and bits as `unsigned short`. -/
theorem parseWavHeader_eq {data : Buffer} {dataLen : Int32} {channels sampleRate bits : UInt32}
    (hsize : wavHeadSize ≤ data.size)
    (hdata : slice data.byte 0 wavHeadSize = wavHeader dataLen channels sampleRate bits)
    (info : WavInfo) :
    parseWavHeader data info = .ok (dataLen,
      ⟨wavHeadSize, channels.toUInt16.toUInt32, sampleRate, bits.toUInt16.toUInt32⟩) := by
  have hholds : data.Holds 0 (writtenLayout dataLen channels sampleRate bits).bytes :=
    ⟨by simpa [bytes_writtenLayout] using hsize, hdata⟩
  exact parseWavHeader_of_holds hholds (show wavHeadSize < 2 ^ 32 by decide) info

/-- `block_align`, in the arithmetic of the fields. -/
private lemma toNat_blockAlign (channels bits : UInt32) :
    (blockAlign channels bits).toNat =
      channels.toNat * bits.toNat % 2 ^ 32 / 8 % 2 ^ 16 := by
  rw [blockAlign, UInt32.toNat_toUInt16, UInt32.toNat_div, UInt32.toNat_mul]
  rfl

/-- An `int` stored as an `unsigned int`. -/
private lemma toNat_toUInt32 (v : Int32) : (v.toUInt32.toNat : ℤ) = v.toInt % 2 ^ 32 := by
  have hbmod : v.toInt = Int.bmod v.toUInt32.toNat (2 ^ 32) := BitVec.toInt_eq_toNat_bmod v.toBitVec
  have hlt : v.toUInt32.toNat < 2 ^ 32 := v.toUInt32.toNat_lt
  calc (v.toUInt32.toNat : ℤ)
      = (v.toUInt32.toNat : ℤ) % 2 ^ 32 := by omega
    _ = Int.bmod v.toUInt32.toNat (2 ^ 32) % (2 ^ 32 : ℕ) := Int.bmod_emod.symm
    _ = v.toInt % 2 ^ 32 := by rw [hbmod]; rfl

/-- The length in the `RIFF` header: the data and what stands before it, less the first 8 bytes. -/
private lemma toNat_riffLength (dataLen : Int32) :
    ((dataLen.toUInt32 + 4 + 24 + 8).toNat : ℤ) = (dataLen.toInt + 36) % 2 ^ 32 := by
  have hadd : (dataLen.toUInt32 + 4 + 24 + 8).toNat = (dataLen.toUInt32.toNat + 36) % 2 ^ 32 := by
    simp only [UInt32.toNat_add, UInt32.reduceToNat]
    omega
  have hlen := toNat_toUInt32 dataLen
  rw [hadd]
  omega

/-- The sizes in a header that this tool has written. -/
private lemma load_of_holds_written {data : Buffer} {dataLen : Int32}
    {channels sampleRate bits : UInt32}
    (h : data.Holds 0 (wavHeader dataLen channels sampleRate bits)) :
    data.load32 4 = .ok (dataLen.toUInt32 + 4 + 24 + 8) ∧
      data.load16 32 = .ok (blockAlign channels bits) ∧
      data.load32 28 = .ok (sampleRate * (blockAlign channels bits).toUInt32) := by
  rw [← bytes_writtenLayout] at h
  simp only [HeaderLayout.bytes, HeaderLayout.fmtBytes, Buffer.holds_append] at h
  obtain ⟨-, hriff, -, -, ⟨-, -, -, -, -, hrate, halign, -⟩, -⟩ := h
  exact ⟨Buffer.Holds.load32 hriff, Buffer.Holds.load16 halign, Buffer.Holds.load32 hrate⟩

/-- **A header that this tool has written** is read as it was written, whatever follows it, with
channels and bits as `unsigned short`; and the sizes in it are those of the format, in the
arithmetic of the fields.

**Proof sketch.** The header that has been written is held at the beginning of the block, so
`parseWavHeader_eq` reads it back, and the sizes in it are loaded from where they were written. -/
theorem parse_init (dataLen : Int32) (channels sampleRate bits : UInt32) (block : Buffer)
    (hblock : block.size = wavHeadSize) (tail : List UInt8) (info : WavInfo) :
    ∃ (head : Buffer) (riffLength bytesPerSecond : UInt32) (align : UInt16) (info' : WavInfo),
      initWavHeader block dataLen channels sampleRate bits = .ok head ∧
      parseWavHeader (Buffer.ofBytes (slice head.byte 0 wavHeadSize ++ tail)) info =
        .ok (dataLen, info') ∧
      info'.headLen = wavHeadSize ∧ info'.sampleRate = sampleRate ∧
      info'.channels.toNat = channels.toNat % 2 ^ 16 ∧
      info'.bits.toNat = bits.toNat % 2 ^ 16 ∧
      head.load32 4 = .ok riffLength ∧ (riffLength.toNat : ℤ) = (dataLen.toInt + 36) % 2 ^ 32 ∧
      head.load16 32 = .ok align ∧
      align.toNat = channels.toNat * bits.toNat % 2 ^ 32 / 8 % 2 ^ 16 ∧
      head.load32 28 = .ok bytesPerSecond ∧
      bytesPerSecond.toNat = sampleRate.toNat * align.toNat % 2 ^ 32 := by
  have hinit := initWavHeader_eq (Nat.le_of_eq hblock.symm) dataLen channels sampleRate bits
  have hholds : (block.overlay 0 (wavHeader dataLen channels sampleRate bits)).Holds 0
      (wavHeader dataLen channels sampleRate bits) :=
    Buffer.holds_overlay (by rw [length_wavHeader, hblock, Nat.zero_add])
  obtain ⟨hriff, halign, hrate⟩ := load_of_holds_written hholds
  have hfile : Buffer.Holds
      (Buffer.ofBytes (wavHeader dataLen channels sampleRate bits ++ tail)) 0
      (wavHeader dataLen channels sampleRate bits) :=
    (Buffer.holds_append.mp (Buffer.holds_ofBytes _)).1
  have hparse := parseWavHeader_eq hfile.1 hfile.2 info
  refine ⟨_, _, _, _,
    ⟨wavHeadSize, channels.toUInt16.toUInt32, sampleRate, bits.toUInt16.toUInt32⟩, hinit, ?_, rfl,
    rfl, ?_, ?_, hriff, toNat_riffLength dataLen, halign, toNat_blockAlign channels bits, hrate, ?_⟩
  · rw [← length_wavHeader dataLen channels sampleRate bits, hholds.2]
    exact hparse
  · simp
  · simp
  · simp

/-- A header with the largest length and rate, and with more channels than its field can hold. -/
theorem parse_init_largest : ∃ head info',
    initWavHeader (Buffer.ofBytes (List.replicate 44 0)) 2147483647 65537 4294967295 24 =
      .ok head ∧
    parseWavHeader (Buffer.ofBytes (slice head.byte 0 wavHeadSize ++ List.replicate 212 7))
      ⟨0, 0, 0, 0⟩ = .ok (2147483647, info') ∧ info'.channels.toNat = 1 := by
  obtain ⟨head, -, -, -, info', hinit, hparse, -, -, hchannels, -⟩ :=
    parse_init 2147483647 65537 4294967295 24 (Buffer.ofBytes (List.replicate 44 0)) rfl
      (List.replicate 212 7) ⟨0, 0, 0, 0⟩
  exact ⟨head, info', hinit, hparse, hchannels⟩

end JzPretest.Sndkit

import JzPretest.Semantics.ByteIO

set_option relaxedAutoImplicit false
set_option autoImplicit false

/-!
# The header of a WAV file

`init_wav_header` writes a header of 44 bytes: the `RIFF` header, the `fmt` chunk and the head of
the `data` chunk. `parse_wav_header` reads such a header, and also one that has a `JUNK` chunk
before the `fmt` chunk or a `fact` chunk after it.

## Main definitions

* `JzPretest.Sndkit.initWavHeader`, `JzPretest.Sndkit.parseWavHeader` — the two functions.
* `JzPretest.Sndkit.wavHeader` — the header as a list of bytes.

## Main results

* `JzPretest.Sndkit.initWavHeader_eq` — the header that is written.
* `JzPretest.Sndkit.headLen_le_of_parseWavHeader` — an accepted header ends inside the block.
-/

namespace JzPretest.Sndkit

/-- The type of a chunk. -/
def chunkType (a b c d : Char) : List UInt8 := [a.toUInt8, b.toUInt8, c.toUInt8, d.toUInt8]

/-- A type has four bytes. -/
@[simp] theorem length_chunkType (a b c d : Char) : (chunkType a b c d).length = 4 := rfl

/-- `WAV_HEAD_SIZE`: the `RIFF` header, the `fmt` chunk and the head of the `data` chunk. -/
def wavHeadSize : ℕ := 3 * 4 + 24 + 2 * 4

/-- `MAX_WAV_HEAD_SIZE`. -/
def maxWavHeadSize : ℕ := 256

/-! ## Writing -/

/-- `block_align` of the `fmt` chunk. -/
def blockAlign (channels bits : UInt32) : UInt16 := (channels * bits / 8).toUInt16

/-- `init_wav_header`. The fields of the `fmt` chunk are stored in their order in memory. -/
def initWavHeader (data : Buffer) (dataLen : Int32) (channels sampleRate bits : UInt32) :
    Except Fault Buffer := do
  -- RIFF header
  let data ← data.storeAll 0 (chunkType 'R' 'I' 'F' 'F')
  let data ← data.storeAll 4 (littleEndian 4 (dataLen.toUInt32 + 4 + 24 + 8).toNat)
  let data ← data.storeAll 8 (chunkType 'W' 'A' 'V' 'E')
  -- fmt chunk
  let data ← data.storeAll 12 (chunkType 'f' 'm' 't' ' ')
  let data ← data.storeAll 16 (littleEndian 4 (24 - 8))
  let data ← data.storeAll 20 (littleEndian 2 1)
  let data ← data.storeAll 22 (littleEndian 2 channels.toUInt16.toNat)
  let data ← data.storeAll 24 (littleEndian 4 sampleRate.toNat)
  let data ← data.storeAll 28
    (littleEndian 4 (sampleRate * (blockAlign channels bits).toUInt32).toNat)
  let data ← data.storeAll 32 (littleEndian 2 (blockAlign channels bits).toNat)
  let data ← data.storeAll 34 (littleEndian 2 bits.toUInt16.toNat)
  -- data chunk
  let data ← data.storeAll 36 (chunkType 'd' 'a' 't' 'a')
  data.storeAll 40 (littleEndian 4 dataLen.toUInt32.toNat)

/-- The header as a list of bytes. -/
def wavHeader (dataLen : Int32) (channels sampleRate bits : UInt32) : List UInt8 :=
  [chunkType 'R' 'I' 'F' 'F', littleEndian 4 (dataLen.toUInt32 + 4 + 24 + 8).toNat,
    chunkType 'W' 'A' 'V' 'E',
    chunkType 'f' 'm' 't' ' ', littleEndian 4 (24 - 8),
    littleEndian 2 1, littleEndian 2 channels.toUInt16.toNat, littleEndian 4 sampleRate.toNat,
    littleEndian 4 (sampleRate * (blockAlign channels bits).toUInt32).toNat,
    littleEndian 2 (blockAlign channels bits).toNat, littleEndian 2 bits.toUInt16.toNat,
    chunkType 'd' 'a' 't' 'a', littleEndian 4 dataLen.toUInt32.toNat].flatten

/-- The header has 44 bytes. -/
@[simp] theorem length_wavHeader (dataLen : Int32) (channels sampleRate bits : UInt32) :
    (wavHeader dataLen channels sampleRate bits).length = wavHeadSize := rfl

/-- **The header that is written**, into a block with room for it. -/
theorem initWavHeader_eq {data : Buffer} (h : wavHeadSize ≤ data.size) (dataLen : Int32)
    (channels sampleRate bits : UInt32) :
    initWavHeader data dataLen channels sampleRate bits =
      .ok (data.overlay 0 (wavHeader dataLen channels sampleRate bits)) := by
  rw [← Buffer.storeAll_eq (by rw [length_wavHeader]; omega)]
  simp only [wavHeader, List.flatten_cons, List.flatten_nil, List.append_nil,
    Buffer.storeAll_append]
  rfl

/-! ## Reading -/

/-- What `parse_wav_header` stores for its caller. -/
structure WavInfo where
  headLen : ℕ
  channels : UInt32
  sampleRate : UInt32
  bits : UInt32
  deriving DecidableEq, Repr

/-- Whether these bytes stand at `pos`; they are compared up to the first that differs. -/
def standsAt (data : Buffer) : ℕ → List UInt8 → Except Fault Bool
  | _, [] => return true
  | pos, b :: bs => do
    let v ← data.load pos
    if v = b then standsAt data (pos + 1) bs else return false

/-- Skipping a `JUNK` chunk. The offset is an `unsigned int`; a pointer outside the block is kept,
and reading through it is a fault. -/
def skipJunk (data : Buffer) (pos : ℕ) : Except Fault ℕ := do
  if ← standsAt data pos (chunkType 'J' 'U' 'N' 'K') then do
    let junkLen ← data.load32 (pos + 4)
    return pos + (junkLen + 8).toNat
  else return pos

/-- Skipping a `fact` chunk. -/
def skipFact (data : Buffer) (pos : ℕ) : Except Fault ℕ := do
  if ← standsAt data pos (chunkType 'f' 'a' 'c' 't') then return pos + 12 else return pos

/-- The end of `parse_wav_header`, from the `data` chunk on. -/
def parseDataChunk (data : Buffer) (pos : ℕ) (info : WavInfo) : Except Fault (Int32 × WavInfo) := do
  if ← standsAt data pos (chunkType 'd' 'a' 't' 'a') then do
    let dataLen ← data.load32 (pos + 4)
    return (dataLen.toInt32, { info with headLen := pos + 8 })
  else return (0, info)

/-- The part of `parse_wav_header` from the `fmt` chunk on. -/
def parseFmtChunk (data : Buffer) (pos : ℕ) (info : WavInfo) : Except Fault (Int32 × WavInfo) := do
  if ← standsAt data pos (chunkType 'f' 'm' 't' ' ') then do
    let fmtTag ← data.load16 (pos + 8)
    if fmtTag ≠ 1 then return (0, info)
    else do
      let channels ← data.load16 (pos + 10)
      let sampleRate ← data.load32 (pos + 12)
      let bits ← data.load16 (pos + 22)
      let length ← data.load32 (pos + 4)
      let pos ← skipFact data (pos + (length + 8).toNat)
      parseDataChunk data pos { info with
        channels := channels.toUInt32, sampleRate := sampleRate, bits := bits.toUInt32 }
  else return (0, info)

/-- `parse_wav_header`: the length of the data, `0` when the header is not accepted, and what the
caller's variables hold then. -/
def parseWavHeader (data : Buffer) (info : WavInfo) : Except Fault (Int32 × WavInfo) := do
  if ← standsAt data 0 (chunkType 'R' 'I' 'F' 'F') then do
    if ← standsAt data 8 (chunkType 'W' 'A' 'V' 'E') then do
      let pos ← skipJunk data 12
      parseFmtChunk data pos info
    else return (0, info)
  else return (0, info)

/-- Comparing inside the block. -/
theorem standsAt_eq {data : Buffer} {pos : ℕ} {bytes : List UInt8}
    (h : pos + bytes.length ≤ data.size) :
    standsAt data pos bytes = .ok (decide (slice data.byte pos bytes.length = bytes)) := by
  induction bytes generalizing pos with
  | nil => rfl
  | cons b bs ih =>
    rw [List.length_cons] at h
    rw [standsAt, Buffer.load_eq (Int.natCast_nonneg pos) (by omega), List.length_cons, slice_succ]
    change (if data.byte pos = b then _ else _) = _
    by_cases hb : data.byte pos = b
    · rw [if_pos hb, ih (by omega), hb]
      simp only [List.cons.injEq, true_and]
    · rw [if_neg hb]
      simp [hb, pure, Except.pure]

/-! ## Accepted headers -/

/-- Where a `data` chunk is found, its head ends in the block. -/
private lemma headLen_le_of_parseDataChunk {data : Buffer} {pos : ℕ} {info info' : WavInfo}
    {dataLen : Int32} (h : parseDataChunk data pos info = .ok (dataLen, info'))
    (hlen : dataLen ≠ 0) : info'.headLen ≤ data.size := by
  rw [parseDataChunk] at h
  obtain ⟨found, -, h⟩ := bind_eq_ok.mp h
  cases found with
  | false =>
    obtain ⟨rfl, -⟩ := Prod.mk.inj (Except.ok.inj h)
    exact absurd rfl hlen
  | true =>
    obtain ⟨len, hload, h⟩ := bind_eq_ok.mp h
    obtain ⟨-, rfl⟩ := Prod.mk.inj (Except.ok.inj h)
    obtain ⟨bytes, hbytes, -⟩ := bind_eq_ok.mp hload
    have hle := Buffer.le_size_of_loadAll (by decide) hbytes
    exact hle

/-- The same behind a `fmt ` chunk.

**Proof sketch.** Whatever is skipped, a data length other than zero comes from the `data` chunk
(`headLen_le_of_parseDataChunk`); the other ways out return zero. -/
private lemma headLen_le_of_parseFmtChunk {data : Buffer} {pos : ℕ} {info info' : WavInfo}
    {dataLen : Int32} (h : parseFmtChunk data pos info = .ok (dataLen, info'))
    (hlen : dataLen ≠ 0) : info'.headLen ≤ data.size := by
  rw [parseFmtChunk] at h
  obtain ⟨found, -, h⟩ := bind_eq_ok.mp h
  cases found with
  | false =>
    obtain ⟨rfl, -⟩ := Prod.mk.inj (Except.ok.inj h)
    exact absurd rfl hlen
  | true =>
    obtain ⟨fmtTag, -, h⟩ := bind_eq_ok.mp h
    split_ifs at h with htag
    · obtain ⟨rfl, -⟩ := Prod.mk.inj (Except.ok.inj h)
      exact absurd rfl hlen
    · obtain ⟨channels, -, h⟩ := bind_eq_ok.mp h
      obtain ⟨sampleRate, -, h⟩ := bind_eq_ok.mp h
      obtain ⟨bits, -, h⟩ := bind_eq_ok.mp h
      obtain ⟨length, -, h⟩ := bind_eq_ok.mp h
      obtain ⟨pos', -, h⟩ := bind_eq_ok.mp h
      exact headLen_le_of_parseDataChunk h hlen

/-- **An accepted header** ends inside the block that was parsed.

**Proof sketch.** Along the checks of the parser: a header that is not accepted has the length 0,
and otherwise the end of the header is that of `headLen_le_of_parseFmtChunk`. -/
theorem headLen_le_of_parseWavHeader {data : Buffer} {info info' : WavInfo} {dataLen : Int32}
    (h : parseWavHeader data info = .ok (dataLen, info')) (hlen : dataLen ≠ 0) :
    info'.headLen ≤ data.size := by
  rw [parseWavHeader] at h
  obtain ⟨riff, -, h⟩ := bind_eq_ok.mp h
  cases riff with
  | false =>
    obtain ⟨rfl, -⟩ := Prod.mk.inj (Except.ok.inj h)
    exact absurd rfl hlen
  | true =>
    obtain ⟨wave, -, h⟩ := bind_eq_ok.mp h
    cases wave with
    | false =>
      obtain ⟨rfl, -⟩ := Prod.mk.inj (Except.ok.inj h)
      exact absurd rfl hlen
    | true =>
      obtain ⟨pos, -, h⟩ := bind_eq_ok.mp h
      exact headLen_le_of_parseFmtChunk h hlen

end JzPretest.Sndkit

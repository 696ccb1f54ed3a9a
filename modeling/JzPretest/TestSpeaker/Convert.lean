import JzPretest.TestSpeaker.HeaderLayout
import JzPretest.TestSpeaker.PlayCopy
import JzPretest.TestSpeaker.Record
import Mathlib.Algebra.Group.Nat.Defs

set_option relaxedAutoImplicit false
set_option autoImplicit false

/-!
# Converting between raw files and WAV files

`makewav` puts a header in front of the bytes of a raw file, and `strip_wav` copies the data of a
WAV file to a raw file. Both copy with the loop of `copyPass`, in blocks of 4096 bytes.

## Main definitions

* `JzPretest.Sndkit.makewav`, `JzPretest.Sndkit.stripWav` — the two functions.

## Main results

* `JzPretest.Sndkit.stripWav_makewav` — a raw file that is converted to WAV and back is the same.
* `JzPretest.Sndkit.data_chunk_iff` — of a WAV file, only the data are copied exactly when a read
  ends at the end of the data.
-/

namespace JzPretest.Sndkit

/-- `FILE_BLOCK_LEN`. -/
def fileBlockLen : ℕ := 4096

/-- One pass of the loop of `makewav`. -/
def makewavPass (s : Copying) : Prog Fault (Pass Copying (Int32 × Source × Sink)) :=
  copyPass fileBlockLen false (-1) s

/-- One pass of the loop of `strip_wav`, which ends with `0` also when the file cannot be read. -/
def stripWavPass (s : Copying) : Prog Fault (Pass Copying (Int32 × Source × Sink)) :=
  copyPass fileBlockLen false 0 s

/-- `makewav`, on the raw file and the WAV file that it has opened: the returned value and the two
files. `stack` are the bytes of the header before it is written. -/
def makewav (malloc : ℕ → Option (ℕ → UInt8)) (stack : ℕ → UInt8)
    (channels speed format : Int32) (raw : Source) (wav : Sink) :
    Prog Fault (Int32 × Source × Sink) :=
  match raw.size with
  | none => return (-1, raw, wav)
  | some size => do
    let fileLen := Int32.ofNat size
    let wavHead ← initWavHeader ⟨wavHeadSize, stack⟩ fileLen channels.toUInt32 speed.toUInt32
      (formatBits format).toUInt32
    let (ok, wav) ← writeAll wavHead wavHeadSize wav
    if ok then
      match malloc fileBlockLen with
      | none => return (-1, raw, wav)
      | some byte => Prog.loop makewavPass ⟨fileLen.toInt, ⟨fileBlockLen, byte⟩, raw, wav⟩
    else return (-1, raw, wav)

/-- `strip_wav`, on the WAV file and the raw file that it has opened: the returned value and the
two files. `info` are its variables before they are set. -/
def stripWav (malloc : ℕ → Option (ℕ → UInt8)) (info : WavInfo) (wav : Source) (raw : Sink) :
    Prog Fault (Int32 × Source × Sink) :=
  match malloc fileBlockLen with
  | none => return (-1, wav, raw)
  | some byte =>
    match wav.read maxWavHeadSize with
    | (none, wav) => return (-1, wav, raw)
    | (some bytes, wav) => do
      let buff ← Buffer.storeAll ⟨fileBlockLen, byte⟩ 0 bytes
      if bytes.length ≠ maxWavHeadSize then return (-1, wav, raw)
      else do
        let (wavDataLen, info) ← parseWavHeader buff info
        if wavDataLen = 0 then return (-1, wav, raw)
        else Prog.loop stripWavPass ⟨wavDataLen.toInt, buff, wav.seek info.headLen, raw⟩

/-! ## Stripping -/

/-- The WAV file after its header has been read. -/
def atData (wav : Source) (headLen : ℕ) : Source := (wav.advance maxWavHeadSize).seek headLen

/-- The block of `strip_wav` with the first bytes of the file. -/
def headBlock (byte : ℕ → UInt8) (wav : Source) : Buffer :=
  Buffer.overlay ⟨fileBlockLen, byte⟩ 0 (slice wav.content 0 maxWavHeadSize)

/-- **What `strip_wav` does**: when the header is read in full and accepted, the blocks from the
data on are copied up to their length.

**Proof sketch.** The first read delivers the whole head, which is stored in the block and parsed;
then the loop that copies runs from the data on (`ends_copy_cover`). -/
theorem ends_stripWav (malloc : ℕ → Option (ℕ → UInt8)) (wav : Source) (raw : Sink)
    {byte : ℕ → UInt8} {info info' : WavInfo} {size : ℕ} {dataLen : Int32}
    (hmalloc : malloc fileBlockLen = some byte) (hpos : wav.pos = 0)
    (hsize : wav.size = some size) (hmax : maxWavHeadSize ≤ size)
    (hfull : wav.schedule.answer wav.calls maxWavHeadSize = some maxWavHeadSize)
    (hparse : parseWavHeader (headBlock byte wav) info = .ok (dataLen, info'))
    (hlen : dataLen ≠ 0) (hread : wav.schedule.Productive) (hread' : wav.schedule.Reliable)
    (hwrite : raw.schedule.Productive) (hwrite' : raw.schedule.Reliable) :
    (stripWav malloc info wav raw).Ends (Copies (raw.written ++ (cover dataLen.toInt.toNat
      ((atData wav info'.headLen).blocks fileBlockLen dataLen.toInt.toNat)).flatten)) := by
  have hr : wav.read maxWavHeadSize =
      (some (slice wav.content 0 maxWavHeadSize), wav.advance maxWavHeadSize) := by
    have h := Source.read_full hfull hsize (by rw [hpos, Nat.zero_add]; exact hmax)
    rw [hpos] at h
    exact h
  have hstore : Buffer.storeAll ⟨fileBlockLen, byte⟩ 0 (slice wav.content 0 maxWavHeadSize) =
      .ok (headBlock byte wav) := by
    apply Buffer.storeAll_eq
    rw [length_slice]
    exact Nat.le_trans (by decide) (show 4096 ≤ fileBlockLen from le_refl _)
  rw [stripWav, hmalloc]
  dsimp only
  rw [hr]
  dsimp only
  rw [Prog.ends_bind, Prog.ends_liftM, hstore, Prog.andThen_ok, length_slice,
    if_neg (by simp), Prog.ends_bind, Prog.ends_liftM, hparse, Prog.andThen_ok]
  dsimp only
  rw [if_neg hlen]
  exact ends_copy_cover 0 _ _ (atData wav info'.headLen) raw (by decide)
    (show fileBlockLen ≤ fileBlockLen from le_refl _) hread hread' hwrite hwrite'

/-! ## There and back -/

/-- **What `makewav` does** to a raw file whose length is an `int`: it writes the header, and then
the bytes.

**Proof sketch.** The header is filled in and written; then the loop that copies runs over the file,
of which the blocks cover everything. -/
theorem ends_makewav {malloc : ℕ → Option (ℕ → UInt8)} {byte stack : ℕ → UInt8}
    {channels speed format : Int32} {bytes : List UInt8} {rd : Schedule} {wav : Sink}
    (hmalloc : malloc fileBlockLen = some byte) (hn : bytes.length ≤ 2 ^ 31 - 1)
    (hread : rd.Productive) (hread' : rd.Reliable) (hwrite : wav.schedule.Productive)
    (hwrite' : wav.schedule.Reliable) :
    (makewav malloc stack channels speed format (Source.ofFile bytes rd) wav).Ends
      (Copies (wav.written ++ wavHeader (Int32.ofNat bytes.length) channels.toUInt32
        speed.toUInt32 (formatBits format).toUInt32 ++ bytes)) := by
  have hfill := Buffer.slice_overlay ⟨wavHeadSize, stack⟩ 0 (wavHeader (Int32.ofNat bytes.length)
    channels.toUInt32 speed.toUInt32 (formatBits format).toUInt32)
  rw [length_wavHeader] at hfill
  rw [makewav]
  dsimp only [Source.ofFile]
  rw [Prog.ends_bind, Prog.ends_liftM, initWavHeader_eq (le_refl _), Prog.andThen_ok,
    Prog.ends_bind]
  apply (ends_writeAll _ wavHeadSize wav (le_refl _) hwrite).imp
  rintro _ ⟨ok, wav', rfl, hw⟩
  rw [hfill] at hw
  rw [Prog.andThen_ok]
  cases ok with
  | false => exact absurd hwrite' (hw.failed rfl).2
  | true =>
    have hlen : (Int32.ofNat bytes.length).toInt.toNat = bytes.length := by
      rw [Int32.toInt_ofNat_of_lt (by omega)]
      exact Int.toNat_natCast _
    have hcopy := ends_copy_cover (q := fileBlockLen) (-1) (Int32.ofNat bytes.length).toInt
      ⟨fileBlockLen, byte⟩ (Source.ofFile bytes rd) wav' (by decide) (le_refl _) hread hread'
      (hw.schedule ▸ hwrite) (hw.schedule ▸ hwrite')
    have hbytes : (cover bytes.length ((Source.ofFile bytes rd).blocks fileBlockLen
        bytes.length)).flatten = bytes := by
      rw [flatten_cover_blocks (n := bytes.length) _ _ (by decide) hread hread'
        (Nat.zero_add _ ▸ rfl) (le_refl _)]
      exact slice_getD bytes
    rw [hlen, hbytes, (hw.all rfl).1] at hcopy
    simp only [if_true, hmalloc]
    exact hcopy

/-- The header of a file, in a block with the first bytes of the file.

**Proof sketch.** The first 256 bytes of the block are those of the file, and the header is a
beginning of them. -/
theorem slice_overlay_ofFile {data : Buffer} {head bytes : List UInt8} {rd : Schedule} {n : ℕ}
    (hn : n ≤ maxWavHeadSize) (hhead : head.length = n)
    (hbytes : maxWavHeadSize ≤ (head ++ bytes).length) :
    slice (data.overlay 0
      (slice (Source.ofFile (head ++ bytes) rd).content 0 maxWavHeadSize)).byte 0 n = head := by
  have hfill := Buffer.slice_overlay data 0
    (slice (Source.ofFile (head ++ bytes) rd).content 0 maxWavHeadSize)
  rw [length_slice] at hfill
  calc slice (data.overlay 0
        (slice (Source.ofFile (head ++ bytes) rd).content 0 maxWavHeadSize)).byte 0 n
      = (slice (data.overlay 0 (slice (Source.ofFile (head ++ bytes) rd).content 0
          maxWavHeadSize)).byte 0 maxWavHeadSize).take n := (take_slice _ _ hn).symm
    _ = (slice (Source.ofFile (head ++ bytes) rd).content 0 maxWavHeadSize).take n := by
        rw [hfill]
    _ = slice (Source.ofFile (head ++ bytes) rd).content 0 n := take_slice _ _ hn
    _ = (slice (Source.ofFile (head ++ bytes) rd).content 0 (head ++ bytes).length).take n :=
        (take_slice _ _ (hn.trans hbytes)).symm
    _ = head := by
        rw [Source.slice_ofFile, ← hhead, List.take_left]

/-- **What `strip_wav` does** to a file that consists of a header and the bytes that it announces:
it writes the bytes.

**Proof sketch.** `ends_stripWav` for the header that `parseWavHeader_eq` reads: the bytes begin
behind it, and their number is the one that it announces. -/
theorem ends_stripWav_wavHeader {malloc : ℕ → Option (ℕ → UInt8)} {byte : ℕ → UInt8}
    {info : WavInfo} {dataLen : Int32} {channels sampleRate bits : UInt32} {bytes : List UInt8}
    {rd : Schedule} {raw : Sink} (hmalloc : malloc fileBlockLen = some byte)
    (hlen : dataLen.toInt = bytes.length) (hmin : 212 ≤ bytes.length)
    (hread : rd.Productive) (hread' : rd.Reliable) (hwrite : raw.schedule.Productive)
    (hwrite' : raw.schedule.Reliable)
    (hfull : rd.answer 0 maxWavHeadSize = some maxWavHeadSize) :
    (stripWav malloc info
      (Source.ofFile (wavHeader dataLen channels sampleRate bits ++ bytes) rd) raw).Ends
      (Copies (raw.written ++ bytes)) := by
  have hfile : (wavHeader dataLen channels sampleRate bits ++ bytes).length =
      wavHeadSize + bytes.length := by
    rw [List.length_append, length_wavHeader]
  have hmax : maxWavHeadSize ≤ (wavHeader dataLen channels sampleRate bits ++ bytes).length := by
    rw [hfile]
    change 256 ≤ 44 + bytes.length
    omega
  have hparse : parseWavHeader (headBlock byte (Source.ofFile
      (wavHeader dataLen channels sampleRate bits ++ bytes) rd)) info = _ :=
    parseWavHeader_eq (by decide : wavHeadSize ≤ 4096) (slice_overlay_ofFile (by decide)
      (length_wavHeader _ _ _ _) hmax) info
  have hne : dataLen ≠ 0 := by
    rintro rfl
    rw [Int32.toInt_zero] at hlen
    omega
  have hdata : slice (Source.ofFile (wavHeader dataLen channels sampleRate bits ++ bytes)
      rd).content wavHeadSize bytes.length = bytes := by
    have h := Source.slice_ofFile (wavHeader dataLen channels sampleRate bits ++ bytes) rd
    rw [hfile, slice_add, Nat.zero_add] at h
    exact (List.append_inj h (by rw [length_slice, length_wavHeader])).2
  have hcover := flatten_cover_blocks (q := fileBlockLen) (n := bytes.length) dataLen.toInt.toNat
    (atData (Source.ofFile (wavHeader dataLen channels sampleRate bits ++ bytes) rd) wavHeadSize)
    (by decide) hread hread' (congrArg some hfile) (by omega)
  have hstrip := ends_stripWav malloc _ raw hmalloc rfl rfl hmax hfull hparse hne hread hread'
    hwrite hwrite'
  rw [hcover] at hstrip
  change (stripWav _ _ _ _).Ends (Copies (raw.written ++ slice (Source.ofFile
    (wavHeader dataLen channels sampleRate bits ++ bytes) rd).content wavHeadSize bytes.length))
    at hstrip
  rwa [hdata] at hstrip

/-- **There and back**: a raw file of at least 212 bytes that is converted to WAV and stripped again
is the same byte for byte, however the files are read and written.

**Proof sketch.** The header that `makewav` writes is read back by `strip_wav`
(`parseWavHeader_eq`), with the position of the data just after it. Neither loop reads past the
end of the bytes, since the file ends there. -/
theorem stripWav_makewav (malloc malloc' : ℕ → Option (ℕ → UInt8)) (byte byte' stack : ℕ → UInt8)
    (info : WavInfo) (bytes : List UInt8) (channels speed format : Int32)
    (rd wr rd' wr' : Schedule) (hmalloc : malloc fileBlockLen = some byte)
    (hmalloc' : malloc' fileBlockLen = some byte')
    (hmin : 212 ≤ bytes.length) (hmax : bytes.length ≤ 2 ^ 31 - 1)
    (hrd : rd.Productive) (hrdRel : rd.Reliable) (hwr : wr.Productive) (hwrRel : wr.Reliable)
    (hrd' : rd'.Productive) (hrdRel' : rd'.Reliable) (hwr' : wr'.Productive)
    (hwrRel' : wr'.Reliable) (hfull : rd'.answer 0 maxWavHeadSize = some maxWavHeadSize) :
    (makewav malloc stack channels speed format (Source.ofFile bytes rd) (Sink.fresh wr)).Ends
      fun x => ∃ raw' wav', x = .ok (0, raw', wav') ∧
        (stripWav malloc' info (Source.ofFile wav'.written rd') (Sink.fresh wr')).Ends
          fun y => ∃ wav'' raw'', y = .ok (0, wav'', raw'') ∧ raw''.written = bytes := by
  apply (ends_makewav hmalloc hmax hrd hrdRel hwr hwrRel).imp
  rintro _ ⟨raw', wav', rfl, hw⟩
  rw [Sink.fresh_written, List.nil_append] at hw
  refine ⟨raw', wav', rfl, ?_⟩
  rw [hw]
  exact ends_stripWav_wavHeader hmalloc' (Int32.toInt_ofNat_of_lt (by omega)) hmin hrd' hrdRel' hwr'
    hwrRel' hfull

/-- The schedule that reads the first `256` bytes in full, and then at most `k` at a time. -/
def headThenAtMost (k : ℕ) : Schedule where
  answer i q := some (if i = 0 then q else min k q)
  le i q n h := by
    obtain rfl : (if i = 0 then q else min k q) = n := Option.some.inj h
    split_ifs
    · exact le_refl q
    · exact Nat.min_le_right k q

/-- It makes progress if `k` is positive. -/
theorem headThenAtMost_productive {k : ℕ} (hk : 0 < k) : (headThenAtMost k).Productive := by
  intro i q n hq h
  obtain rfl : (if i = 0 then q else min k q) = n := Option.some.inj h
  split_ifs <;> omega

/-- It never fails. -/
theorem headThenAtMost_reliable (k : ℕ) : (headThenAtMost k).Reliable :=
  fun _ _ => by simp [headThenAtMost]

/-- Five thousand bytes, there and back. -/
theorem stripWav_makewav_sevens :
    (makewav (fun _ => some fun _ => 0) (fun _ => 0) 2 44100 fmt16Bits
      (Source.ofFile (List.replicate 5000 7) (Schedule.atMost 100))
      (Sink.fresh (Schedule.atMost 30))).Ends
      fun x => ∃ raw' wav', x = .ok (0, raw', wav') ∧
        (stripWav (fun _ => some fun _ => 1) ⟨0, 0, 0, 0⟩
          (Source.ofFile wav'.written (headThenAtMost 11)) (Sink.fresh (Schedule.atMost 3))).Ends
          fun y => ∃ wav'' raw'', y = .ok (0, wav'', raw'') ∧
            raw''.written = List.replicate 5000 7 :=
  stripWav_makewav (fun _ => some fun _ => 0) (fun _ => some fun _ => 1) (fun _ => 0) (fun _ => 1)
    (fun _ => 0) ⟨0, 0, 0, 0⟩ (List.replicate 5000 7) 2 44100 fmt16Bits (Schedule.atMost 100)
    (Schedule.atMost 30) (headThenAtMost 11) (Schedule.atMost 3) rfl rfl
    (by rw [List.length_replicate]; decide)
    (by rw [List.length_replicate]; decide) (Schedule.atMost_productive (by decide))
    (Schedule.atMost_reliable 100) (Schedule.atMost_productive (by decide))
    (Schedule.atMost_reliable 30) (headThenAtMost_productive (by decide))
    (headThenAtMost_reliable 11) (Schedule.atMost_productive (by decide))
    (Schedule.atMost_reliable 3) rfl

/-! ## Bytes after the data -/

/-- **Only the data**: of a WAV file whose header is accepted, with any bytes after the data,
`strip_wav` and `play` copy exactly the data if and only if one of their reads ends where the
data end.

**Proof sketch.** Both copy the blocks that cover the length of the data, the last one as a whole
(`ends_stripWav`, `ends_play_cover`). -/
theorem data_chunk_iff (malloc malloc' : ℕ → Option (ℕ → UInt8)) (byte byte' : ℕ → UInt8)
    (info info' : WavInfo) (wav replay : Source) (raw dev : Sink) (size n : ℕ) (dataLen : Int32)
    (params : ReplayParams)
    -- a WAV file with `n` bytes of data
    (hpos : wav.pos = 0) (hsize : wav.size = some size) (hmax : maxWavHeadSize ≤ size)
    (hparse : parseWavHeader (headBlock byte wav) info = .ok (dataLen, info'))
    (hn : dataLen.toInt = n) (hn0 : 0 < n)
    -- `strip_wav`
    (hmalloc : malloc fileBlockLen = some byte)
    (hfull : wav.schedule.answer wav.calls maxWavHeadSize = some maxWavHeadSize)
    (hread : wav.schedule.Productive) (hread' : wav.schedule.Reliable)
    (hwrite : raw.schedule.Productive) (hwrite' : raw.schedule.Reliable)
    -- `play`, on the same file at the position of the data
    (hmalloc' : malloc' (allocSize params) = some byte')
    (hfmt : params.format = fmt8Bits ∨ params.format = fmt16Bits) (hb : 1 ≤ params.bufferSize)
    (hlen : params.replayDataLen = n) (hcontent : replay.content = wav.content)
    (hdata : replay.pos = info'.headLen)
    (hplay : replay.schedule.Productive) (hplay' : replay.schedule.Reliable)
    (hdev : dev.schedule.Productive) (hdev' : dev.schedule.Reliable) :
    ((stripWav malloc info wav raw).Ends
        (Copies (raw.written ++ slice wav.content info'.headLen n)) ↔
      ∃ m, (((atData wav info'.headLen).blocks fileBlockLen n).take m).flatten.length = n) ∧
    ((play malloc' params replay dev).Ends
        (Copies (dev.written ++ slice wav.content info'.headLen n)) ↔
      ∃ m, ((replay.blocks params.bufferSize n).take m).flatten.length = n) := by
  constructor
  · have hne : dataLen ≠ 0 := by
      rintro rfl
      rw [Int32.toInt_zero] at hn
      omega
    have hstrip := ends_stripWav malloc wav raw hmalloc hpos hsize hmax hfull hparse hne hread
      hread' hwrite hwrite'
    rw [hn, Int.toNat_natCast] at hstrip
    exact ends_copies_slice_iff hstrip
  · have hne : params.format ≠ fmt24Bits := by
      rcases hfmt with h | h <;> rw [h] <;> decide
    have hends := ends_play_cover params replay dev hmalloc' (Or.inr hne) hb (by omega) hplay
      hplay' hdev hdev'
    rw [hlen, Int.toNat_natCast] at hends
    rw [← hcontent, ← hdata]
    exact ends_copies_slice_iff hends

/-- A WAV file with 212 bytes of data and 8 bytes after them, which is read at most `k` bytes at a
time after its header. -/
def withTrailer (k : ℕ) : Source :=
  Source.ofFile (wavHeader 212 1 8000 8 ++ (List.replicate 212 7 ++ List.replicate 8 9))
    (headThenAtMost k)

/-- What `parse_wav_header` finds in it. -/
def trailerInfo : WavInfo := ⟨44, 1, 8000, 8⟩

/-- The file has 264 bytes. -/
lemma withTrailer_size (k : ℕ) : (withTrailer k).size = some 264 := by
  simp only [withTrailer, Source.ofFile, List.length_append, List.length_replicate,
    length_wavHeader]
  rfl

/-- Its header is read off the first block. -/
lemma parseWavHeader_withTrailer (k : ℕ) (info : WavInfo) :
    parseWavHeader (headBlock (fun _ => 0) (withTrailer k)) info = .ok (212, trailerInfo) :=
  parseWavHeader_eq (by decide : wavHeadSize ≤ 4096)
    (slice_overlay_ofFile (by decide) (length_wavHeader _ _ _ _)
      (Option.some.inj (withTrailer_size k) ▸ by decide)) info

/-- A file with a trailer, for both programs. -/
theorem data_chunk_iff_withTrailer :
    ((stripWav (fun _ => some fun _ => 0) ⟨0, 0, 0, 0⟩ (withTrailer 53)
        (Sink.fresh (Schedule.atMost 5))).Ends
        (Copies ((Sink.fresh (Schedule.atMost 5)).written ++
          slice (withTrailer 53).content 44 212)) ↔
      ∃ m, (((atData (withTrailer 53) 44).blocks fileBlockLen 212).take m).flatten.length = 212) ∧
    ((play (fun _ => some fun _ => 0) ⟨16, 212, fmt8Bits, .wav⟩ ((withTrailer 53).seek 44)
        (loudspeaker 3)).Ends
        (Copies ((loudspeaker 3).written ++ slice (withTrailer 53).content 44 212)) ↔
      ∃ m, ((((withTrailer 53).seek 44).blocks 16 212).take m).flatten.length = 212) :=
  data_chunk_iff (fun _ => some fun _ => 0) (fun _ => some fun _ => 0) (fun _ => 0) (fun _ => 0)
    ⟨0, 0, 0, 0⟩ trailerInfo (withTrailer 53) ((withTrailer 53).seek 44)
    (Sink.fresh (Schedule.atMost 5)) (loudspeaker 3) 264 212 212 ⟨16, 212, fmt8Bits, .wav⟩ rfl
    (withTrailer_size 53) (by decide) (parseWavHeader_withTrailer 53 _) (by decide) (by decide)
    rfl rfl
    (headThenAtMost_productive (by decide)) (headThenAtMost_reliable 53)
    (Schedule.atMost_productive (by decide)) (Schedule.atMost_reliable 5) rfl (Or.inl rfl)
    (by decide) rfl rfl rfl (headThenAtMost_productive (by decide)) (headThenAtMost_reliable 53)
    (Schedule.atMost_productive (by decide)) (Schedule.atMost_reliable 3)

/-- Read in full, the 8 bytes after the data are copied with them.

**Proof sketch.** The file is read in one block of 220 bytes, so no beginning of the blocks is as
long as the 212 bytes of data. -/
theorem stripWav_copies_trailer :
    (withTrailer 4096).pos = 0 ∧ (withTrailer 4096).size = some 264 ∧
      (withTrailer 4096).schedule.Productive ∧ (withTrailer 4096).schedule.Reliable ∧
      parseWavHeader (headBlock (fun _ => 0) (withTrailer 4096)) ⟨0, 0, 0, 0⟩ =
        .ok (212, trailerInfo) ∧
      ¬ (stripWav (fun _ => some fun _ => 0) ⟨0, 0, 0, 0⟩ (withTrailer 4096)
        (Sink.fresh (Schedule.atMost 4096))).Ends
        (Copies (slice (withTrailer 4096).content trailerInfo.headLen 212)) := by
  have hparse := parseWavHeader_withTrailer 4096 ⟨0, 0, 0, 0⟩
  have hread : (withTrailer 4096).schedule.Productive := headThenAtMost_productive (by decide)
  refine ⟨rfl, withTrailer_size 4096, hread, headThenAtMost_reliable 4096, hparse, fun h => ?_⟩
  have hstrip := ends_stripWav (fun _ => some fun _ => 0) (withTrailer 4096)
    (Sink.fresh (Schedule.atMost 4096)) rfl rfl (withTrailer_size 4096) (by decide) rfl hparse
    (by decide) hread (headThenAtMost_reliable 4096)
    (Schedule.atMost_productive (by decide)) (Schedule.atMost_reliable 4096)
  obtain ⟨m, hm⟩ := (ends_copies_slice_iff hstrip).mp h
  -- the first read delivers all 220 bytes that are left
  have hr : (atData (withTrailer 4096) trailerInfo.headLen).read fileBlockLen =
      (some (slice (withTrailer 4096).content 44 220),
        (atData (withTrailer 4096) trailerInfo.headLen).advance 220) := by
    have havail : (atData (withTrailer 4096) trailerInfo.headLen).available 4096 = 220 := by
      rw [Source.available, show (atData (withTrailer 4096) trailerInfo.headLen).size = some 264
        from withTrailer_size 4096]
      rfl
    rw [← havail]
    rfl
  have hne : slice (withTrailer 4096).content 44 220 ≠ [] := by
    apply List.ne_nil_of_length_pos
    rw [length_slice]
    decide
  change ((Source.blocks fileBlockLen (211 + 1) _).take m).flatten.length = 212 at hm
  rw [Source.blocks_succ hr hne] at hm
  cases m with
  | zero => simp at hm
  | succ m =>
    rw [List.take_succ_cons, List.flatten_cons, List.length_append, length_slice] at hm
    omega

end JzPretest.Sndkit

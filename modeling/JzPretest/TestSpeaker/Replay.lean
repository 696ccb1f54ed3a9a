import JzPretest.TestSpeaker.Convert

set_option relaxedAutoImplicit false
set_option autoImplicit false

/-!
# Playing a WAV file

`main` reads the first 256 bytes of the sound, parses the header, moves back to where the data
begin and starts `play`. When no file is given the sound comes from standard input, where `lseek`
fails if it is a pipe; the result of `lseek` is not looked at.

## Main definitions

* `JzPretest.Sndkit.mainReplay` — `main`, when it only replays.

## Main results

* `JzPretest.Sndkit.ends_mainReplay` — what is played from a file, and what from a pipe.
* `JzPretest.Sndkit.file_eq_pipe_iff` — when they are the same.
-/

namespace JzPretest.Sndkit

/-- What `main` has set from its options, as far as replaying depends on it. -/
structure Options where
  fileType : FileType
  channels : Int32
  channelsUser : Bool
  format : Int32
  formatUser : Bool
  speed : Int32
  speedUser : Bool
  bufferSize : ℕ

/-- The `switch` on the bits of the header. -/
def headerFormat (sndFmt : UInt32) (format : Int32) : Int32 :=
  if sndFmt = 8 then fmt8Bits
  else if sndFmt = 16 then fmt16Bits
  else if sndFmt = 24 then fmt24Bits
  else format

/-- The header decides what the user has not. -/
def Options.adopt (opts : Options) (info : WavInfo) : Options :=
  { opts with
    format := if opts.formatUser then opts.format else headerFormat info.bits opts.format
    channels := if opts.channelsUser then opts.channels else info.channels.toInt32
    speed := if opts.speedUser then opts.speed else info.sampleRate.toInt32 }

/-- The check whether the file is a WAV file: the options and the length of the data, `none` when
it is not one. `lseek` moves only in a file that is `seekable`. -/
def checkWavFile (stack : ℕ → UInt8) (opts : Options) (seekable : Bool) (replay : Source) :
    Except Fault (Option (Options × ℤ) × Source) :=
  match replay.read maxWavHeadSize with
  | (none, replay) => return (none, replay)
  | (some bytes, replay) => do
    let buff ← Buffer.storeAll ⟨maxWavHeadSize, stack⟩ 0 bytes
    if bytes.length ≠ maxWavHeadSize then return (none, replay)
    else do
      let (isWavFile, info) ← parseWavHeader buff ⟨0, 0, 0, 0⟩
      if isWavFile = 0 then return (none, replay)
      else return (some (opts.adopt info, isWavFile.toInt),
        if seekable then replay.seek info.headLen else replay)

/-- `main` when it replays and does not record, from the opened files on: the returned value and
the files. `configDevice` says whether the device takes a format, channels and a speed. -/
def mainReplay (malloc : ℕ → Option (ℕ → UInt8)) (configDevice : Int32 → Int32 → Int32 → Bool)
    (stack : ℕ → UInt8) (opts : Options) (seekable : Bool) (replay : Source) (dev : Sink) :
    Prog Fault (Int32 × Source × Sink) := do
  let (checked, replay) ←
    (if opts.fileType = .wav then checkWavFile stack opts seekable replay
      else .ok (some (opts, 0), replay) : Except Fault (Option (Options × ℤ) × Source))
  match checked with
  | none => return (-1, replay, dev)
  | some (opts, replayDataLen) =>
    if configDevice opts.format opts.channels opts.speed then do
      let (_, replay, dev) ← play malloc
        ⟨opts.bufferSize, replayDataLen, opts.format, opts.fileType⟩ replay dev
      return (0, replay, dev)
    else return (-1, replay, dev)

/-! ## What is played -/

/-- The block of `main` with the first bytes of a file. -/
def mainBlock (stack : ℕ → UInt8) (replay : Source) : Buffer :=
  Buffer.overlay ⟨maxWavHeadSize, stack⟩ 0 (slice replay.content 0 maxWavHeadSize)

/-- The sound when `play` starts: behind the header, or behind the bytes that `main` has read. -/
def playSource (seekable : Bool) (headLen : ℕ) (replay : Source) : Source :=
  if seekable then atData replay headLen else replay.advance maxWavHeadSize

/-- The reads go on as they have been. -/
lemma playSource_schedule (seekable : Bool) (headLen : ℕ) (replay : Source) :
    (playSource seekable headLen replay).schedule = replay.schedule := by
  cases seekable <;> rfl

/-- The check of a file whose header is read in full and accepted.

**Proof sketch.** The head is read in full, stored and parsed; an accepted header has a length of
data that is not zero. -/
private lemma checkWavFile_eq {stack : ℕ → UInt8} {opts : Options} {seekable : Bool}
    {replay : Source} {size : ℕ} {dataLen : Int32} {info : WavInfo} (hpos : replay.pos = 0)
    (hsize : replay.size = some size) (hmax : maxWavHeadSize ≤ size)
    (hfull : replay.schedule.answer replay.calls maxWavHeadSize = some maxWavHeadSize)
    (hparse : parseWavHeader (mainBlock stack replay) ⟨0, 0, 0, 0⟩ = .ok (dataLen, info))
    (hlen : dataLen ≠ 0) :
    checkWavFile stack opts seekable replay =
      .ok (some (opts.adopt info, dataLen.toInt), playSource seekable info.headLen replay) := by
  have hr := Source.read_full hfull hsize (by rw [hpos, Nat.zero_add]; exact hmax)
  rw [hpos] at hr
  have hstore : Buffer.storeAll ⟨maxWavHeadSize, stack⟩ 0
      (slice replay.content 0 maxWavHeadSize) = .ok (mainBlock stack replay) := by
    apply Buffer.storeAll_eq
    rw [length_slice, Nat.zero_add]
  rw [checkWavFile, hr]
  refine bind_eq_ok.mpr ⟨_, hstore, ?_⟩
  rw [length_slice, if_neg (fun h => h rfl)]
  refine bind_eq_ok.mpr ⟨_, hparse, ?_⟩
  dsimp only
  rw [if_neg hlen]
  rfl

/-- **What `main` plays** of a WAV file that it accepts, where nothing is expanded: the blocks that
cover the length of the data, from where `play` starts.

**Proof sketch.** `checkWavFile_eq` for the header, and then `play` copies, since nothing is
expanded (`ends_play_cover`). -/
theorem ends_mainReplay (malloc : ℕ → Option (ℕ → UInt8))
    (configDevice : Int32 → Int32 → Int32 → Bool) (opts : Options) (seekable : Bool)
    (replay : Source) (dev : Sink) {byte stack : ℕ → UInt8} {size : ℕ} {dataLen : Int32}
    {info : WavInfo}
    (hpos : replay.pos = 0) (hsize : replay.size = some size) (hmax : maxWavHeadSize ≤ size)
    (hfull : replay.schedule.answer replay.calls maxWavHeadSize = some maxWavHeadSize)
    (hparse : parseWavHeader (mainBlock stack replay) ⟨0, 0, 0, 0⟩ = .ok (dataLen, info))
    (hlen : dataLen ≠ 0) (hwav : opts.fileType = .wav) (hb : 0 < opts.bufferSize)
    (hmalloc : malloc opts.bufferSize = some byte)
    (hconfig : configDevice (opts.adopt info).format (opts.adopt info).channels
      (opts.adopt info).speed = true)
    (hfmt : (opts.adopt info).format ≠ fmt24Bits)
    (hread : replay.schedule.Productive) (hread' : replay.schedule.Reliable)
    (hwrite : dev.schedule.Productive) (hwrite' : dev.schedule.Reliable) :
    (mainReplay malloc configDevice stack opts seekable replay dev).Ends
      (Copies (dev.written ++ (cover dataLen.toInt.toNat
        ((playSource seekable info.headLen replay).blocks opts.bufferSize
          dataLen.toInt.toNat)).flatten)) := by
  have hnonzero : dataLen.toInt ≠ 0 := by
    intro h
    exact hlen (Int32.toInt_inj.mp (by rw [h, Int32.toInt_zero]))
  have hsched := playSource_schedule seekable info.headLen replay
  rw [mainReplay, if_pos hwav, Prog.ends_bind, Prog.ends_liftM,
    checkWavFile_eq hpos hsize hmax hfull hparse hlen, Prog.andThen_ok]
  dsimp only
  rw [if_pos hconfig, Prog.ends_bind]
  have halloc : malloc (allocSize
      ⟨opts.bufferSize, dataLen.toInt, (opts.adopt info).format, opts.fileType⟩) = some byte := by
    rw [allocSize, if_neg hfmt]
    exact hmalloc
  have hplay := ends_play_cover
    ⟨opts.bufferSize, dataLen.toInt, (opts.adopt info).format, opts.fileType⟩
    (playSource seekable info.headLen replay) dev halloc (Or.inr hfmt) hb hnonzero (hsched ▸ hread)
    (hsched ▸ hread') hwrite hwrite'
  apply hplay.imp
  rintro _ ⟨replay', dev', rfl, hw⟩
  exact (Prog.ends_pure _).mpr ⟨replay', dev', rfl, hw⟩

/-- **What `main` plays of a file that ends with its data**: everything from where `play` starts,
since that is no later than 256 bytes from the beginning and the length reaches to the end.

**Proof sketch.** `ends_mainReplay`; the length of the data reaches from behind the header to the
end of the file, and from 256 bytes on beyond it, so the blocks cover all that is left. -/
theorem ends_mainReplay_last (malloc : ℕ → Option (ℕ → UInt8))
    (configDevice : Int32 → Int32 → Int32 → Bool) (opts : Options) (seekable : Bool)
    (bytes : List UInt8) (rd : Schedule) (dev : Sink) {byte stack : ℕ → UInt8} {dataLen : Int32}
    {info : WavInfo} (hmax : maxWavHeadSize ≤ bytes.length)
    (hfull : rd.answer 0 maxWavHeadSize = some maxWavHeadSize)
    (hparse : parseWavHeader (mainBlock stack (Source.ofFile bytes rd)) ⟨0, 0, 0, 0⟩ =
      .ok (dataLen, info))
    (hlast : bytes.length = info.headLen + dataLen.toUInt32.toNat) (hlen : 0 < dataLen.toInt)
    (hwav : opts.fileType = .wav) (hb : 0 < opts.bufferSize)
    (hmalloc : malloc opts.bufferSize = some byte)
    (hconfig : configDevice (opts.adopt info).format (opts.adopt info).channels
      (opts.adopt info).speed = true)
    (hfmt : (opts.adopt info).format ≠ fmt24Bits) (hread : rd.Productive) (hread' : rd.Reliable)
    (hwrite : dev.schedule.Productive) (hwrite' : dev.schedule.Reliable) :
    (mainReplay malloc configDevice stack opts seekable (Source.ofFile bytes rd) dev).Ends
      (Copies (dev.written ++ slice (Source.ofFile bytes rd).content
        (if seekable then info.headLen else maxWavHeadSize)
        (bytes.length - if seekable then info.headLen else maxWavHeadSize))) := by
  have hne : dataLen ≠ 0 := by
    rintro rfl
    rw [Int32.toInt_zero] at hlen
    omega
  have hhead : info.headLen ≤ maxWavHeadSize := headLen_le_of_parseWavHeader hparse hne
  have hn : dataLen.toUInt32.toNat = dataLen.toInt.toNat :=
    Int32.toNat_toUInt32_of_le (Int32.le_iff_toInt_le.mpr hlen.le)
  have hends := ends_mainReplay malloc configDevice opts seekable (Source.ofFile bytes rd) dev
    rfl rfl hmax hfull hparse hne hwav hb hmalloc hconfig hfmt hread hread' hwrite hwrite'
  have hsched := playSource_schedule seekable info.headLen (Source.ofFile bytes rd)
  have hpos : (playSource seekable info.headLen (Source.ofFile bytes rd)).pos =
      if seekable then info.headLen else maxWavHeadSize := by
    cases seekable
    · exact Nat.zero_add _
    · rfl
  have hsize : (playSource seekable info.headLen (Source.ofFile bytes rd)).size =
      some bytes.length := by
    cases seekable <;> rfl
  have hcontent : (playSource seekable info.headLen (Source.ofFile bytes rd)).content =
      (Source.ofFile bytes rd).content := by
    cases seekable <;> rfl
  rw [← hpos]
  rw [flatten_cover_blocks (n := bytes.length -
    (playSource seekable info.headLen (Source.ofFile bytes rd)).pos) _ _ hb (hsched ▸ hread)
    (hsched ▸ hread') ?_ ?_, hcontent] at hends
  · exact hends
  · rw [hsize, hpos]
    congr 1
    split <;> omega
  · rw [hpos]
    split <;> omega

/-- **Playing from a file and from a pipe**: of a WAV file of at least 256 bytes with the data last,
in a format of 8 or 16 bits, `main` plays the same from a file as from a pipe on standard input
if and only if the header is 256 bytes long, or the length of the data is not positive.

**Proof sketch.** From a file everything behind the header is played, and from a pipe everything
behind the first 256 bytes (`ends_mainReplay_last`). -/
theorem file_eq_pipe_iff (malloc : ℕ → Option (ℕ → UInt8)) (byte : ℕ → UInt8)
    (configDevice : Int32 → Int32 → Int32 → Bool) (stack : ℕ → UInt8) (opts : Options)
    (bytes : List UInt8) (rd rd' wr wr' : Schedule) (dataLen : Int32) (info : WavInfo)
    -- a WAV file with the data last, which `main` accepts
    (hmax : maxWavHeadSize ≤ bytes.length)
    (hparse : parseWavHeader (mainBlock stack (Source.ofFile bytes rd)) ⟨0, 0, 0, 0⟩ =
      .ok (dataLen, info))
    (hlen : dataLen ≠ 0) (hlast : bytes.length = info.headLen + dataLen.toUInt32.toNat)
    (hfmt : (opts.adopt info).format = fmt8Bits ∨ (opts.adopt info).format = fmt16Bits)
    -- it is played
    (hwav : opts.fileType = .wav) (hb : 1 ≤ opts.bufferSize)
    (hmalloc : malloc opts.bufferSize = some byte)
    (hconfig : configDevice (opts.adopt info).format (opts.adopt info).channels
      (opts.adopt info).speed = true)
    -- the file, the pipe and the device
    (hfull : rd.answer 0 maxWavHeadSize = some maxWavHeadSize)
    (hfull' : rd'.answer 0 maxWavHeadSize = some maxWavHeadSize)
    (hrd : rd.Productive) (hrdRel : rd.Reliable) (hrd' : rd'.Productive) (hrdRel' : rd'.Reliable)
    (hwr : wr.Productive) (hwrRel : wr.Reliable) (hwr' : wr'.Productive)
    (hwrRel' : wr'.Reliable) :
    (∃ w,
      (mainReplay malloc configDevice stack opts true (Source.ofFile bytes rd)
        (Sink.fresh wr)).Ends (Copies w) ∧
      (mainReplay malloc configDevice stack opts false (Source.ofFile bytes rd')
        (Sink.fresh wr')).Ends (Copies w)) ↔
      dataLen.toInt ≤ 0 ∨ info.headLen = maxWavHeadSize := by
  have hne : (opts.adopt info).format ≠ fmt24Bits := by
    rcases hfmt with h | h <;> rw [h] <;> decide
  by_cases hpos : 0 < dataLen.toInt
  · have hfile := ends_mainReplay_last malloc configDevice opts true bytes rd (Sink.fresh wr) hmax
      hfull hparse hlast hpos hwav hb hmalloc hconfig hne hrd hrdRel hwr hwrRel
    have hpipe := ends_mainReplay_last malloc configDevice opts false bytes rd' (Sink.fresh wr')
      hmax hfull' hparse hlast hpos hwav hb hmalloc hconfig hne hrd' hrdRel' hwr' hwrRel'
    simp only [Sink.fresh_written, List.nil_append, if_true, Bool.false_eq_true, if_false]
      at hfile hpipe
    have hhead : info.headLen ≤ maxWavHeadSize := headLen_le_of_parseWavHeader hparse hlen
    constructor
    · rintro ⟨w, hw, hw'⟩
      have hw := (ends_copies_iff hfile).mp hw
      have hw' := (ends_copies_iff hpipe).mp hw'
      have hlength := congrArg List.length (hw.trans hw'.symm)
      rw [length_slice, length_slice] at hlength
      right
      omega
    · intro h
      have hhead256 : info.headLen = maxWavHeadSize := h.resolve_left (by omega)
      rw [hhead256] at hfile
      exact ⟨_, hfile, hpipe⟩
  · -- a length that is not positive: nothing is played
    have hzero : dataLen.toInt.toNat = 0 := by omega
    have hfile := ends_mainReplay malloc configDevice opts true (Source.ofFile bytes rd)
      (Sink.fresh wr) rfl rfl hmax hfull hparse hlen hwav hb hmalloc hconfig hne hrd hrdRel hwr
      hwrRel
    have hpipe := ends_mainReplay malloc configDevice opts false (Source.ofFile bytes rd')
      (Sink.fresh wr') rfl rfl hmax hfull' hparse hlen hwav hb hmalloc hconfig hne hrd' hrdRel'
      hwr' hwrRel'
    rw [hzero, cover_zero] at hfile hpipe
    exact iff_of_true ⟨_, hfile, hpipe⟩ (Or.inl (by omega))

/-- A WAV file with a header of 44 bytes and 256 bytes of data. -/
def ramp : List UInt8 := wavHeader 256 1 8000 8 ++ (List.range 256).map UInt8.ofNat

/-- What `parse_wav_header` finds in it. -/
def rampInfo : WavInfo := ⟨44, 1, 8000, 8⟩

/-- The options `-P` and `-B 64`. -/
def replayOptions : Options := ⟨.wav, 2, false, fmt16Bits, false, 44100, false, 64⟩

/-- It has 300 bytes. -/
lemma length_ramp : ramp.length = 300 := by
  rw [ramp, List.length_append, length_wavHeader, List.length_map, List.length_range]
  rfl

/-- Its header is found in the first block. -/
lemma parseWavHeader_ramp (rd : Schedule) :
    parseWavHeader (mainBlock (fun _ => 0) (Source.ofFile ramp rd)) ⟨0, 0, 0, 0⟩ =
      .ok (256, rampInfo) :=
  parseWavHeader_eq (by decide : wavHeadSize ≤ maxWavHeadSize)
    (slice_overlay_ofFile (by decide) (length_wavHeader _ _ _ _)
      (length_ramp.symm ▸ by decide : maxWavHeadSize ≤ ramp.length)) _

/-- A file whose header is shorter than the first block. -/
theorem file_eq_pipe_iff_ramp :
    (∃ w,
      (mainReplay (fun _ => some fun _ => 0) (fun _ _ _ => true) (fun _ => 0) replayOptions true
        (Source.ofFile ramp (headThenAtMost 50)) (Sink.fresh (Schedule.atMost 9))).Ends
          (Copies w) ∧
      (mainReplay (fun _ => some fun _ => 0) (fun _ _ _ => true) (fun _ => 0) replayOptions false
        (Source.ofFile ramp (headThenAtMost 7)) (Sink.fresh (Schedule.atMost 9))).Ends
          (Copies w)) ↔
      (256 : Int32).toInt ≤ 0 ∨ rampInfo.headLen = maxWavHeadSize :=
  file_eq_pipe_iff (fun _ => some fun _ => 0) (fun _ => 0) (fun _ _ _ => true) (fun _ => 0)
    replayOptions ramp (headThenAtMost 50) (headThenAtMost 7) (Schedule.atMost 9)
    (Schedule.atMost 9) 256 rampInfo (length_ramp.symm ▸ by decide) (parseWavHeader_ramp _)
    (by decide) length_ramp (Or.inl rfl) rfl (by decide) rfl rfl rfl rfl
    (headThenAtMost_productive (by decide)) (headThenAtMost_reliable 50)
    (headThenAtMost_productive (by decide)) (headThenAtMost_reliable 7)
    (Schedule.atMost_productive (by decide)) (Schedule.atMost_reliable 9)
    (Schedule.atMost_productive (by decide)) (Schedule.atMost_reliable 9)

/-- From a file all 256 bytes of the data are played, from a pipe the last 44.

**Proof sketch.** `ends_mainReplay_last` for both: from the file the bytes from the data on are
played, from the pipe those from 256 on, which are fewer. -/
theorem pipe_loses_beginning :
    maxWavHeadSize ≤ ramp.length ∧ ramp.length = rampInfo.headLen + 256 ∧
      (∀ rd, parseWavHeader (mainBlock (fun _ => 0) (Source.ofFile ramp rd)) ⟨0, 0, 0, 0⟩ =
        .ok (256, rampInfo)) ∧
      (replayOptions.adopt rampInfo).format = fmt8Bits ∧
      (headThenAtMost 4096).Productive ∧ (headThenAtMost 4096).Reliable ∧
      ¬ ∃ w,
        (mainReplay (fun _ => some fun _ => 0) (fun _ _ _ => true) (fun _ => 0) replayOptions true
          (Source.ofFile ramp (headThenAtMost 4096)) (Sink.fresh (headThenAtMost 4096))).Ends
            (Copies w) ∧
        (mainReplay (fun _ => some fun _ => 0) (fun _ _ _ => true) (fun _ => 0) replayOptions false
          (Source.ofFile ramp (headThenAtMost 4096)) (Sink.fresh (headThenAtMost 4096))).Ends
            (Copies w) := by
  have hmax : maxWavHeadSize ≤ ramp.length := length_ramp.symm ▸ by decide
  have hprod : (headThenAtMost 4096).Productive := headThenAtMost_productive (by decide)
  have hrel := headThenAtMost_reliable 4096
  refine ⟨hmax, length_ramp, parseWavHeader_ramp, rfl, hprod, hrel, ?_⟩
  rintro ⟨w, hfile, hpipe⟩
  have hrun : ∀ seekable, _ := fun seekable => ends_mainReplay_last (fun _ => some fun _ => 0)
    (fun _ _ _ => true) replayOptions seekable ramp (headThenAtMost 4096)
    (Sink.fresh (headThenAtMost 4096)) hmax rfl (parseWavHeader_ramp (headThenAtMost 4096))
    length_ramp (by decide) rfl (by decide) rfl rfl (by decide) hprod hrel hprod hrel
  have hw := (ends_copies_iff (hrun true)).mp hfile
  have hw' := (ends_copies_iff (hrun false)).mp hpipe
  have hlength := congrArg List.length (hw.trans hw'.symm)
  rw [List.length_append, List.length_append, length_slice, length_slice, length_ramp] at hlength
  exact absurd hlength (by decide)

end JzPretest.Sndkit

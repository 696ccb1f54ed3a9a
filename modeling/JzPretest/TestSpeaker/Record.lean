import JzPretest.TestSpeaker.Sndkit
import JzPretest.TestSpeaker.Wav

set_option relaxedAutoImplicit false
set_option autoImplicit false

/-!
# `record`

`record` copies what the sound device delivers to a file until `record_len` bytes have been
written. For WAV files of 24 bits it packs every block it has read; then the length it counts
down is that of the packed samples, while the length it asks the device for is not.

## Main definitions

* `JzPretest.Sndkit.record` — the function.
* `JzPretest.Sndkit.recordLen` — how many bytes it is to write.

## Main results

* `JzPretest.Sndkit.record_copies` — without packing, `record` copies the first bytes of the
  device.
* `JzPretest.Sndkit.record_24bit_never_returns` — with packing, it never comes to its end.
-/

namespace JzPretest.Sndkit

/-- `struct record_params`, but for the two descriptors. -/
structure RecordParams where
  bufferSize : ℕ
  duration : Int32
  format : Int32
  channels : Int32
  speed : Int32
  fileType : FileType

/-- The `switch` of `record`. -/
def formatBits (format : Int32) : Int32 :=
  if format = fmt8Bits then 8
  else if format = fmt16Bits then 16
  else if format = fmt24Bits then 24
  else 16

/-- `record_len` before the loop, in the `int` arithmetic of the source. -/
def recordLen (params : RecordParams) : Int32 :=
  formatBits params.format * params.channels * params.speed / 8 * params.duration

/-- Packing a block, where `record` does that: the block, and the bytes to write. -/
def packBlock (params : RecordParams) (buff : Buffer) (nRead : ℕ) :
    Except Fault (Buffer × ℕ) :=
  if params.fileType = .wav ∧ formatBits params.format = 24 then do
    let buff ← wav32bitTo24bit buff nRead
    return (buff, nRead / 4 * 3)
  else return (buff, nRead)

/-- The state of the loop of `record`. -/
structure Recording where
  recordLen : ℤ
  buff : Buffer
  dev : Source
  sink : Sink

/-- One pass of the loop of `record`. -/
def recordPass (params : RecordParams) (s : Recording) :
    Prog Fault (Pass Recording (Int32 × Source × Sink)) :=
  if 0 < s.recordLen then
    match s.dev.read
      (if (params.bufferSize : ℤ) > s.recordLen then s.recordLen.toNat else params.bufferSize) with
    | (none, dev) => return .leave (-1, dev, s.sink)
    | (some bytes, dev) => do
      let buff ← s.buff.storeAll 0 bytes
      if bytes.length = 0 then return .again { s with buff := buff, dev := dev }
      else do
        let (buff, nRead) ← packBlock params buff bytes.length
        let nToWrite := if (nRead : ℤ) < s.recordLen then nRead else s.recordLen.toNat
        let (ok, sink) ← writeAll buff nToWrite s.sink
        if ok then return .again ⟨s.recordLen - nToWrite, buff, dev, sink⟩
        else return .leave (-1, dev, sink)
  else return .leave (0, s.dev, s.sink)

/-- `record`: the returned value, the device and the file. `malloc` gives the bytes of a new
block, or `none` when there is no memory. -/
def record (malloc : ℕ → Option (ℕ → UInt8)) (params : RecordParams) (dev : Source)
    (sink : Sink) : Prog Fault (Int32 × Source × Sink) :=
  match malloc params.bufferSize with
  | none => return (-1, dev, sink)
  | some byte =>
    Prog.loop (recordPass params)
      ⟨(recordLen params).toInt, ⟨params.bufferSize, byte⟩, dev, sink⟩

/-! ## Copying -/

/-- Nothing is packed in a raw file or when the format is not one of 24 bits. -/
private lemma packBlock_eq {params : RecordParams}
    (h : params.fileType = .raw ∨ params.format ≠ fmt24Bits) (buff : Buffer) (nRead : ℕ) :
    packBlock params buff nRead = .ok (buff, nRead) := by
  apply if_neg
  rintro ⟨hwav, hbits⟩
  rcases h with hraw | hfmt
  · simp [hraw] at hwav
  · unfold formatBits at hbits
    split_ifs at hbits
    · exact absurd hbits (by decide)
    · exact absurd hbits (by decide)
    · exact absurd hbits (by decide)

/-- The state of the loop when the first `k` bytes have been copied. -/
structure Copied (params : RecordParams) (dev : Source) (sink : Sink) (k : ℕ) (s : Recording) :
    Prop where
  len : s.recordLen + k = (recordLen params).toInt
  nonneg : 0 ≤ s.recordLen
  size : s.buff.size = params.bufferSize
  source : s.dev = { dev with pos := dev.pos + k, calls := s.dev.calls }
  schedule : s.sink.schedule = sink.schedule
  failed : s.sink.failed = sink.failed
  written : s.sink.written = sink.written ++ slice dev.content dev.pos k

/-- What `record` is for: unless some call fails, the first bytes of the device have been copied;
otherwise a prefix of them has. -/
structure Recorded (params : RecordParams) (dev : Source) (sink : Sink) (ret : Int32)
    (dev' : Source) (sink' : Sink) : Prop where
  complete : dev'.failed = false → sink'.failed = false → ret = 0 ∧ sink'.written =
    sink.written ++ slice dev.content dev.pos (recordLen params).toInt.toNat
  aborted : dev'.failed = true ∨ sink'.failed = true → ret = -1 ∧ ∃ q,
    q <+: slice dev.content dev.pos (recordLen params).toInt.toNat ∧
      sink'.written = sink.written ++ q
  reliable : dev.schedule.Reliable → sink.schedule.Reliable →
    dev'.failed = false ∧ sink'.failed = false

namespace Copied

variable {params : RecordParams} {dev : Source} {sink : Sink} {k : ℕ} {s : Recording}

/-- The bytes copied so far, then the rest. -/
lemma slice_recordLen (h : Copied params dev sink k s) :
    slice dev.content dev.pos (recordLen params).toInt.toNat =
      slice dev.content dev.pos k ++ slice dev.content (dev.pos + k) s.recordLen.toNat := by
  have hlen := h.len
  have hnonneg := h.nonneg
  rw [show (recordLen params).toInt.toNat = k + s.recordLen.toNat by omega, slice_add]

/-- When a block of `n` bytes has been written, that many more have been copied. -/
private lemma next (h : Copied params dev sink k s) {n : ℕ} (hn : n ≤ s.recordLen.toNat)
    {buff : Buffer} (hsize : buff.size = s.buff.size) {sink' : Sink}
    (hsched : sink'.schedule = s.sink.schedule) (hfailed : sink'.failed = s.sink.failed)
    (hwritten : sink'.written = s.sink.written ++ slice dev.content (dev.pos + k) n) :
    Copied params dev sink (k + n) ⟨s.recordLen - n, buff, s.dev.advance n, sink'⟩ := by
  have hlen := h.len
  have hnonneg := h.nonneg
  refine ⟨?_, ?_, hsize.trans h.size, ?_, hsched.trans h.schedule, hfailed.trans h.failed, ?_⟩
  · dsimp only
    omega
  · dsimp only
    omega
  · rw [h.source]
    simp only [Source.advance, Nat.add_assoc]
  · rw [hwritten, h.written, slice_add, List.append_assoc]

/-- When nothing is left, everything has been recorded. -/
private lemma recorded (h : Copied params dev sink k s) (hleft : ¬ 0 < s.recordLen)
    (hdev : dev.failed = false) (hsink : sink.failed = false) :
    Recorded params dev sink 0 s.dev s.sink := by
  have hdev' : s.dev.failed = false := by
    rw [h.source]
    exact hdev
  have hsink' : s.sink.failed = false := h.failed.trans hsink
  have hzero : s.recordLen.toNat = 0 := by omega
  refine ⟨fun _ _ => ⟨rfl, ?_⟩, fun hf => ?_, fun _ _ => ⟨hdev', hsink'⟩⟩
  · rw [h.slice_recordLen, hzero, slice_zero, List.append_nil, h.written]
  · simp [hdev', hsink'] at hf

/-- When a call fails after some of the next bytes have been written, a prefix has been
recorded. -/
private lemma recorded_of_failed (h : Copied params dev sink k s) {dev' : Source} {sink' : Sink}
    (hfailed : dev'.failed = true ∨ sink'.failed = true)
    (hrel : dev.schedule.Reliable → ¬ sink.schedule.Reliable) {p : List UInt8}
    (hp : p <+: slice dev.content (dev.pos + k) s.recordLen.toNat)
    (hwritten : sink'.written = s.sink.written ++ p) :
    Recorded params dev sink (-1) dev' sink' := by
  refine ⟨fun hd hs => ?_, fun _ => ⟨rfl, slice dev.content dev.pos k ++ p, ?_, ?_⟩,
    fun hd hs => absurd hs (hrel hd)⟩
  · simp [hd, hs] at hfailed
  · rw [h.slice_recordLen]
    exact (List.prefix_append_right_inj _).mpr hp
  · rw [hwritten, h.written, List.append_assoc]

end Copied

/-- How many bytes a pass asks for. -/
private lemma exists_request (bufferSize : ℕ) {left : ℤ} (hleft : 0 < left) :
    ∃ q, (if (bufferSize : ℤ) > left then left.toNat else bufferSize) = q ∧ q ≤ bufferSize ∧
      q ≤ left.toNat ∧ (0 < bufferSize → 0 < q) := by
  refine ⟨_, rfl, ?_⟩
  split_ifs
  · exact ⟨by omega, le_refl _, fun _ => by omega⟩
  · exact ⟨le_refl _, by omega, id⟩

/-- **A pass that reads a block** without packing: the block lies in the buffer and is written.

**Proof sketch.** The block is no longer than what is left to record, so it is written as it was
read. -/
theorem recordPass_block {params : RecordParams} {s : Recording}
    (hcopy : params.fileType = .raw ∨ params.format ≠ fmt24Bits) (hleft : 0 < s.recordLen)
    {q : ℕ} (hq : (if (params.bufferSize : ℤ) > s.recordLen then s.recordLen.toNat
      else params.bufferSize) = q)
    {bytes : List UInt8} {dev : Source} (hread : s.dev.read q = (some bytes, dev))
    (hne : bytes.length ≠ 0) (hbuff : bytes.length ≤ s.buff.size)
    (hle : bytes.length ≤ s.recordLen.toNat) :
    recordPass params s =
      writeAll (s.buff.overlay 0 bytes) bytes.length s.sink >>= fun written =>
        if written.1 then pure (.again
          ⟨s.recordLen - bytes.length, s.buff.overlay 0 bytes, dev, written.2⟩)
        else pure (.leave (-1, dev, written.2)) := by
  have hstore : s.buff.storeAll 0 bytes = .ok (s.buff.overlay 0 bytes) := by
    apply Buffer.storeAll_eq
    omega
  have hnToWrite : (if (bytes.length : ℤ) < s.recordLen then bytes.length
      else s.recordLen.toNat) = bytes.length := by
    split_ifs <;> omega
  rw [recordPass, if_pos hleft, hq, hread]
  dsimp only
  rw [hstore]
  change (if bytes.length = 0 then _ else _ : Prog Fault _) = _
  rw [if_neg hne, packBlock_eq hcopy]
  change writeAll _ (if (bytes.length : ℤ) < s.recordLen then bytes.length
    else s.recordLen.toNat) _ >>= _ = _
  rw [hnToWrite]

/-- **One pass of the loop** copies one block, or fails with a prefix copied.

**Proof sketch.** A failed read or write leaves a beginning of the recording copied. Otherwise at
least one byte has been read and written, and less is left. -/
theorem ends_recordPass {params : RecordParams} {dev : Source} {sink : Sink} {k : ℕ}
    {s : Recording} (hb : 1 ≤ params.bufferSize)
    (hcopy : params.fileType = .raw ∨ params.format ≠ fmt24Bits) (hsize : dev.size = none)
    (hread : dev.schedule.Productive) (hwrite : sink.schedule.Productive)
    (hdev : dev.failed = false) (hsink : sink.failed = false) (h : Copied params dev sink k s) :
    (recordPass params s).Ends (Prog.orAgain
      (fun s' => (∃ k', Copied params dev sink k' s') ∧ s'.recordLen.toNat < s.recordLen.toNat)
      fun x => ∃ ret dev' sink', x = .ok (ret, dev', sink') ∧
        Recorded params dev sink ret dev' sink') := by
  by_cases hleft : 0 < s.recordLen
  · obtain ⟨q, hq, hqbuf, hqlen, hqpos⟩ := exists_request params.bufferSize hleft
    have hprod : s.dev.schedule.Productive := by rw [h.source]; exact hread
    rcases s.dev.read_cases hprod (hqpos hb) with ⟨hans, hr⟩ | ⟨n, hn, hr, -, hzero⟩
    · -- the device fails
      rw [recordPass, if_pos hleft, hq, hr]
      refine (Prog.ends_pure _).mpr ⟨-1, s.dev.fail, s.sink, rfl,
        h.recorded_of_failed (Or.inl rfl) (fun hrel => ?_) List.nil_prefix (by simp)⟩
      rw [h.source] at hans
      exact absurd hans (hrel _ _)
    · have hnpos : n ≠ 0 := by
        intro h0
        obtain ⟨m, hm, -⟩ := hzero h0
        rw [h.source, hsize] at hm
        simp at hm
      have hbytes : slice s.dev.content s.dev.pos n = slice dev.content (dev.pos + k) n := by
        rw [h.source]
      have hbuff := h.size
      have hpass := recordPass_block hcopy hleft hq hr (by rw [length_slice]; exact hnpos)
        (by rw [length_slice]; omega) (by rw [length_slice]; omega)
      have hfill := Buffer.slice_overlay s.buff 0 (slice s.dev.content s.dev.pos n)
      rw [length_slice] at hpass hfill
      rw [hpass, Prog.ends_bind]
      apply (ends_writeAll _ n s.sink (by rw [Buffer.overlay_size]; omega)
        (by rw [h.schedule]; exact hwrite)).imp
      rintro _ ⟨ok, sink', rfl, hw⟩
      rw [hfill, hbytes] at hw
      rw [Prog.andThen_ok]
      cases ok with
      | false =>
        -- the file fails
        obtain ⟨hfailed, hrel⟩ := hw.failed rfl
        obtain ⟨p, hp, hwritten⟩ := hw.written
        rw [h.schedule] at hrel
        exact (Prog.ends_pure _).mpr ⟨-1, _, sink', rfl, h.recorded_of_failed (Or.inr hfailed)
          (fun _ => hrel) (hp.trans (slice_prefix_slice _ _ (by omega))) hwritten⟩
      | true =>
        obtain ⟨hwritten, hfailed⟩ := hw.all rfl
        refine (Prog.ends_pure _).mpr ⟨⟨k + n, h.next (by omega) (Buffer.overlay_size _ _ _)
          hw.schedule hfailed hwritten⟩, ?_⟩
        dsimp only
        omega
  · rw [recordPass, if_neg hleft]
    exact (Prog.ends_pure _).mpr ⟨0, s.dev, s.sink, rfl, h.recorded hleft hdev hsink⟩

/-- **Recording without packing** is an exact copy: however the device and the file cut the
bytes, `record` ends; if no call fails it returns `0` and has written exactly the first
`record_len` bytes of the device, in order; otherwise it returns `-1` and has written a prefix of
them.

**Proof sketch.** The loop with the number of bytes left as variant: every pass reads at least
one byte and writes what it has read (`ends_recordPass`). -/
theorem record_copies (malloc : ℕ → Option (ℕ → UInt8)) (byte : ℕ → UInt8)
    (params : RecordParams) (hmalloc : malloc params.bufferSize = some byte)
    (hb : 1 ≤ params.bufferSize) (hl : 0 < (recordLen params).toInt)
    (hcopy : params.fileType = .raw ∨ params.format ≠ fmt24Bits)
    (dev : Source) (sink : Sink) (hsize : dev.size = none)
    (hread : dev.schedule.Productive) (hwrite : sink.schedule.Productive)
    (hdev : dev.failed = false) (hsink : sink.failed = false) :
    (record malloc params dev sink).Ends fun x => ∃ ret dev' sink', x = .ok (ret, dev', sink') ∧
      Recorded params dev sink ret dev' sink' := by
  rw [record, hmalloc]
  apply Prog.ends_loop_of_variant (I := fun s => ∃ k, Copied params dev sink k s)
    (fun s => s.recordLen.toNat)
  · rintro s ⟨k, h⟩
    exact ends_recordPass hb hcopy hsize hread hwrite hdev hsink h
  · exact ⟨0, by simp, hl.le, rfl, by simp, rfl, rfl, by simp⟩

/-- One second of one channel in the given format, with a buffer of `4096` bytes. -/
def oneSecond (format : Int32) (fileType : FileType) : RecordParams :=
  ⟨4096, 1, format, 1, 8000, fileType⟩

/-- A device that delivers at most `k` bytes at a time. -/
def microphone (k : ℕ) : Source := ⟨fun i => UInt8.ofNat i, none, Schedule.atMost k, 0, 0, false⟩

/-- A file that takes at most `k` bytes at a time. -/
def emptyFile (k : ℕ) : Sink := ⟨[], Schedule.atMost k, 0, false⟩

/-- One second of sound, with a device that delivers at most seven bytes at a time. -/
theorem record_copies_oneSecond :
    (record (fun _ => some fun _ => 0) (oneSecond fmt8Bits .wav) (microphone 7)
      (emptyFile 5)).Ends fun x => ∃ ret dev' sink', x = .ok (ret, dev', sink') ∧
        Recorded (oneSecond fmt8Bits .wav) (microphone 7) (emptyFile 5) ret dev' sink' :=
  record_copies (fun _ => some fun _ => 0) (fun _ => 0) (oneSecond fmt8Bits .wav) rfl (by decide)
    (by decide) (Or.inr (by decide)) (microphone 7) (emptyFile 5) rfl
    (Schedule.atMost_productive (by decide)) (Schedule.atMost_productive (by decide)) rfl rfl

/-! ## Packing -/

/-- Where packing is done, three bytes are written for every four that were read. -/
private lemma packBlock_length {params : RecordParams} (hwav : params.fileType = .wav)
    (hfmt : params.format = fmt24Bits) {buff buff' : Buffer} {nRead nPacked : ℕ}
    (h : packBlock params buff nRead = .ok (buff', nPacked)) : nPacked = nRead / 4 * 3 := by
  have hbits : formatBits params.format = 24 := by rw [hfmt]; decide
  rw [packBlock, if_pos ⟨hwav, hbits⟩] at h
  cases hpack : wav32bitTo24bit buff nRead with
  | error e => simp [hpack, bind, Except.bind] at h
  | ok b =>
    simp only [hpack, bind, Except.bind, pure, Except.pure, Except.ok.injEq, Prod.mk.injEq] at h
    exact h.2.symm

/-- With reliable streams, a pass of the loop that packs never brings the length that is left to
zero: it asks for no more bytes than that, and writes at most three quarters of them.

**Proof sketch.** A pass asks for no more than is left. What it has read is packed, and three
quarters of it are written and subtracted, so something is left again. -/
lemma always_recordPass {params : RecordParams} {dev : Source} {sink : Sink} {s : Recording}
    (hwav : params.fileType = .wav) (hfmt : params.format = fmt24Bits)
    (hread : dev.schedule.Reliable) (hwrite : sink.schedule.Reliable)
    (h : 0 < s.recordLen ∧ s.dev.schedule = dev.schedule ∧ s.sink.schedule = sink.schedule) :
    (recordPass params s).Always (Prog.orAgain
      (fun s' => 0 < s'.recordLen ∧ s'.dev.schedule = dev.schedule ∧
        s'.sink.schedule = sink.schedule)
      fun x => ¬ ∃ r, x = .ok r) := by
  obtain ⟨hleft, hdev, hsink⟩ := h
  unfold recordPass
  rw [if_pos hleft]
  obtain ⟨q, hq, -, hqlen, -⟩ := exists_request params.bufferSize hleft
  obtain ⟨bytes, dev', hr⟩ := Source.exists_read (hdev ▸ hread) q
  obtain ⟨hlen, hsched⟩ := Source.length_le_of_read hr
  rw [hq, hr]
  dsimp only
  rw [Prog.always_bind, Prog.always_liftM]
  cases s.buff.storeAll 0 bytes with
  | error e => simp
  | ok buff =>
    rw [Prog.andThen_ok]
    by_cases hzero : bytes.length = 0
    · rw [if_pos hzero]
      exact (Prog.always_pure _).mpr ⟨hleft, hsched.trans hdev, hsink⟩
    · rw [if_neg hzero, Prog.always_bind, Prog.always_liftM]
      cases hpack : packBlock params buff bytes.length with
      | error e => simp
      | ok packed =>
        obtain ⟨buff', nPacked⟩ := packed
        have hlt := packBlock_length hwav hfmt hpack
        rw [Prog.andThen_ok]
        dsimp only
        rw [Prog.always_bind]
        refine (always_writeAll (hsink ▸ hwrite)).imp fun x hw => ?_
        rcases x with e | ⟨ok, sink'⟩
        · simp
        · obtain ⟨rfl, hsched'⟩ := hw ok sink' rfl
          refine (Prog.always_pure _).mpr ⟨?_, hsched.trans hdev, hsched'.trans hsink⟩
          dsimp only
          rw [if_pos (by omega)]
          omega

/-- **Recording with packing never returns**: whatever the buffer size and the lengths of the
transfers, as long as none of them fails, `record` does not come to the end of a WAV recording of
24 bits.

**Proof sketch.** The length that is left is positive before every pass, and stays so
(`always_recordPass`): once it is less than four, the passes write nothing at all. -/
theorem record_24bit_never_returns (malloc : ℕ → Option (ℕ → UInt8)) (byte : ℕ → UInt8)
    (params : RecordParams) (hmalloc : malloc params.bufferSize = some byte)
    (hl : 0 < (recordLen params).toInt) (hwav : params.fileType = .wav)
    (hfmt : params.format = fmt24Bits) (dev : Source) (sink : Sink)
    (hread : dev.schedule.Reliable) (hwrite : sink.schedule.Reliable) :
    ¬ (record malloc params dev sink).Ends fun x => ∃ r, x = .ok r := by
  rw [Prog.not_ends_iff, record, hmalloc]
  exact Prog.always_loop (fun s => always_recordPass hwav hfmt hread hwrite) ⟨hl, rfl, rfl⟩

/-- One second of sound. -/
theorem record_24bit_never_returns_oneSecond :
    ¬ (record (fun _ => some fun _ => 0) (oneSecond fmt24Bits .wav) (microphone 7)
      (emptyFile 5)).Ends fun x => ∃ r, x = .ok r :=
  record_24bit_never_returns (fun _ => some fun _ => 0) (fun _ => 0) (oneSecond fmt24Bits .wav) rfl
    (by decide) rfl rfl (microphone 7) (emptyFile 5) (Schedule.atMost_reliable 7)
    (Schedule.atMost_reliable 5)

/-- A recording of one second, with a buffer of `4096` bytes and transfers in full, hangs.

**Proof sketch.** `always_recordPass` as an invariant of the loop: no pass returns. -/
theorem record_24bit_hangs :
    4 ≤ (oneSecond fmt24Bits .wav).bufferSize ∧
      (recordLen (oneSecond fmt24Bits .wav)).toInt = 24000 ∧
      (microphone 4096).schedule.Productive ∧ (microphone 4096).schedule.Reliable ∧
      (emptyFile 4096).schedule.Productive ∧ (emptyFile 4096).schedule.Reliable ∧
      ¬ (record (fun _ => some fun _ => 0) (oneSecond fmt24Bits .wav) (microphone 4096)
        (emptyFile 4096)).Ends fun x => ∃ dev' sink', x = .ok (0, dev', sink') ∧
          sink'.written.length = 24000 := by
  refine ⟨by decide, by decide, Schedule.atMost_productive (by decide),
    Schedule.atMost_reliable 4096, Schedule.atMost_productive (by decide),
    Schedule.atMost_reliable 4096, ?_⟩
  rw [Prog.not_ends_iff]
  have h : (record (fun _ => some fun _ => 0) (oneSecond fmt24Bits .wav) (microphone 4096)
      (emptyFile 4096)).Always fun x => ¬ ∃ r, x = .ok r :=
    Prog.always_loop (fun s => always_recordPass rfl rfl (Schedule.atMost_reliable 4096)
      (Schedule.atMost_reliable 4096)) ⟨by decide, rfl, rfl⟩
  exact h.imp fun x hx ⟨dev', sink', hok, _⟩ => hx ⟨_, hok⟩

end JzPretest.Sndkit

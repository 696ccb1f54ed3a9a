import JzPretest.TestSpeaker.Copy
import JzPretest.TestSpeaker.Play

set_option relaxedAutoImplicit false
set_option autoImplicit false

/-!
# `play` without expansion

`play` expands only WAV files of 24 bits. Every other sound it just copies: a raw file to its end,
and the data of a WAV file block by block until the length in its header is used up.

## Main results

* `JzPretest.Sndkit.play_eq_copy` — without expansion, `play` is the loop that copies a stream.
* `JzPretest.Sndkit.play_raw` — a raw file is copied faithfully.
* `JzPretest.Sndkit.ends_play_cover` — of a WAV file, the blocks up to its length are copied.
-/

namespace JzPretest.Sndkit

/-- The state of the loop of `play`, for a state of the loop that copies. -/
def Copying.toPlaying (s : Copying) : Playing := ⟨s.left, s.buff, s.src, s.dst⟩

/-- Nothing is expanded in a raw file or when the format is not one of 24 bits. -/
private lemma expandBlock_eq {params : ReplayParams}
    (h : params.fileType = .raw ∨ params.format ≠ fmt24Bits) (buff : Buffer) (len : ℕ) :
    expandBlock params buff len = .ok (buff, len) := by
  apply if_neg
  rintro ⟨hwav, hfmt⟩
  rcases h with hraw | hne
  · simp [hraw] at hwav
  · exact hne hfmt

/-- A pass of the loop of `play` is one of the loop that copies.

**Proof sketch.** Both passes read, store and write in the same way; the block is not expanded
(`expandBlock_eq`). -/
private lemma playPass_eq {params : ReplayParams}
    (h : params.fileType = .raw ∨ params.format ≠ fmt24Bits) (forever : Bool) (s : Copying) :
    playPass params forever s.toPlaying =
      Pass.map Copying.toPlaying <$> copyPass params.bufferSize forever (-1) s := by
  unfold playPass copyPass Copying.toPlaying
  dsimp only
  split
  · rcases s.src.read params.bufferSize with ⟨_ | bytes, src⟩
    · rfl
    · dsimp only
      rw [map_bind]
      congr 1
      funext buff
      split
      · rfl
      · rw [expandBlock_eq h, map_bind]
        change (do let r ← writeAll buff bytes.length s.dst; _) = _
        congr 1
        funext ⟨ok, dst⟩
        cases ok <;> rfl
  · rfl

/-- **Without expansion**, `play` is the loop that copies a stream. -/
theorem play_eq_copy {malloc : ℕ → Option (ℕ → UInt8)} {byte : ℕ → UInt8} {params : ReplayParams}
    (hmalloc : malloc (allocSize params) = some byte)
    (h : params.fileType = .raw ∨ params.format ≠ fmt24Bits) (replay : Source) (dev : Sink) :
    play malloc params replay dev =
      Prog.loop (copyPass params.bufferSize (params.replayDataLen = 0) (-1))
        ⟨params.replayDataLen, ⟨allocSize params, byte⟩, replay, dev⟩ := by
  rw [play, hmalloc]
  exact Prog.loop_map Copying.toPlaying (playPass_eq h _)
    ⟨params.replayDataLen, ⟨allocSize params, byte⟩, replay, dev⟩

/-- **Playing a raw file** is a faithful copy: however the file and the device cut the bytes,
`play` ends; if no call fails it returns `0` and has written every byte of the file once and in
order; if one fails it returns `-1` and has written a prefix of them. No call fails when both are
reliable.

**Proof sketch.** Nothing is expanded in a raw file (`play_eq_copy`), and the loop that copies goes
to the end of the file (`ends_copy_forever`). -/
theorem play_raw (malloc : ℕ → Option (ℕ → UInt8)) (byte : ℕ → UInt8) (params : ReplayParams)
    (n : ℕ) (replay : Source) (dev : Sink) (hmalloc : malloc (allocSize params) = some byte)
    (hraw : params.fileType = .raw) (hlen : params.replayDataLen = 0) (hb : 1 ≤ params.bufferSize)
    (hsize : replay.size = some (replay.pos + n)) (hread : replay.schedule.Productive)
    (hwrite : dev.schedule.Productive) (hreplay : replay.failed = false)
    (hdev : dev.failed = false) :
    (play malloc params replay dev).Ends fun x => ∃ ret replay' dev', x = .ok (ret, replay', dev') ∧
      (replay'.failed = false → dev'.failed = false → ret = 0 ∧
        dev'.written = dev.written ++ slice replay.content replay.pos n) ∧
      (replay'.failed = true ∨ dev'.failed = true → ret = -1 ∧
        ∃ p, p <+: slice replay.content replay.pos n ∧ dev'.written = dev.written ++ p) ∧
      (replay.schedule.Reliable → dev.schedule.Reliable →
        replay'.failed = false ∧ dev'.failed = false) := by
  rw [play_eq_copy hmalloc (Or.inl hraw), hlen, decide_eq_true rfl]
  apply (ends_copy_forever (-1) 0 _ replay dev hb (le_allocSize params (le_refl _)).1 hsize hread
    hwrite
    hreplay hdev).imp
  rintro _ ⟨ret, replay', dev', rfl, h⟩
  refine ⟨ret, replay', dev', rfl, h.complete, fun hf => ⟨?_, h.aborted⟩, h.reliable⟩
  rcases hf with hf | hf
  · exact h.readFails hf
  · exact h.writeFails hf

/-- A raw file of `n` bytes, read at most `k` bytes at a time. -/
def rawFile (n k : ℕ) : Source :=
  ⟨fun i => UInt8.ofNat i, some n, Schedule.atMost k, 0, 0, false⟩

/-- A hundred bytes, read seven at a time and written three at a time, without a failure. -/
theorem play_raw_rawFile :
    (play (fun _ => some fun _ => 0) ⟨16, 0, fmt24Bits, .raw⟩ (rawFile 100 7)
      (loudspeaker 3)).Ends fun x => ∃ ret replay' dev', x = .ok (ret, replay', dev') ∧
      (replay'.failed = false → dev'.failed = false → ret = 0 ∧
        dev'.written = (loudspeaker 3).written ++ slice (rawFile 100 7).content 0 100) ∧
      (replay'.failed = true ∨ dev'.failed = true → ret = -1 ∧
        ∃ p, p <+: slice (rawFile 100 7).content 0 100 ∧
          dev'.written = (loudspeaker 3).written ++ p) ∧
      ((rawFile 100 7).schedule.Reliable → (loudspeaker 3).schedule.Reliable →
        replay'.failed = false ∧ dev'.failed = false) :=
  play_raw (fun _ => some fun _ => 0) (fun _ => 0) ⟨16, 0, fmt24Bits, .raw⟩ 100 (rawFile 100 7)
    (loudspeaker 3) rfl rfl rfl (by decide) rfl (Schedule.atMost_productive (by decide))
    (Schedule.atMost_productive (by decide)) rfl rfl

/-- **Playing up to a length**, with reliable streams: the blocks that cover the length are
copied, and nothing when the length is negative. -/
theorem ends_play_cover {malloc : ℕ → Option (ℕ → UInt8)} {byte : ℕ → UInt8}
    (params : ReplayParams) (replay : Source) (dev : Sink)
    (hmalloc : malloc (allocSize params) = some byte)
    (hcopy : params.fileType = .raw ∨ params.format ≠ fmt24Bits) (hb : 0 < params.bufferSize)
    (hlen : params.replayDataLen ≠ 0) (hread : replay.schedule.Productive)
    (hread' : replay.schedule.Reliable) (hwrite : dev.schedule.Productive)
    (hwrite' : dev.schedule.Reliable) :
    (play malloc params replay dev).Ends (Copies (dev.written ++
      (cover params.replayDataLen.toNat
        (replay.blocks params.bufferSize params.replayDataLen.toNat)).flatten)) := by
  rw [play_eq_copy hmalloc hcopy, decide_eq_false hlen]
  exact ends_copy_cover (-1) _ _ replay dev hb (le_allocSize params (le_refl _)).1 hread hread'
    hwrite hwrite'

end JzPretest.Sndkit

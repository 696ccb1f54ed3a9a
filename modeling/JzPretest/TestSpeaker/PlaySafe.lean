import JzPretest.TestSpeaker.PlayCopy

set_option relaxedAutoImplicit false
set_option autoImplicit false

/-!
# When `play` expands within its block

`play` expands every block of a WAV file of 24 bits in place. The block that it allocates has room
for the expansion of as many bytes as `read` can deliver, but the converter moves three samples in
any case, and its assertions fail on fewer.

## Main definitions

* `JzPretest.Sndkit.taken` — the blocks that the loop of `play` takes.

## Main results

* `JzPretest.Sndkit.play_24bit_safe_iff` — no run of `play` is stopped, exactly when every block
  that it takes has at least three samples.
* `JzPretest.Sndkit.play_24bit_aborts` — a file of ten samples and a buffer of four.
-/

namespace JzPretest.Sndkit

/-- The blocks that the loop of `play` takes: all, or those that cover what is left to play. -/
def taken (forever : Bool) (len : ℤ) (blocks : List (List UInt8)) : List (List UInt8) :=
  if forever then blocks else cover len.toNat blocks

/-- No blocks. -/
@[simp] lemma taken_nil (forever : Bool) (len : ℤ) : taken forever len [] = [] := by
  cases forever <;> rfl

/-- A block that is taken, and then those behind it. -/
lemma taken_cons {forever : Bool} {len : ℤ} (hgo : forever = true ∨ 0 < len) (b : List UInt8)
    (bs : List (List UInt8)) :
    taken forever len (b :: bs) =
      b :: taken forever (if forever then len else len - b.length) bs := by
  cases forever with
  | true => rfl
  | false =>
    have hpos : 0 < len := by simpa using hgo
    have hleft : (len - b.length).toNat = len.toNat - b.length := by omega
    simp only [taken, Bool.false_eq_true, if_false, hleft]
    exact cover_cons (by omega) b bs

/-- None is taken any more. -/
private lemma taken_of_done {forever : Bool} {len : ℤ} (hgo : ¬ (forever = true ∨ 0 < len))
    (bs : List (List UInt8)) : taken forever len bs = [] := by
  obtain ⟨hforever, hlen⟩ := not_or.mp hgo
  rw [taken, if_neg hforever, Int.toNat_of_nonpos (by omega), cover_zero]

/-- Every block that the loop will take has at least three samples. -/
def LongBlocks (params : ReplayParams) (forever : Bool) (len : ℤ) (replay : Source) : Prop :=
  ∀ n, ∀ b ∈ taken forever len (replay.blocks params.bufferSize n), 9 ≤ b.length

/-- The blocks after the next one. -/
lemma LongBlocks.next {params : ReplayParams} {forever : Bool} {len : ℤ} {replay replay' : Source}
    {bytes : List UInt8} (h : LongBlocks params forever len replay)
    (hgo : forever = true ∨ 0 < len)
    (hread : replay.read params.bufferSize = (some bytes, replay')) (hne : bytes ≠ []) :
    9 ≤ bytes.length ∧
      LongBlocks params forever (if forever then len else len - bytes.length) replay' := by
  have hblocks : ∀ n, ∀ b ∈ bytes :: taken forever (if forever then len else len - bytes.length)
      (replay'.blocks params.bufferSize n), 9 ≤ b.length := by
    intro n b hb
    rw [← taken_cons hgo, ← Source.blocks_succ hread hne] at hb
    exact h (n + 1) b hb
  exact ⟨hblocks 0 bytes (by simp), fun n b hb => hblocks n b (List.mem_cons_of_mem _ hb)⟩

section Pass

variable {params : ReplayParams} {forever : Bool} {s : Playing}

/-- As long as the blocks are long enough, no pass is stopped.

**Proof sketch.** The block that is read is long enough, so `playPass_block` says that it is
expanded, and writing it stays inside the buffer. -/
private lemma always_playPass (hwav : params.fileType = .wav) (hfmt : params.format = fmt24Bits)
    (hsize : s.buff.size = allocSize params)
    (hlong : LongBlocks params forever s.replayDataLen s.replay) :
    (playPass params forever s).Always (Prog.orAgain
      (fun s' => s'.buff.size = allocSize params ∧
        LongBlocks params forever s'.replayDataLen s'.replay)
      (fun x => ∃ r, x = .ok r)) := by
  by_cases hgo : forever = true ∨ 0 < s.replayDataLen
  · rcases hread : s.replay.read params.bufferSize with ⟨_ | bytes, replay⟩
    · rw [playPass, if_pos hgo, hread]
      exact (Prog.always_pure _).mpr ⟨_, rfl⟩
    · by_cases hne : bytes = []
      · subst hne
        rw [playPass, if_pos hgo, hread]
        exact (Prog.always_pure _).mpr ⟨_, rfl⟩
      · obtain ⟨hlen, hnext⟩ := hlong.next hgo hread hne
        rcases playPass_block hwav hfmt hsize hgo hread hne with
          ⟨hshort, -⟩ | ⟨-, buff, hbuff, hle, -, hpass⟩
        · omega
        · rw [hpass, Prog.always_bind]
          refine Prog.Always.imp (always_ok_writeAll s.dev hle) ?_
          rintro _ ⟨⟨ok, dev⟩, rfl⟩
          rw [Prog.andThen_ok]
          cases ok with
          | false => exact (Prog.always_pure _).mpr ⟨_, rfl⟩
          | true => exact (Prog.always_pure _).mpr ⟨hbuff, hnext⟩
  · rw [playPass, if_neg hgo]
    exact (Prog.always_pure _).mpr ⟨_, rfl⟩

end Pass

/-- **A block that is too short** stops the program, if the device takes what comes before it.

**Proof sketch.** Induction on the reads up to that block. -/
theorem ends_error_of_short (params : ReplayParams) (forever : Bool)
    (hwav : params.fileType = .wav) (hfmt : params.format = fmt24Bits) (n : ℕ) :
    ∀ s : Playing, s.buff.size = allocSize params → s.dev.schedule.Productive →
      s.dev.schedule.Reliable →
      (∃ b ∈ taken forever s.replayDataLen (s.replay.blocks params.bufferSize n), b.length < 9) →
      (Prog.loop (playPass params forever) s).Ends fun x => ∃ e, x = .error e := by
  induction n with
  | zero =>
    rintro s - - - ⟨b, hb, -⟩
    simp [Source.blocks] at hb
  | succ n ih =>
    rintro s hsize hprod hrel ⟨b, hb, hshort⟩
    by_cases hgo : forever = true ∨ 0 < s.replayDataLen
    · rcases hread : s.replay.read params.bufferSize with ⟨_ | bytes, replay⟩
      · simp [Source.blocks, hread] at hb
      · by_cases hne : bytes = []
        · subst hne
          simp [Source.blocks, hread] at hb
        · rw [Source.blocks_succ hread hne, taken_cons hgo] at hb
          rw [Prog.ends_loop]
          rcases playPass_block hwav hfmt hsize hgo hread hne with
            ⟨-, e, hpass⟩ | ⟨hlong, buff, hbuff, hle, -, hpass⟩
          · rw [hpass]
            exact (Prog.ends_lift _).mpr ⟨e, rfl⟩
          · rw [hpass, Prog.ends_bind]
            apply (ends_writeAll buff _ s.dev hle hprod).imp
            rintro _ ⟨ok, dev, rfl, hw⟩
            rw [Prog.andThen_ok]
            cases ok with
            | false => exact absurd hrel (hw.failed rfl).2
            | true =>
              have hlater : b ∈ taken forever
                  (if forever then s.replayDataLen else s.replayDataLen - bytes.length)
                  (replay.blocks params.bufferSize n) := by
                rcases List.mem_cons.mp hb with rfl | hb
                · omega
                · exact hb
              exact (Prog.ends_pure _).mpr (ih _ hbuff (hw.schedule ▸ hprod) (hw.schedule ▸ hrel)
                ⟨b, hlater, hshort⟩)
    · rw [taken_of_done hgo] at hb
      simp at hb

/-- **Playing 24 bits, exactly when no run is stopped**: whatever the device does, no access leaves
the allocated block and no assertion fails, if and only if there is no memory for the block, or each
block that is taken from the file has at least nine bytes: each up to the end of the file, or
each up to the length that is to be played.

**Proof sketch.** A short block stops the run with a device that takes everything
(`ends_error_of_short`). Conversely, that all blocks from here on are long enough is an invariant of
the loop (`always_playPass`). -/
theorem play_24bit_safe_iff (malloc : ℕ → Option (ℕ → UInt8)) (bufferSize : ℕ) (replayDataLen : ℤ)
    (replay : Source) :
    (∀ dev, (play malloc ⟨bufferSize, replayDataLen, fmt24Bits, .wav⟩ replay dev).Always
        fun x => ∃ r, x = .ok r) ↔
      malloc (allocSize ⟨bufferSize, replayDataLen, fmt24Bits, .wav⟩) = none ∨
        ∀ n, ∀ b ∈ taken (replayDataLen = 0) replayDataLen (replay.blocks bufferSize n),
          9 ≤ b.length := by
  unfold play
  cases hmalloc : malloc (allocSize ⟨bufferSize, replayDataLen, fmt24Bits, .wav⟩) with
  | none => exact iff_of_true (fun dev => (Prog.always_pure _).mpr ⟨_, rfl⟩) (Or.inl rfl)
  | some byte =>
    dsimp only
    constructor
    · refine fun h => Or.inr fun n b hb => ?_
      by_contra hshort
      have hends := ends_error_of_short ⟨bufferSize, replayDataLen, fmt24Bits, .wav⟩
        (replayDataLen = 0) rfl rfl n ⟨replayDataLen, ⟨_, byte⟩, replay, loudspeaker 1⟩ rfl
        (Schedule.atMost_productive (by decide)) (Schedule.atMost_reliable 1) ⟨b, hb, by omega⟩
      obtain ⟨m, x, hx, e, rfl⟩ := hends
      obtain ⟨r, hr⟩ := h (loudspeaker 1) m _ hx
      simp at hr
    · rintro (h | h) dev
      · simp at h
      · refine Prog.always_loop (I := fun s => s.buff.size =
            allocSize ⟨bufferSize, replayDataLen, fmt24Bits, .wav⟩ ∧
            LongBlocks ⟨bufferSize, replayDataLen, fmt24Bits, .wav⟩ (replayDataLen = 0)
              s.replayDataLen s.replay) (fun s hs => ?_) ?_
        · exact always_playPass rfl rfl hs.1 hs.2
        · exact ⟨rfl, h⟩

/-- Ten samples, and a buffer of four that every read fills as far as it can: the last block has
six bytes, and the program is stopped. -/
theorem play_24bit_aborts :
    (samples 10 12).schedule.Productive ∧ (samples 10 12).schedule.Reliable ∧
      ¬ ∀ dev, (play (fun _ => some fun _ => 0) ⟨12, 30, fmt24Bits, .wav⟩ (samples 10 12)
        dev).Always fun x => ∃ r, x = .ok r := by
  refine ⟨Schedule.atMost_productive (by decide), Schedule.atMost_reliable 12, fun h => ?_⟩
  have hrun : ((play (fun _ => some fun _ => 0) ⟨12, 30, fmt24Bits, .wav⟩ (samples 10 12)
      (loudspeaker 16)).run 4).map Except.isOk = some false := rfl
  obtain ⟨x, hx, hfault⟩ := Option.map_eq_some_iff.mp hrun
  obtain ⟨r, rfl⟩ := h (loudspeaker 16) 4 x hx
  simp [Except.isOk, Except.toBool] at hfault

end JzPretest.Sndkit

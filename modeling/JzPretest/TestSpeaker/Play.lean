import JzPretest.TestSpeaker.Sndkit
import JzPretest.TestSpeaker.Wav

set_option relaxedAutoImplicit false
set_option autoImplicit false

/-!
# `play`

`play` copies a sound file to the device, block by block. It expands every block of a WAV file of
24 bits, by itself: the bytes of a sample that is cut by the end of a block are dropped, and a
block of fewer than three samples stops the program.

## Main definitions

* `JzPretest.Sndkit.play` — the function.
* `JzPretest.Sndkit.playBlocks` — what becomes of the blocks.

## Main results

* `JzPretest.Sndkit.play_24bit_iff` — the device gets the expansion of the whole file exactly when
  every block consists of whole samples, at least three of them.
-/

namespace JzPretest.Sndkit

/-- `struct replay_params`, but for the two descriptors and what is only printed. -/
structure ReplayParams where
  bufferSize : ℕ
  replayDataLen : ℤ
  format : Int32
  fileType : FileType

/-- The size of the block that `play` allocates, where the products stay within an `int`. -/
def allocSize (params : ReplayParams) : ℕ :=
  if params.format = fmt24Bits then
    (if params.bufferSize % 3 ≠ 0 then (params.bufferSize / 3 + 1) * 3
      else params.bufferSize) / 3 * 4
  else params.bufferSize

/-- Expanding a block, where `play` does that: the block, and the bytes to write. -/
def expandBlock (params : ReplayParams) (buff : Buffer) (len : ℕ) : Except Fault (Buffer × ℕ) :=
  if params.fileType = .wav ∧ params.format = fmt24Bits then do
    let len := len / 3 * 3
    let buff ← wavExpand24bitTo32bit buff len
    return (buff, len / 3 * 4)
  else return (buff, len)

/-- The state of the loop of `play`. -/
structure Playing where
  replayDataLen : ℤ
  buff : Buffer
  replay : Source
  dev : Sink

/-- One pass of the loop of `play`. -/
def playPass (params : ReplayParams) (forever : Bool) (s : Playing) :
    Prog Fault (Pass Playing (Int32 × Source × Sink)) :=
  if forever = true ∨ 0 < s.replayDataLen then
    match s.replay.read params.bufferSize with
    | (none, replay) => return .leave (-1, replay, s.dev)
    | (some bytes, replay) => do
      let buff ← s.buff.storeAll 0 bytes
      if bytes.length = 0 then return .leave (0, replay, s.dev)
      else do
        let replayDataLen :=
          if forever then s.replayDataLen else s.replayDataLen - bytes.length
        let (buff, len) ← expandBlock params buff bytes.length
        let (ok, dev) ← writeAll buff len s.dev
        if ok then return .again ⟨replayDataLen, buff, replay, dev⟩
        else return .leave (-1, replay, dev)
  else return .leave (0, s.replay, s.dev)

/-- `play`: the returned value, the file and the device. `malloc` gives the bytes of a new block,
or `none` when there is no memory. -/
def play (malloc : ℕ → Option (ℕ → UInt8)) (params : ReplayParams) (replay : Source)
    (dev : Sink) : Prog Fault (Int32 × Source × Sink) :=
  match malloc (allocSize params) with
  | none => return (-1, replay, dev)
  | some byte =>
    Prog.loop (playPass params (params.replayDataLen = 0))
      ⟨params.replayDataLen, ⟨allocSize params, byte⟩, replay, dev⟩

/-- A block that is read fits into the block that is allocated, also when it is expanded. -/
theorem le_allocSize (params : ReplayParams) {n : ℕ} (hn : n ≤ params.bufferSize) :
    n ≤ allocSize params ∧ (params.format = fmt24Bits → 4 * (n / 3) ≤ allocSize params) := by
  unfold allocSize
  split_ifs
  · exact ⟨by omega, fun _ => by omega⟩
  · exact ⟨by omega, fun _ => by omega⟩
  · exact ⟨hn, fun h => absurd h ‹_›⟩

/-! ## What becomes of the blocks -/

/-- What `play` writes for the blocks of a WAV file of 24 bits: the expansion of each, unless one
of them stops the program. -/
def playBlocks : List (List UInt8) → List UInt8 → Option (List UInt8)
  | [], out => some out
  | b :: bs, out => if b.length < 9 then none else playBlocks bs (out ++ expand24 b)

/-- No more is written than the expansion of the whole, and less if a block ends within a
sample.

**Proof sketch.** Induction on the blocks: a block of `n` bytes adds `4 * (n / 3)`, which is four
thirds of it only if `n` is a multiple of three. -/
private lemma length_playBlocks_le : ∀ (bs : List (List UInt8)) (out w : List UInt8),
    playBlocks bs out = some w →
      3 * w.length ≤ 3 * out.length + 4 * bs.flatten.length ∧
        (3 * w.length = 3 * out.length + 4 * bs.flatten.length →
          ∀ b ∈ bs, 3 ∣ b.length ∧ 9 ≤ b.length) := by
  intro bs
  induction bs with
  | nil =>
    intro out w h
    obtain rfl : out = w := Option.some.inj h
    simp
  | cons b bs ih =>
    intro out w h
    rw [playBlocks] at h
    split_ifs at h with hlen
    obtain ⟨hle, heq⟩ := ih _ _ h
    rw [List.length_append, length_expand24] at hle heq
    rw [List.flatten_cons, List.length_append]
    refine ⟨by omega, fun hw => List.forall_mem_cons.mpr ⟨⟨by omega, by omega⟩, heq (by omega)⟩⟩

/-- **Blocks of whole samples**, at least three in each, and only such, give the expansion of the
whole.

**Proof sketch.** The lengths are equal only for blocks of whole samples (`length_playBlocks_le`);
the expansion of such blocks is that of the whole. -/
theorem playBlocks_eq_iff (bs : List (List UInt8)) (out : List UInt8)
    (h3 : 3 ∣ bs.flatten.length) :
    playBlocks bs out = some (out ++ expand24 bs.flatten) ↔
      ∀ b ∈ bs, 3 ∣ b.length ∧ 9 ≤ b.length := by
  constructor
  · intro h
    apply (length_playBlocks_le bs out _ h).2
    rw [List.length_append, length_expand24]
    omega
  · intro h
    clear h3
    induction bs generalizing out with
    | nil => simp [playBlocks, expand24]
    | cons b bs ih =>
      obtain ⟨⟨h3, h9⟩, hbs⟩ := List.forall_mem_cons.mp h
      rw [playBlocks, if_neg (by omega), ih _ hbs, List.flatten_cons, expand24_append _ h3,
        List.append_assoc]

/-! ## The loop -/

/-- Expanding a block of samples: it becomes the expansion of its bytes, or stops the program when
it is shorter than three samples.

**Proof sketch.** Fewer than nine bytes stop the converter; otherwise it expands the samples in
place (`wavExpand24bitTo32bit_eq`). -/
private lemma expandBlock_cases {params : ReplayParams} (hwav : params.fileType = .wav)
    (hfmt : params.format = fmt24Bits) {buff : Buffer} {bytes : List UInt8}
    (hbuff : slice buff.byte 0 bytes.length = bytes)
    (hsize : 4 * (bytes.length / 3) ≤ buff.size) :
    (bytes.length < 9 ∧ ∃ e, expandBlock params buff bytes.length = .error e) ∨
    (9 ≤ bytes.length ∧ ∃ buff', expandBlock params buff bytes.length =
        .ok (buff', 4 * (bytes.length / 3)) ∧ buff'.size = buff.size ∧
      slice buff'.byte 0 (4 * (bytes.length / 3)) = expand24 bytes) := by
  rw [expandBlock, if_pos ⟨hwav, hfmt⟩]
  have h3 : bytes.length / 3 * 3 / 3 = bytes.length / 3 := by omega
  by_cases hlen : bytes.length < 9
  · obtain ⟨e, he⟩ := wavExpand24bitTo32bit_of_lt buff
      (show bytes.length / 3 * 3 < 9 by omega)
    exact Or.inl ⟨hlen, e, by simp only [he, bind, Except.bind]⟩
  · obtain ⟨buff', hexp, hsize', hbyte⟩ := wavExpand24bitTo32bit_eq buff
      (show 9 ≤ bytes.length / 3 * 3 by omega) (by rw [h3]; exact hsize)
    rw [h3] at hbyte
    refine Or.inr ⟨by omega, buff', ?_, hsize', ?_⟩
    · rw [Nat.mul_comm 4]
      simp only [hexp, bind, Except.bind, pure, Except.pure, h3]
    · rw [slice_wavExpand24bitTo32bit fun i hi => by rw [hbyte, if_pos hi],
        ← take_slice _ _ (show 3 * (bytes.length / 3) ≤ bytes.length by omega), hbuff,
        expand24_take]

/-- **A pass that reads a block**: fewer than three samples stop the program; otherwise the expanded
block lies in the buffer and is written.

**Proof sketch.** The allocated block has room for what has been read and for its expansion, so the
bytes are stored; the rest is `expandBlock_cases`. -/
theorem playPass_block {params : ReplayParams} {forever : Bool} {s : Playing}
    (hwav : params.fileType = .wav) (hfmt : params.format = fmt24Bits)
    (hsize : s.buff.size = allocSize params) (hgo : forever = true ∨ 0 < s.replayDataLen)
    {bytes : List UInt8} {replay : Source}
    (hread : s.replay.read params.bufferSize = (some bytes, replay)) (hne : bytes ≠ []) :
    (bytes.length < 9 ∧ ∃ e, playPass params forever s = Prog.lift (.error e)) ∨
    (9 ≤ bytes.length ∧ ∃ buff, buff.size = allocSize params ∧
      4 * (bytes.length / 3) ≤ buff.size ∧
      slice buff.byte 0 (4 * (bytes.length / 3)) = expand24 bytes ∧
      playPass params forever s =
        writeAll buff (4 * (bytes.length / 3)) s.dev >>= fun written =>
          if written.1 then pure (.again
            ⟨if forever then s.replayDataLen else s.replayDataLen - bytes.length, buff, replay,
              written.2⟩)
          else pure (.leave (-1, replay, written.2))) := by
  obtain ⟨halloc, hexpand⟩ := le_allocSize params (Source.length_le_of_read hread).1
  have hstore : s.buff.storeAll 0 bytes = .ok (s.buff.overlay 0 bytes) := by
    apply Buffer.storeAll_eq
    rw [hsize]
    omega
  have hlen : bytes.length ≠ 0 := fun h => hne (List.eq_nil_of_length_eq_zero h)
  rw [playPass, if_pos hgo, hread]
  dsimp only
  rw [hstore]
  rcases expandBlock_cases hwav hfmt (Buffer.slice_overlay s.buff 0 bytes)
    (by rw [Buffer.overlay_size, hsize]; exact hexpand hfmt) with
    ⟨hshort, e, he⟩ | ⟨hlong, buff, he, hbuff, hslice⟩
  · refine Or.inl ⟨hshort, e, ?_⟩
    change (if bytes.length = 0 then _ else _ : Prog Fault _) = _
    rw [if_neg hlen, he]
    rfl
  · have hbuff : buff.size = allocSize params := hbuff.trans hsize
    refine Or.inr ⟨hlong, buff, hbuff, hbuff ▸ hexpand hfmt, hslice, ?_⟩
    change (if bytes.length = 0 then _ else _ : Prog Fault _) = _
    rw [if_neg hlen, he]
    rfl

/-- The outcome that goes with what is to be written: `play` returns `0` and has written it, or
stops with a fault when the blocks stop it. -/
def Played (result : Option (List UInt8)) (x : Except Fault (Int32 × Source × Sink)) : Prop :=
  match result with
  | some w => ∃ replay' dev', x = .ok (0, replay', dev') ∧ dev'.written = w
  | none => ∃ e, x = .error e

/-- The state of the loop of `play` when what it will have written in the end is `result`. -/
structure WillPlay (params : ReplayParams) (replay : Source) (dev : Sink)
    (result : Option (List UInt8)) (left : ℕ) (s : Playing) : Prop where
  len : s.replayDataLen = left
  buffSize : s.buff.size = allocSize params
  source : s.replay.schedule = replay.schedule
  size : s.replay.size = some (s.replay.pos + left)
  sink : s.dev.schedule = dev.schedule
  result : ∃ n, left ≤ n ∧
    playBlocks (s.replay.blocks params.bufferSize n) s.dev.written = result

namespace WillPlay

variable {params : ReplayParams} {replay : Source} {dev : Sink} {result : Option (List UInt8)}
  {left : ℕ} {s : Playing}

/-- At the end of the file the result has been written. -/
private lemma played (h : WillPlay params replay dev result 0 s) :
    Played result (.ok (0, s.replay, s.dev)) := by
  obtain ⟨n, -, hresult⟩ := h.result
  rw [Source.blocks_eq_nil (by simpa using h.size), playBlocks] at hresult
  subst hresult
  exact ⟨s.replay, s.dev, rfl, rfl⟩

/-- Before the end, a read delivers a block, and the result is what becomes of that block and of
the blocks after it.

**Proof sketch.** The schedule is reliable and productive, so a read before the end delivers at
least one byte, and that is the next block. -/
private lemma exists_read (h : WillPlay params replay dev result left s) (hleft : left ≠ 0)
    (hb : 0 < params.bufferSize) (hread : replay.schedule.Productive)
    (hread' : replay.schedule.Reliable) :
    ∃ bytes n, bytes.length ≠ 0 ∧ bytes.length ≤ params.bufferSize ∧ bytes.length ≤ left ∧
      left ≤ n + 1 ∧ s.replay.read params.bufferSize =
        (some bytes, s.replay.advance bytes.length) ∧
      playBlocks (bytes :: (s.replay.advance bytes.length).blocks params.bufferSize n)
        s.dev.written = result := by
  obtain ⟨n, hn, hresult⟩ := h.result
  rcases s.replay.read_cases (by rw [h.source]; exact hread) hb with
    ⟨hans, -⟩ | ⟨k, hk, hr, hkleft, hzero⟩
  · rw [h.source] at hans
    exact absurd hans (hread' _ _)
  · have hkl := hkleft _ h.size
    have hkpos : k ≠ 0 := by
      intro h0
      obtain ⟨m, hm, hend⟩ := hzero h0
      rw [h.size, Option.some.injEq] at hm
      omega
    obtain ⟨n, rfl⟩ : ∃ m, n = m + 1 := ⟨n - 1, by omega⟩
    have hne : slice s.replay.content s.replay.pos k ≠ [] := by
      apply List.ne_nil_of_length_pos
      rw [length_slice]
      omega
    rw [Source.blocks_succ hr hne] at hresult
    refine ⟨slice s.replay.content s.replay.pos k, n, ?_⟩
    rw [length_slice]
    exact ⟨hkpos, hk, by omega, hn, hr, hresult⟩

end WillPlay

/-- **One pass of the loop** does to the next block what is to be done to it.

**Proof sketch.** With nothing left the loop is done. Otherwise `exists_read` and `playPass_block`:
the program is stopped, or what was expanded is written in full, and less is left. -/
theorem ends_playPass {params : ReplayParams} {replay : Source} {dev : Sink}
    {result : Option (List UInt8)} {left : ℕ} {s : Playing} (hwav : params.fileType = .wav)
    (hfmt : params.format = fmt24Bits) (hb : 0 < params.bufferSize)
    (hread : replay.schedule.Productive) (hread' : replay.schedule.Reliable)
    (hwrite : dev.schedule.Productive) (hwrite' : dev.schedule.Reliable)
    (h : WillPlay params replay dev result left s) :
    (playPass params false s).Ends (Prog.orAgain
      (fun s' => (∃ left', WillPlay params replay dev result left' s') ∧
        s'.replayDataLen.toNat < s.replayDataLen.toNat)
      (Played result)) := by
  have hlen := h.len
  by_cases hleft : left = 0
  · subst hleft
    rw [playPass, if_neg (by simp [hlen])]
    exact (Prog.ends_pure _).mpr h.played
  · obtain ⟨bytes, n, hne, hle, hleleft, hn, hr, hresult⟩ := h.exists_read hleft hb hread hread'
    rw [playBlocks] at hresult
    rcases playPass_block hwav hfmt h.buffSize (Or.inr (by omega)) hr
      (fun hnil => hne (by rw [hnil]; rfl)) with
      ⟨hshort, e, hpass⟩ | ⟨hlong, buff', hsize', hfits, hslice, hpass⟩
    · rw [if_pos hshort] at hresult
      subst hresult
      rw [hpass]
      exact (Prog.ends_lift _).mpr ⟨e, rfl⟩
    · rw [if_neg (by omega)] at hresult
      rw [hpass, Prog.ends_bind]
      apply (ends_writeAll buff' _ s.dev hfits (by rw [h.sink]; exact hwrite)).imp
      rintro _ ⟨ok, dev', rfl, hw⟩
      rw [hslice] at hw
      rw [Prog.andThen_ok]
      cases ok with
      | false =>
        have hrel := (hw.failed rfl).2
        rw [h.sink] at hrel
        exact absurd hwrite' hrel
      | true =>
        have hwritten := (hw.all rfl).1
        refine (Prog.ends_pure _).mpr ⟨⟨left - bytes.length, ?_, hsize', h.source, ?_,
          hw.schedule.trans h.sink, n, by omega, by rw [hwritten]; exact hresult⟩, ?_⟩
        · simp only [Bool.false_eq_true, if_false]
          omega
        · rw [Source.advance_size, h.size, Source.advance_pos]
          congr 1
          omega
        · simp only [Bool.false_eq_true, if_false]
          omega

/-- **What `play` does to a WAV file of 24 bits**: it writes what is to be written for the blocks
it reads, or stops at the first block that is too short.

**Proof sketch.** The loop with `WillPlay` as its invariant and the length that is left as its
variant. -/
theorem ends_play_24bit {malloc : ℕ → Option (ℕ → UInt8)} {byte : ℕ → UInt8}
    {params : ReplayParams} {left : ℕ} {replay : Source} {dev : Sink}
    (hmalloc : malloc (allocSize params) = some byte) (hwav : params.fileType = .wav)
    (hfmt : params.format = fmt24Bits) (hb : 0 < params.bufferSize) (hleft : 0 < left)
    (hlen : params.replayDataLen = left) (hsize : replay.size = some (replay.pos + left))
    (hread : replay.schedule.Productive) (hread' : replay.schedule.Reliable)
    (hwrite : dev.schedule.Productive) (hwrite' : dev.schedule.Reliable) :
    (play malloc params replay dev).Ends
      (Played (playBlocks (replay.blocks params.bufferSize left) dev.written)) := by
  have hforever : decide (params.replayDataLen = 0) = false := by
    simp only [decide_eq_false_iff_not]
    omega
  rw [play, hmalloc, hforever]
  dsimp only
  refine Prog.ends_loop_of_variant (I := fun s => ∃ left', WillPlay params replay dev
    (playBlocks (replay.blocks params.bufferSize left) dev.written) left' s)
    (fun s => s.replayDataLen.toNat) ?_ ⟨left, hlen, rfl, rfl, hsize, rfl, left, le_refl _, rfl⟩
  rintro s ⟨left', h⟩
  exact ends_playPass hwav hfmt hb hread hread' hwrite hwrite' h

/-- **Playing 24 bits, exactly when it works**: the device gets, for all samples of the file, the
three bytes followed by a zero byte, if and only if every block that `read` delivers consists of
whole samples, at least three of them.

**Proof sketch.** `play` does what `playBlocks` says (`ends_play_24bit`), and the blocks make up
the file. Bytes after the last whole sample of a block are dropped, so the device gets less than
the expansion of the whole as soon as one block is not made of whole samples
(`playBlocks_eq_iff`). -/
theorem play_24bit_iff (malloc : ℕ → Option (ℕ → UInt8)) (byte : ℕ → UInt8)
    (params : ReplayParams) (m : ℕ) (replay : Source) (dev : Sink)
    (hmalloc : malloc (allocSize params) = some byte) (hwav : params.fileType = .wav)
    (hfmt : params.format = fmt24Bits) (hb : 9 ≤ params.bufferSize) (hm : 3 ≤ m)
    (hlen : params.replayDataLen = 3 * m) (hsize : replay.size = some (replay.pos + 3 * m))
    (hread : replay.schedule.Productive) (hread' : replay.schedule.Reliable)
    (hwrite : dev.schedule.Productive) (hwrite' : dev.schedule.Reliable) :
    ((play malloc params replay dev).Ends fun x => ∃ replay' dev', x = .ok (0, replay', dev') ∧
        dev'.written = dev.written ++ expand24 (slice replay.content replay.pos (3 * m))) ↔
      ∀ b ∈ replay.blocks params.bufferSize (3 * m), 3 ∣ b.length ∧ 9 ≤ b.length := by
  have hflat := Source.flatten_blocks (q := params.bufferSize) (by omega) (3 * m) hread hread'
    hsize (le_refl _)
  have hends := ends_play_24bit hmalloc hwav hfmt (by omega) (by omega) (by exact_mod_cast hlen)
    hsize hread hread' hwrite hwrite'
  rw [← playBlocks_eq_iff _ dev.written (by rw [hflat, length_slice]; omega), hflat]
  constructor
  · intro h
    obtain ⟨n, x, hx, hp⟩ := hends
    obtain ⟨replay', dev', rfl, hw⟩ := h.always n x hx
    cases hres : playBlocks (replay.blocks params.bufferSize (3 * m)) dev.written with
    | none =>
      rw [hres] at hp
      obtain ⟨e, he⟩ := hp
      simp at he
    | some w =>
      rw [hres] at hp
      obtain ⟨replay'', dev'', hok, rfl⟩ := hp
      simp only [Except.ok.injEq, Prod.mk.injEq] at hok
      obtain ⟨-, -, rfl⟩ := hok
      rw [hw]
  · intro hres
    rw [hres] at hends
    exact hends

/-- A file of `m` samples of 24 bits, read at most `k` bytes at a time. -/
def samples (m k : ℕ) : Source :=
  ⟨fun i => UInt8.ofNat i, some (3 * m), Schedule.atMost k, 0, 0, false⟩

/-- A device that takes at most `k` bytes at a time. -/
def loudspeaker (k : ℕ) : Sink := ⟨[], Schedule.atMost k, 0, false⟩

/-- Six samples, in two blocks of nine bytes. -/
theorem play_24bit_iff_samples :
    ((play (fun _ => some fun _ => 0) ⟨9, 18, fmt24Bits, .wav⟩ (samples 6 9) (loudspeaker 5)).Ends
        fun x => ∃ replay' dev', x = .ok (0, replay', dev') ∧
          dev'.written = (loudspeaker 5).written ++ expand24 (slice (samples 6 9).content 0 18)) ↔
      ∀ b ∈ (samples 6 9).blocks 9 18, 3 ∣ b.length ∧ 9 ≤ b.length :=
  play_24bit_iff (fun _ => some fun _ => 0) (fun _ => 0) ⟨9, 18, fmt24Bits, .wav⟩ 6 (samples 6 9)
    (loudspeaker 5) rfl rfl rfl (by decide) (by decide) rfl rfl
    (Schedule.atMost_productive (by decide)) (Schedule.atMost_reliable 9)
    (Schedule.atMost_productive (by decide)) (Schedule.atMost_reliable 5)

/-- Four samples, with a buffer of ten bytes and transfers in full: the second block is two bytes
long, and stops the program.

**Proof sketch.** `ends_play_24bit` for these blocks: the second one is too short, so the run ends
with an error. -/
theorem play_24bit_stops :
    (samples 4 10).schedule.Productive ∧ (samples 4 10).schedule.Reliable ∧
      (loudspeaker 10).schedule.Productive ∧ (loudspeaker 10).schedule.Reliable ∧
      ¬ (play (fun _ => some fun _ => 0) ⟨10, 12, fmt24Bits, .wav⟩ (samples 4 10)
          (loudspeaker 10)).Ends fun x => ∃ replay' dev', x = .ok (0, replay', dev') ∧
            dev'.written = (loudspeaker 10).written ++
              expand24 (slice (samples 4 10).content 0 12) := by
  refine ⟨Schedule.atMost_productive (by decide), Schedule.atMost_reliable 10,
    Schedule.atMost_productive (by decide), Schedule.atMost_reliable 10, fun h => ?_⟩
  have hends : (play (fun _ => some fun _ => 0) ⟨10, 12, fmt24Bits, .wav⟩ (samples 4 10)
      (loudspeaker 10)).Ends (Played (playBlocks ((samples 4 10).blocks 10 12) [])) :=
    ends_play_24bit rfl rfl rfl (by decide) (by decide) rfl rfl
      (Schedule.atMost_productive (by decide)) (Schedule.atMost_reliable 10)
      (Schedule.atMost_productive (by decide)) (Schedule.atMost_reliable 10)
  obtain ⟨n, x, hx, hp⟩ := hends
  obtain ⟨replay', dev', rfl, -⟩ := h.always n x hx
  obtain ⟨e, he⟩ := hp
  simp at he

end JzPretest.Sndkit

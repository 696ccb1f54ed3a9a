import JzPretest.TestSpeaker.Sndkit

set_option relaxedAutoImplicit false
set_option autoImplicit false

/-!
# The loop that copies a stream

`play` (where it expands nothing), `makewav` and `strip_wav` copy one stream to another with the
same loop: a block is read into the buffer and written out, until as many bytes as are to be
copied have been read, or the stream is at its end. The last block is not cut to what is left.

## Main definitions

* `JzPretest.Sndkit.copyPass` — one pass of the loop.
* `JzPretest.Sndkit.CopyStep` — everything a pass can do.
* `JzPretest.Sndkit.cover` — the blocks that the loop copies.

## Main results

* `JzPretest.Sndkit.ends_copyPass` — a pass does nothing else.
* `JzPretest.Sndkit.ends_copy_cover` — with reliable streams, the blocks up to the length are
  copied.
* `JzPretest.Sndkit.ends_copy_forever` — without a length, the whole stream is copied, and a
  prefix of it when some call fails.
-/

namespace JzPretest.Sndkit

/-- The state of the loop: how many bytes are left to copy, the buffer and the two streams. -/
structure Copying where
  left : ℤ
  buff : Buffer
  src : Source
  dst : Sink

/-- One pass of the loop, with blocks of `q` bytes. A failure of `read` makes the function return
`readFailed`; no bytes left to copy, or the end of the stream, makes it return `0`. -/
def copyPass (q : ℕ) (forever : Bool) (readFailed : Int32) (s : Copying) :
    Prog Fault (Pass Copying (Int32 × Source × Sink)) :=
  if forever = true ∨ 0 < s.left then
    match s.src.read q with
    | (none, src) => return .leave (readFailed, src, s.dst)
    | (some bytes, src) => do
      let buff ← s.buff.storeAll 0 bytes
      if bytes.length = 0 then return .leave (0, src, s.dst)
      else do
        let left := if forever then s.left else s.left - bytes.length
        let (ok, dst) ← writeAll buff bytes.length s.dst
        if ok then return .again ⟨left, buff, src, dst⟩
        else return .leave (-1, src, dst)
  else return .leave (0, s.src, s.dst)

/-- **Everything a pass can do**: to leave because nothing is left, because `read` fails or because
the stream is at its end; or to write the block that was read, or to leave when that fails. -/
inductive CopyStep (q : ℕ) (forever : Bool) (readFailed : Int32) (s : Copying) :
    Except Fault (Pass Copying (Int32 × Source × Sink)) → Prop
  | done (hf : forever = false) (hleft : s.left ≤ 0) :
      CopyStep q forever readFailed s (.ok (.leave (0, s.src, s.dst)))
  | readFails (hrel : ¬ s.src.schedule.Reliable) :
      CopyStep q forever readFailed s (.ok (.leave (readFailed, s.src.fail, s.dst)))
  | atEnd (k : ℕ) (hsize : s.src.size = some k) (hpos : k ≤ s.src.pos)
      (hread : s.src.read q = (some [], s.src.advance 0)) :
      CopyStep q forever readFailed s (.ok (.leave (0, s.src.advance 0, s.dst)))
  | copied (n : ℕ) (buff : Buffer) (dst : Sink) (hgo : forever = true ∨ 0 < s.left)
      (hn : 0 < n) (hnk : ∀ k, s.src.size = some k → n ≤ k - s.src.pos)
      (hread : s.src.read q = (some (slice s.src.content s.src.pos n), s.src.advance n))
      (hbuff : buff.size = s.buff.size)
      (hwrote : Wrote s.dst (slice s.src.content s.src.pos n) true dst) :
      CopyStep q forever readFailed s
        (.ok (.again ⟨if forever then s.left else s.left - n, buff, s.src.advance n, dst⟩))
  | writeFails (n : ℕ) (dst : Sink) (hnk : ∀ k, s.src.size = some k → n ≤ k - s.src.pos)
      (hwrote : Wrote s.dst (slice s.src.content s.src.pos n) false dst) :
      CopyStep q forever readFailed s (.ok (.leave (-1, s.src.advance n, dst)))

/-- **One pass of the loop** ends, and does nothing else than `CopyStep` says.

**Proof sketch.** By what the read answers: a failure or the end of the stream leaves the loop. A
block is stored and written by `ends_writeAll`, which fails or writes all of it. -/
theorem ends_copyPass {q : ℕ} {forever : Bool} {readFailed : Int32} {s : Copying} (hq : 0 < q)
    (hbuff : q ≤ s.buff.size) (hread : s.src.schedule.Productive)
    (hwrite : s.dst.schedule.Productive) :
    (copyPass q forever readFailed s).Ends (CopyStep q forever readFailed s) := by
  unfold copyPass
  by_cases hgo : forever = true ∨ 0 < s.left
  · rw [if_pos hgo]
    rcases s.src.read_cases hread hq with ⟨hans, hr⟩ | ⟨n, hn, hr, hnk, hzero⟩
    · rw [hr]
      exact (Prog.ends_pure _).mpr (.readFails fun hrel => hrel _ _ hans)
    · have hstore : s.buff.storeAll 0 (slice s.src.content s.src.pos n) =
          .ok (s.buff.overlay 0 (slice s.src.content s.src.pos n)) := by
        apply Buffer.storeAll_eq
        rw [length_slice]
        omega
      have hfill := Buffer.slice_overlay s.buff 0 (slice s.src.content s.src.pos n)
      rw [length_slice] at hfill
      rw [hr]
      dsimp only
      rw [Prog.ends_bind, Prog.ends_liftM, hstore, Prog.andThen_ok, length_slice]
      by_cases hn0 : n = 0
      · subst hn0
        obtain ⟨k, hk, hpos⟩ := hzero rfl
        rw [if_pos rfl]
        exact (Prog.ends_pure _).mpr (.atEnd k hk hpos hr)
      · rw [if_neg hn0, Prog.ends_bind]
        apply (ends_writeAll _ n s.dst (by rw [Buffer.overlay_size]; omega) hwrite).imp
        rintro _ ⟨ok, dst, rfl, hw⟩
        rw [hfill] at hw
        rw [Prog.andThen_ok]
        cases ok with
        | false => exact (Prog.ends_pure _).mpr (.writeFails n dst hnk hw)
        | true =>
          exact (Prog.ends_pure _).mpr
            (.copied n _ dst hgo (Nat.pos_of_ne_zero hn0) hnk hr (Buffer.overlay_size _ _ _) hw)
  · rw [if_neg hgo]
    obtain ⟨hf, hleft⟩ := not_or.mp hgo
    exact (Prog.ends_pure _).mpr (.done (Bool.eq_false_iff.mpr hf) (Int.not_lt.mp hleft))

/-! ## Copying up to a length -/

/-- The blocks that are copied when `left` bytes are to be copied: as many as it takes, or all. -/
def cover : ℕ → List (List UInt8) → List (List UInt8)
  | _, [] => []
  | left, b :: bs => if left = 0 then [] else b :: cover (left - b.length) bs

/-- Nothing is covered by no block. -/
@[simp] theorem cover_zero (bs : List (List UInt8)) : cover 0 bs = [] := by
  cases bs <;> rfl

/-- As long as something is left, the next block is needed. -/
theorem cover_cons {left : ℕ} (h : left ≠ 0) (b : List UInt8) (bs : List (List UInt8)) :
    cover left (b :: bs) = b :: cover (left - b.length) bs :=
  if_neg h

/-- Blocks that are no longer than what is to be copied are copied all. -/
private lemma flatten_cover_of_le : ∀ {bs : List (List UInt8)} {left : ℕ},
    bs.flatten.length ≤ left →
    (cover left bs).flatten = bs.flatten := by
  intro bs
  induction bs with
  | nil => simp [cover]
  | cons b bs ih =>
    intro left h
    by_cases hleft : left = 0
    · subst hleft
      rw [cover_zero]
      exact (List.eq_nil_of_length_eq_zero (Nat.le_zero.mp h)).symm
    · rw [List.flatten_cons, List.length_append] at h
      rw [cover_cons hleft, List.flatten_cons, List.flatten_cons, ih (by omega)]

/-- What is copied is a prefix of the blocks. -/
private lemma flatten_cover_prefix : ∀ (bs : List (List UInt8)) (left : ℕ),
    (cover left bs).flatten <+: bs.flatten := by
  intro bs
  induction bs with
  | nil => simp [cover]
  | cons b bs ih =>
    intro left
    by_cases hleft : left = 0
    · subst hleft
      simp
    · rw [cover_cons hleft, List.flatten_cons, List.flatten_cons]
      exact (List.prefix_append_right_inj _).mpr (ih _)

/-- **Exactly as many bytes as are to be copied** are copied if and only if some of the first blocks
make up that many.

**Proof sketch.** Induction on the blocks: as long as something is left, the first block is taken
whole, and the rest has to make up the rest. -/
theorem length_flatten_cover_iff : ∀ (bs : List (List UInt8)) (left : ℕ),
    (cover left bs).flatten.length = left ↔ ∃ m, (bs.take m).flatten.length = left := by
  intro bs
  induction bs with
  | nil =>
    intro left
    simp [cover]
  | cons b bs ih =>
    intro left
    by_cases hleft : left = 0
    · subst hleft
      simp only [cover_zero, List.flatten_nil, List.length_nil, true_iff]
      exact ⟨0, rfl⟩
    · rw [cover_cons hleft, List.flatten_cons, List.length_append]
      constructor
      · intro h
        obtain ⟨m, hm⟩ := (ih (left - b.length)).mp (by omega)
        refine ⟨m + 1, ?_⟩
        rw [List.take_succ_cons, List.flatten_cons, List.length_append]
        omega
      · rintro ⟨m, hm⟩
        cases m with
        | zero => exact absurd hm.symm hleft
        | succ m =>
          rw [List.take_succ_cons, List.flatten_cons, List.length_append] at hm
          have := (ih (left - b.length)).mpr ⟨m, by omega⟩
          omega

/-- A stream that is no longer than what is to be copied is copied as a whole. -/
theorem flatten_cover_blocks {q n : ℕ} (left : ℕ) (src : Source) (hq : 0 < q)
    (hread : src.schedule.Productive) (hread' : src.schedule.Reliable)
    (hsize : src.size = some (src.pos + n)) (hn : n ≤ left) :
    (cover left (src.blocks q left)).flatten = slice src.content src.pos n := by
  have hflat := Source.flatten_blocks hq left hread hread' hsize hn
  rw [flatten_cover_of_le (by rw [hflat, length_slice]; exact hn), hflat]

/-- The state of the loop when what it will have written in the end is `w`. -/
structure WillCopy (q : ℕ) (src : Source) (dst : Sink) (w : List UInt8) (s : Copying) : Prop where
  buff : q ≤ s.buff.size
  source : s.src.schedule = src.schedule
  sink : s.dst.schedule = dst.schedule
  result : ∃ n, s.left.toNat ≤ n ∧
    s.dst.written ++ (cover s.left.toNat (s.src.blocks q n)).flatten = w

/-- The outcome of a copy that does not fail: the function returns `0` and has written `w`. -/
def Copies (w : List UInt8) (x : Except Fault (Int32 × Source × Sink)) : Prop :=
  ∃ src' dst', x = .ok (0, src', dst') ∧ dst'.written = w

/-- A copy that has written `w` has not written anything else. -/
theorem ends_copies_iff {c : Prog Fault (Int32 × Source × Sink)} {w w' : List UInt8}
    (h : c.Ends (Copies w)) : c.Ends (Copies w') ↔ w = w' := by
  constructor
  · intro h'
    obtain ⟨n, x, hx, src, dst, rfl, rfl⟩ := h
    obtain ⟨src', dst', hok, rfl⟩ := h'.always n _ hx
    simp only [Except.ok.injEq, Prod.mk.injEq] at hok
    rw [hok.2.2]
  · rintro rfl
    exact h

/-- **Exactly the first `n` bytes** of a stream are what a copy up to that length has written, if
and only if some of its first blocks make up `n` bytes. -/
theorem ends_copies_slice_iff {c : Prog Fault (Int32 × Source × Sink)} {q n : ℕ} {src : Source}
    {out : List UInt8} (h : c.Ends (Copies (out ++ (cover n (src.blocks q n)).flatten))) :
    c.Ends (Copies (out ++ slice src.content src.pos n)) ↔
      ∃ m, ((src.blocks q n).take m).flatten.length = n := by
  rw [ends_copies_iff h, List.append_right_inj, ← length_flatten_cover_iff]
  constructor
  · intro heq
    rw [heq, length_slice]
  · intro hlen
    have hpre := flatten_cover_prefix (src.blocks q n) n
    have hle := hpre.length_le
    rw [Source.flatten_blocks_eq_slice] at hpre
    rw [List.prefix_iff_eq_take.mp hpre, hlen, take_slice _ _ (hlen.symm.trans_le hle)]

/-- **Copying up to a length**: with reliable streams the blocks that cover the length are copied,
the last one as a whole.

**Proof sketch.** The loop with the number of bytes left as variant: every pass writes the first
of the blocks that are still to be copied (`ends_copyPass`). -/
theorem ends_copy_cover {q : ℕ} (readFailed : Int32) (left : ℤ) (buff : Buffer) (src : Source)
    (dst : Sink) (hq : 0 < q) (hbuff : q ≤ buff.size) (hread : src.schedule.Productive)
    (hread' : src.schedule.Reliable) (hwrite : dst.schedule.Productive)
    (hwrite' : dst.schedule.Reliable) :
    (Prog.loop (copyPass q false readFailed) ⟨left, buff, src, dst⟩).Ends
      (Copies (dst.written ++ (cover left.toNat (src.blocks q left.toNat)).flatten)) := by
  refine Prog.ends_loop_of_variant (I := WillCopy q src dst _) (fun s => s.left.toNat) ?_
    ⟨hbuff, rfl, rfl, left.toNat, le_refl _, rfl⟩
  intro s h
  obtain ⟨n, hn, hresult⟩ := h.result
  apply (ends_copyPass hq h.buff (h.source ▸ hread) (h.sink ▸ hwrite)).imp
  intro x hx
  cases hx with
  | done _ hleft =>
    rw [show s.left.toNat = 0 by omega, cover_zero, List.flatten_nil, List.append_nil] at hresult
    exact ⟨_, _, rfl, hresult⟩
  | readFails hrel => exact absurd hread' (h.source ▸ hrel)
  | atEnd k hsize hpos hr =>
    have hnil : s.src.blocks q n = [] := by
      cases n with
      | zero => rfl
      | succ n => rw [Source.blocks, hr]
    rw [hnil, cover, List.flatten_nil, List.append_nil] at hresult
    exact ⟨_, _, rfl, hresult⟩
  | copied k buff' dst' hgo hk hkle hr hbuff' hwrote =>
    have hleft : 0 < s.left := hgo.resolve_left Bool.false_ne_true
    obtain ⟨n, rfl⟩ : ∃ m, n = m + 1 := ⟨n - 1, by omega⟩
    have hne : slice s.src.content s.src.pos k ≠ [] := by
      apply List.ne_nil_of_length_pos
      rw [length_slice]
      exact hk
    rw [Source.blocks_succ hr hne, cover_cons (by omega), List.flatten_cons, length_slice,
      ← List.append_assoc, ← (hwrote.all rfl).1] at hresult
    refine ⟨⟨hbuff'.symm ▸ h.buff, h.source, hwrote.schedule.trans h.sink, n, ?_, ?_⟩, ?_⟩
    · simp only [Bool.false_eq_true, if_false]
      omega
    · simp only [Bool.false_eq_true, if_false]
      rw [show (s.left - k).toNat = s.left.toNat - k by omega]
      exact hresult
    · simp only [Bool.false_eq_true, if_false]
      omega
  | writeFails k dst' _ hwrote => exact absurd hwrite' (h.sink ▸ (hwrote.failed rfl).2)

/-! ## Copying a whole stream -/

/-- What has become of a copy of `bytes`: all of them have been written, unless some call fails;
then a prefix of them has. Calls only fail where the schedules say so. -/
structure Transferred (readFailed : Int32) (bytes : List UInt8) (src : Source) (dst : Sink)
    (ret : Int32) (src' : Source) (dst' : Sink) : Prop where
  complete : src'.failed = false → dst'.failed = false →
    ret = 0 ∧ dst'.written = dst.written ++ bytes
  readFails : src'.failed = true → ret = readFailed
  writeFails : dst'.failed = true → ret = -1
  aborted : ∃ p, p <+: bytes ∧ dst'.written = dst.written ++ p
  reliable : src.schedule.Reliable → dst.schedule.Reliable →
    src'.failed = false ∧ dst'.failed = false

/-- The state of the loop when the first `k` bytes of the stream have been copied. -/
structure CopiedFrom (q : ℕ) (src : Source) (dst : Sink) (k : ℕ) (s : Copying) : Prop where
  buff : q ≤ s.buff.size
  source : s.src = { src with pos := src.pos + k, calls := s.src.calls }
  sink : s.dst.schedule = dst.schedule
  failed : s.dst.failed = dst.failed
  written : s.dst.written = dst.written ++ slice src.content src.pos k

/-- When the first `k` bytes have been copied and a beginning of the next ones has been written, a
beginning of all of them has. -/
lemma CopiedFrom.exists_prefix {q : ℕ} {src : Source} {dst : Sink} {k m n : ℕ} {s : Copying}
    (h : CopiedFrom q src dst k s) (hn : k + m ≤ n) {p written : List UInt8}
    (hp : p <+: slice s.src.content s.src.pos m) (hw : written = s.dst.written ++ p) :
    ∃ p', p' <+: slice src.content src.pos n ∧ written = dst.written ++ p' := by
  refine ⟨slice src.content src.pos k ++ p, ?_, ?_⟩
  · rw [h.source] at hp
    have hkm : slice src.content src.pos k ++ p <+: slice src.content src.pos (k + m) := by
      rw [slice_add]
      exact (List.prefix_append_right_inj _).mpr hp
    exact hkm.trans (slice_prefix_slice _ _ hn)
  · rw [hw, h.written, List.append_assoc]

/-- **Copying a whole stream**: however the two streams cut the bytes, the loop ends; if no call
fails it returns `0` and every byte has been written once and in order, and otherwise a prefix of
them has.

**Proof sketch.** The loop with the number of bytes left in the stream as variant: as long as no
call fails, the bytes before the position in the stream have been written (`ends_copyPass`). -/
theorem ends_copy_forever {q n : ℕ} (readFailed : Int32) (left : ℤ) (buff : Buffer) (src : Source)
    (dst : Sink) (hq : 0 < q) (hbuff : q ≤ buff.size) (hsize : src.size = some (src.pos + n))
    (hread : src.schedule.Productive) (hwrite : dst.schedule.Productive)
    (hsrc : src.failed = false) (hdst : dst.failed = false) :
    (Prog.loop (copyPass q true readFailed) ⟨left, buff, src, dst⟩).Ends fun x =>
      ∃ ret src' dst', x = .ok (ret, src', dst') ∧
        Transferred readFailed (slice src.content src.pos n) src dst ret src' dst' := by
  apply Prog.ends_loop_of_variant (I := fun s => ∃ k ≤ n, CopiedFrom q src dst k s)
    (fun s => src.pos + n - s.src.pos) ?_ ⟨0, Nat.zero_le n, hbuff, rfl, rfl, rfl, by simp⟩
  rintro s ⟨k, hk, h⟩
  have hpos : s.src.pos = src.pos + k := by rw [h.source]
  have hsize' : s.src.size = some (src.pos + n) := by rw [h.source]; exact hsize
  have hsrc' : s.src.failed = false := by rw [h.source]; exact hsrc
  have hdst' : s.dst.failed = false := h.failed.trans hdst
  apply (ends_copyPass hq h.buff (by rw [h.source]; exact hread) (h.sink ▸ hwrite)).imp
  intro x hx
  cases hx with
  | done hf _ => exact absurd hf Bool.true_eq_false.mp
  | readFails hrel =>
    refine ⟨_, _, _, rfl, fun hf => by simp at hf, fun _ => rfl, fun hf => ?_, ?_,
      fun hsched _ => ?_⟩
    · rw [hdst'] at hf
      simp at hf
    · exact h.exists_prefix (m := 0) hk List.nil_prefix (List.append_nil _).symm
    · rw [h.source] at hrel
      exact absurd hsched hrel
  | atEnd m hm hend hr =>
    rw [hsize', Option.some.injEq] at hm
    obtain rfl : k = n := by omega
    refine ⟨_, _, _, rfl, fun _ _ => ⟨rfl, h.written⟩, fun hf => ?_, fun hf => ?_, ?_,
      fun _ _ => ⟨hsrc', hdst'⟩⟩
    · rw [Source.advance_failed, hsrc'] at hf
      simp at hf
    · rw [hdst'] at hf
      simp at hf
    · exact ⟨_, List.prefix_refl _, h.written⟩
  | copied m buff' dst' _ hm hmle hr hbuff' hwrote =>
    have hmle' := hmle _ hsize'
    refine ⟨⟨k + m, by omega, hbuff'.symm ▸ h.buff, ?_, hwrote.schedule.trans h.sink,
      (hwrote.all rfl).2.trans h.failed, ?_⟩, ?_⟩
    · rw [h.source]
      simp only [Source.advance, Nat.add_assoc]
    · rw [(hwrote.all rfl).1, h.written, h.source, slice_add, List.append_assoc]
    · simp only [Source.advance_pos]
      omega
  | writeFails m dst' hmle hwrote =>
    have hmle' := hmle _ hsize'
    obtain ⟨hfailed, hrel⟩ := hwrote.failed rfl
    obtain ⟨p, hp, hw⟩ := hwrote.written
    refine ⟨_, _, _, rfl, fun _ hf => ?_, fun hf => ?_, fun _ => rfl, ?_, fun _ hsched => ?_⟩
    · rw [hfailed] at hf
      simp at hf
    · rw [Source.advance_failed, hsrc'] at hf
      simp at hf
    · exact h.exists_prefix (m := m) (by omega) hp hw
    · exact absurd hsched (h.sink ▸ hrel)

end JzPretest.Sndkit

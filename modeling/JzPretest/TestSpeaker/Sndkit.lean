import JzPretest.Semantics.ByteIO
import JzPretest.Semantics.Prog

set_option relaxedAutoImplicit false
set_option autoImplicit false

/-!
# What `play` and `record` have in common

Both functions of `sndkit.c` fill a buffer with one `read` and empty it with as many calls of
`write` as it takes.

## Main definitions

* `JzPretest.Sndkit.FileType` — WAV or raw.
* `JzPretest.Sndkit.writeAll` — the inner loop of both functions.

## Main results

* `JzPretest.Sndkit.ends_writeAll` — the loop ends; unless a call fails, every byte has been
  written once and in order.
* `JzPretest.Sndkit.always_writeAll` — a reliable stream takes every byte.
-/

namespace JzPretest.Sndkit

/-- `FILE_TYPE_WAV` and `FILE_TYPE_RAW`. -/
inductive FileType where
  | wav
  | raw
  deriving DecidableEq, Repr

/-- `FMT8BITS`, that is `AFMT_U8`. -/
def fmt8Bits : Int32 := 0x00000008

/-- `FMT16BITS`, that is `AFMT_S16_LE`. -/
def fmt16Bits : Int32 := 0x00000010

/-- `FMT24BITS`, that is `AFMT_S24_LE`. -/
def fmt24Bits : Int32 := 0x00000800

/-! ## Writing a buffer -/

/-- The state of the loop that writes the buffer. -/
structure Writing where
  /-- How many bytes have been written. -/
  pos : ℕ
  /-- How many are left. -/
  len : ℕ
  sink : Sink

/-- One pass of the loop that writes the buffer. -/
def writePass (buff : Buffer) (s : Writing) : Prog Fault (Pass Writing (Bool × Sink)) :=
  if 0 < s.len then do
    let bytes ← buff.loadAll s.pos s.len
    match s.sink.write bytes with
    | (none, sink) => return .leave (false, sink)
    | (some n, sink) => return .again ⟨s.pos + n, s.len - n, sink⟩
  else return .leave (true, s.sink)

/-- The inner loop of `play` and `record`: whether all of the first `len` bytes of the buffer were
written, or a call of `write` failed. -/
def writeAll (buff : Buffer) (len : ℕ) (sink : Sink) : Prog Fault (Bool × Sink) :=
  Prog.loop (writePass buff) ⟨0, len, sink⟩

/-- What has become of a stream to which `bytes` were to be written. -/
structure Wrote (sink : Sink) (bytes : List UInt8) (ok : Bool) (sink' : Sink) : Prop where
  schedule : sink'.schedule = sink.schedule
  /-- Nothing but a prefix of the bytes has been written. -/
  written : ∃ p, p <+: bytes ∧ sink'.written = sink.written ++ p
  /-- All of them, if no call failed. -/
  all : ok = true → sink'.written = sink.written ++ bytes ∧ sink'.failed = sink.failed
  /-- The loop stops early only when a call fails. -/
  failed : ok = false → sink'.failed = true ∧ ¬ sink.schedule.Reliable

/-- **Writing a buffer** ends, whatever the schedule of the writes is.

**Proof sketch.** As long as no call fails, the first `pos` bytes have been written and `len` are
left. Every call writes at least one more. -/
theorem ends_writeAll (buff : Buffer) (len : ℕ) (sink : Sink) (hlen : len ≤ buff.size)
    (hs : sink.schedule.Productive) :
    (writeAll buff len sink).Ends fun x => ∃ ok sink', x = .ok (ok, sink') ∧
      Wrote sink (slice buff.byte 0 len) ok sink' := by
  apply Prog.ends_loop_of_variant
    (I := fun s => s.pos + s.len = len ∧ s.sink.schedule = sink.schedule ∧
      s.sink.failed = sink.failed ∧ s.sink.written = sink.written ++ slice buff.byte 0 s.pos)
    (fun s => s.len) ?_ (by simp)
  rintro ⟨pos, left, now⟩ ⟨hsum, hsched, hfailed, hwritten⟩
  dsimp only at hsum hsched hfailed hwritten
  unfold writePass
  by_cases hleft : 0 < left
  · have hload : buff.loadAll pos left = .ok (slice buff.byte pos left) :=
      Buffer.loadAll_eq (by omega)
    rw [if_pos hleft, Prog.ends_bind, Prog.ends_liftM, hload, Prog.andThen_ok]
    have hne : slice buff.byte pos left ≠ [] := by
      apply List.ne_nil_of_length_pos
      simpa using hleft
    rcases now.write_cases (hsched ▸ hs) hne with ⟨hans, hw⟩ | ⟨n, hn, hle, hw⟩
    · rw [hw]
      refine (Prog.ends_pure _).mpr ⟨false, now.fail, rfl, hsched, ⟨_, ?_, hwritten⟩, by simp,
        fun _ => ⟨rfl, fun hrel => ?_⟩⟩
      · exact slice_prefix_slice _ _ (by omega)
      · rw [hsched] at hans
        exact hrel _ _ hans
    · rw [length_slice] at hle
      rw [hw]
      refine (Prog.ends_pure _).mpr ⟨⟨by dsimp only; omega, hsched, hfailed, ?_⟩, by
        dsimp only; omega⟩
      rw [Sink.advance_written, hwritten, take_slice _ _ hle, slice_add, List.append_assoc,
        Nat.zero_add]
  · rw [if_neg hleft]
    obtain rfl : pos = len := by omega
    exact (Prog.ends_pure _).mpr ⟨true, now, rfl, hsched, ⟨_, List.prefix_refl _, hwritten⟩,
      fun _ => ⟨hwritten, hfailed⟩, by simp⟩

/-- A reliable stream stops the loop only when everything is written.

**Proof sketch.** The schedule is kept by every pass, and with a reliable one no write fails, so the
loop is left only when nothing is left to write. -/
theorem always_writeAll {buff : Buffer} {len : ℕ} {sink : Sink} (hs : sink.schedule.Reliable) :
    (writeAll buff len sink).Always fun x => ∀ ok sink', x = .ok (ok, sink') →
      ok = true ∧ sink'.schedule = sink.schedule := by
  rw [writeAll]
  refine Prog.always_loop (I := fun s => s.sink.schedule = sink.schedule) (fun s hsched => ?_) rfl
  unfold writePass
  by_cases hleft : 0 < s.len
  · rw [if_pos hleft, Prog.always_bind, Prog.always_liftM]
    cases buff.loadAll s.pos s.len with
    | error e => simp
    | ok bytes =>
      rw [Prog.andThen_ok]
      unfold Sink.write
      cases hans : s.sink.schedule.answer s.sink.calls bytes.length with
      | none =>
        rw [hsched] at hans
        exact absurd hans (hs _ _)
      | some n => exact (Prog.always_pure _).mpr hsched
  · rw [if_neg hleft]
    refine (Prog.always_pure _).mpr fun ok sink' h => ?_
    simp only [Except.ok.injEq, Prod.mk.injEq] at h
    exact ⟨h.1.symm, h.2 ▸ hsched⟩

/-- The bytes to write lie in the buffer, however many of them each call takes.

**Proof sketch.** That the bytes which are left lie in the buffer is an invariant: a write takes no
more than there are. -/
theorem always_ok_writeAll {buff : Buffer} {len : ℕ} (sink : Sink) (hlen : len ≤ buff.size) :
    (writeAll buff len sink).Always fun x => ∃ r, x = .ok r := by
  rw [writeAll]
  refine Prog.always_loop (I := fun s => s.pos + s.len ≤ buff.size) (fun s hs => ?_) (by simpa)
  unfold writePass
  by_cases hleft : 0 < s.len
  · rw [if_pos hleft, Prog.always_bind, Prog.always_liftM, Buffer.loadAll_eq hs, Prog.andThen_ok]
    unfold Sink.write
    cases hans : s.sink.schedule.answer s.sink.calls (slice buff.byte s.pos s.len).length with
    | none => exact (Prog.always_pure _).mpr ⟨_, rfl⟩
    | some n =>
      have hle := s.sink.schedule.le _ _ _ hans
      rw [length_slice] at hle
      refine (Prog.always_pure _).mpr ?_
      change s.pos + n + (s.len - n) ≤ buff.size
      omega
  · rw [if_neg hleft]
    exact (Prog.always_pure _).mpr ⟨_, rfl⟩

end JzPretest.Sndkit

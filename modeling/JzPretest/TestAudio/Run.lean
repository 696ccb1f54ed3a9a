import JzPretest.Semantics.ByteIO
import JzPretest.Semantics.Prog
import JzPretest.Semantics.Transition

set_option relaxedAutoImplicit false
set_option autoImplicit false

/-!
# The loops of `sndtest`

`run` copies the microphone to a file, or a file to the sound device, block by block until the
alarm. It looks at what `write` returns only to see whether it has failed, so that of a block that
is not taken whole the rest is lost, and the next block follows where the rest should have been.

## Main definitions

* `JzPretest.Sndtest.Mode.pass`, `JzPretest.Sndtest.loopStep` — the loops.
* `JzPretest.Sndtest.Accepts`, `JzPretest.Sndtest.Complete` — a pass in which the device takes
  something, and that it does so only where nothing is missing.
* `JzPretest.Sndtest.Stream.erase` — a stream without what its bytes are.

## Main results

* `JzPretest.Sndtest.loopStep_cases` — everything a pass can do.
* `JzPretest.Sndtest.loopStep_erase` — what the loops do does not depend on the bytes.
* `JzPretest.Sndtest.lossless_iff` — when the audio arrives without a gap.
-/

namespace JzPretest.Sndtest

open Transition

/-! ## The loops -/

/-- What a loop of `run` works on: `ops`, and the two files. -/
structure Stream where
  ops : Int32
  src : Source
  dst : Sink

/-- The body of both loops, with what they do to `ops`: a block is read, and written. The loop goes
on after a block without bytes, and it is left after a failure. -/
def transfer (count : Int32 → ℕ → Int32) (s : Stream) : Pass Stream Stream :=
  match s.src.read 2048 with
  | (none, src) => .leave { s with src := src }
  | (some bytes, src) =>
    if bytes.length = 0 then .again { s with src := src }
    else
      match s.dst.write bytes with
      | (none, dst) => .leave ⟨count s.ops bytes.length, src, dst⟩
      | (some _, dst) => .again ⟨count s.ops bytes.length, src, dst⟩

/-- Which of the loops is entered: `check_arg` lets through one of them only. -/
inductive Mode where
  | record
  | replay
  deriving DecidableEq, Repr

/-- What a loop does to `ops`: only that for replaying counts the bytes. -/
def Mode.count : Mode → Int32 → ℕ → Int32
  | .record, ops, _ => ops
  | .replay, ops, len => ops + Int32.ofNat len

/-- The body of a loop. -/
def Mode.pass (mode : Mode) : Stream → Pass Stream Stream := transfer mode.count

/-- The condition of a loop, with `replay_file_length` and what `alarm_flag` is then. -/
def Mode.goesOn (length : Int32) (alarmFlag : Bool) : Mode → Stream → Bool
  | .record, _ => alarmFlag
  | .replay, s => s.ops < length && alarmFlag

/-- Before the condition of the loop, or behind the loop. -/
inductive Loop where
  | running (s : Stream)
  | ended (s : Stream)

/-- What the loop works on. -/
def Loop.stream : Loop → Stream
  | .running s => s
  | .ended s => s

/-- The loop before its first pass. -/
def Loop.start (content : ℕ → UInt8) (size : Option ℕ) (readSchedule writeSchedule : Schedule) :
    Loop :=
  .running ⟨0, ⟨content, size, readSchedule, 0, 0, false⟩, .fresh writeSchedule⟩

/-- From one test of the condition to the next. -/
def loopStep (length : Int32) (mode : Mode) : Loop → Bool → Option Loop
  | .running s, alarmFlag =>
    if mode.goesOn length alarmFlag s then
      match mode.pass s with
      | .again s => some (.running s)
      | .leave s => some (.ended s)
    else some (.ended s)
  | .ended _, _ => none

/-! ## What a pass does -/

/-- Something is read, and the device takes some of it. -/
def Stream.Takes (s : Stream) : Prop :=
  ∃ bytes, (s.src.read 2048).1 = some bytes ∧ bytes ≠ [] ∧ (s.dst.write bytes).1.isSome = true

/-- In this pass the device takes something. -/
def Accepts (length : Int32) (mode : Mode) (c : Loop) (alarmFlag : Bool) : Prop :=
  ∃ s, c = .running s ∧ mode.goesOn length alarmFlag s = true ∧ s.Takes

/-- A pass in which the device takes something begins with no byte missing: it has taken all that
have been read. -/
def Complete (length : Int32) (mode : Mode) (c : Loop) (alarmFlag : Bool) : Prop :=
  Accepts length mode c alarmFlag → c.stream.dst.written.length = c.stream.src.pos

instance (s : Stream) : Decidable s.Takes :=
  match hread : (s.src.read 2048).1 with
  | none => isFalse fun ⟨_, h, _⟩ => by rw [hread] at h; cases h
  | some bytes =>
    decidable_of_iff (bytes ≠ [] ∧ (s.dst.write bytes).1.isSome = true)
      ⟨fun h => ⟨bytes, hread, h⟩, fun ⟨_, h, htaken⟩ =>
        Option.some.inj (hread.symm.trans h) ▸ htaken⟩

instance (length : Int32) (mode : Mode) (c : Loop) (alarmFlag : Bool) :
    Decidable (Accepts length mode c alarmFlag) :=
  match c with
  | .running s =>
    decidable_of_iff (mode.goesOn length alarmFlag s = true ∧ s.Takes)
      ⟨fun h => ⟨s, rfl, h⟩, fun ⟨_, hs, h⟩ => Loop.running.inj hs ▸ h⟩
  | .ended _ => isFalse fun ⟨_, hs, _⟩ => by cases hs

instance (length : Int32) (mode : Mode) (c : Loop) (alarmFlag : Bool) :
    Decidable (Complete length mode c alarmFlag) :=
  inferInstanceAs (Decidable (_ → _))

/-- What every pass leaves alone; it does not read behind the end. -/
structure Keeps (s s' : Stream) : Prop where
  content : s'.src.content = s.src.content
  size : s'.src.size = s.src.size
  schedule : s'.dst.schedule = s.dst.schedule
  bounded : ∀ k, s.src.size = some k → s.src.pos ≤ k → s'.src.pos ≤ k

/-- Nothing more has been taken. -/
structure Idle (s s' : Stream) : Prop extends Keeps s s' where
  written : s'.dst.written = s.dst.written
  pos : s.src.pos ≤ s'.src.pos

/-- A block of `n` bytes has been read, and the first `k` of them have been taken. -/
structure Taken (n k : ℕ) (s s' : Stream) : Prop extends Keeps s s' where
  written : s'.dst.written = s.dst.written ++ slice s.src.content s.src.pos k
  pos : s'.src.pos = s.src.pos + n

/-- Nothing happens. -/
lemma Keeps.refl (s : Stream) : Keeps s s := ⟨rfl, rfl, rfl, fun _ _ h => h⟩

/-- Nothing happens. -/
lemma Idle.refl (s : Stream) : Idle s s := ⟨.refl s, rfl, Nat.le_refl _⟩

/-- The streams at the end of a pass. -/
def endOf : Pass Stream Stream → Stream
  | .again s => s
  | .leave s => s

/-- **Everything a pass can do** to the bytes: the device takes nothing, or it takes a beginning of
the block that has been read.

**Proof sketch.** By what the read answers: a failure or nothing leaves all as it was, and for a
block `write_cases` says that the device takes nothing or a beginning of it. -/
theorem transfer_cases (count : Int32 → ℕ → Int32) {s : Stream}
    (hwrite : s.dst.schedule.Productive) :
    (¬ s.Takes ∧ Idle s (endOf (transfer count s))) ∨
      s.Takes ∧ ∃ n k, 0 < k ∧ k ≤ n ∧ Taken n k s (endOf (transfer count s)) := by
  unfold transfer Stream.Takes Source.read
  cases s.src.schedule.answer s.src.calls 2048 with
  | none => exact Or.inl ⟨by simp, ⟨rfl, rfl, rfl, fun _ _ h => h⟩, rfl, Nat.le_refl _⟩
  | some n =>
    have hbounded : ∀ k, s.src.size = some k → s.src.pos ≤ k →
        s.src.pos + s.src.available n ≤ k := by
      intro k hk hle
      simp only [Source.available, hk]
      omega
    dsimp only
    by_cases hzero : s.src.available n = 0
    · rw [hzero, slice_zero, List.length_nil, if_pos rfl]
      exact Or.inl ⟨by simp, ⟨rfl, rfl, rfl, fun _ _ h => h⟩, rfl, Nat.le_refl _⟩
    · have hne : slice s.src.content s.src.pos (s.src.available n) ≠ [] := by
        rwa [← List.length_pos_iff, length_slice, Nat.pos_iff_ne_zero]
      rw [length_slice, if_neg hzero]
      rcases s.dst.write_cases hwrite hne with ⟨-, hw⟩ | ⟨k, hk, hle, hw⟩
      · rw [hw]
        refine Or.inl ⟨?_, ⟨rfl, rfl, rfl, hbounded⟩, rfl, Nat.le_add_right _ _⟩
        rintro ⟨bytes, hbytes, -, hsome⟩
        obtain rfl := Option.some.inj hbytes
        rw [hw] at hsome
        exact absurd hsome (by simp)
      · rw [length_slice] at hle
        rw [take_slice _ _ hle] at hw
        rw [hw]
        refine Or.inr ⟨⟨_, rfl, hne, by rw [hw]; rfl⟩, s.src.available n, k, hk, hle, ?_⟩
        exact ⟨⟨rfl, rfl, rfl, hbounded⟩, rfl, rfl⟩

/-- **Everything a step can do** to the bytes.

**Proof sketch.** The loop is left when it does not go on; otherwise the step is a pass, whose
effect is that of `transfer_cases`. -/
theorem loopStep_cases {length : Int32} {mode : Mode} {c c' : Loop} {alarmFlag : Bool}
    (h : loopStep length mode c alarmFlag = some c')
    (hwrite : c.stream.dst.schedule.Productive) :
    (¬ Accepts length mode c alarmFlag ∧ Idle c.stream c'.stream) ∨
      Accepts length mode c alarmFlag ∧
        ∃ n k, 0 < k ∧ k ≤ n ∧ Taken n k c.stream c'.stream := by
  cases c with
  | ended s => cases h
  | running s =>
    have haccepts : Accepts length mode (.running s) alarmFlag ↔
        mode.goesOn length alarmFlag s = true ∧ s.Takes :=
      ⟨fun ⟨_, hs, hgo⟩ => Loop.running.inj hs ▸ hgo, fun hgo => ⟨s, rfl, hgo⟩⟩
    rw [haccepts]
    rw [loopStep] at h
    by_cases hgo : mode.goesOn length alarmFlag s = true
    · rw [if_pos hgo] at h
      have hend : c'.stream = endOf (mode.pass s) := by
        cases hpass : mode.pass s with
        | again s' => rw [hpass] at h; rw [← Option.some.inj h]; rfl
        | leave s' => rw [hpass] at h; rw [← Option.some.inj h]; rfl
      rw [hend]
      exact (transfer_cases mode.count hwrite).imp (And.imp_left fun hno h => hno h.2)
        (And.imp_left fun htakes => ⟨hgo, htakes⟩)
    · rw [if_neg hgo] at h
      rw [← Option.some.inj h]
      exact Or.inl ⟨fun h => hgo h.1, .refl s⟩

/-! ## Without a gap -/

/-- What the loops leave alone; they do not read behind the end, and no more can be taken than has
been read. -/
structure Sound (content : ℕ → UInt8) (size : Option ℕ) (c : Loop) : Prop where
  content_eq : c.stream.src.content = content
  size_eq : c.stream.src.size = size
  productive : c.stream.dst.schedule.Productive
  bounded : ∀ k, size = some k → c.stream.src.pos ≤ k
  le : c.stream.dst.written.length ≤ c.stream.src.pos

/-- A step keeps it, whatever the device takes. -/
lemma Sound.step {content : ℕ → UInt8} {size : Option ℕ} {length : Int32} {mode : Mode}
    {c c' : Loop} {alarmFlag : Bool} (hc : Sound content size c)
    (h : loopStep length mode c alarmFlag = some c') : Sound content size c' := by
  obtain ⟨rfl, rfl, hproductive, hbounded, hle⟩ := hc
  rcases loopStep_cases h hproductive with ⟨-, hidle⟩ | ⟨-, n, k, -, hkn, htaken⟩
  · refine ⟨hidle.content, hidle.size, hidle.schedule ▸ hproductive,
      fun k hk => hidle.bounded k hk (hbounded k hk), ?_⟩
    rw [hidle.written]
    exact hle.trans hidle.pos
  · refine ⟨htaken.content, htaken.size, htaken.schedule ▸ hproductive,
      fun k hk => htaken.bounded k hk (hbounded k hk), ?_⟩
    rw [htaken.written, htaken.pos, List.length_append, length_slice]
    omega

/-- It holds before the first pass. -/
lemma sound_start (content : ℕ → UInt8) (size : Option ℕ) (readSchedule : Schedule)
    {writeSchedule : Schedule} (hwrite : writeSchedule.Productive) :
    Sound content size (.start content size readSchedule writeSchedule) where
  content_eq := rfl
  size_eq := rfl
  productive := hwrite
  bounded _ _ := Nat.zero_le _
  le := Nat.le_refl _

/-- It holds in every state that the loops reach. -/
lemma sound_of_run {content : ℕ → UInt8} {size : Option ℕ}
    {readSchedule writeSchedule : Schedule} (hwrite : writeSchedule.Productive) {length : Int32}
    {mode : Mode} {past : List Bool} {c : Loop}
    (hrun : run (loopStep length mode) (.start content size readSchedule writeSchedule) past =
      some c) : Sound content size c :=
  run_invariant (fun _ _ _ => Sound.step) (sound_start content size readSchedule hwrite) hrun

/-- What the device has taken is a beginning of what has been read. -/
def Lossless (c : Loop) : Prop :=
  c.stream.dst.written <+: slice c.stream.src.content 0 c.stream.src.pos

instance (c : Loop) : Decidable (Lossless c) := inferInstanceAs (Decidable (_ <+: _))

/-- A beginning as long as the whole is the whole. -/
lemma Lossless.written_eq {c : Loop} (h : Lossless c)
    (hlen : c.stream.dst.written.length = c.stream.src.pos) :
    c.stream.dst.written = slice c.stream.src.content 0 c.stream.src.pos :=
  List.IsPrefix.eq_of_length h (by rw [hlen, length_slice])

/-- **One pass loses nothing** if the device takes something only where nothing is missing. -/
theorem Lossless.step {length : Int32} {mode : Mode} {c c' : Loop} {alarmFlag : Bool}
    (h : Lossless c) (hwrite : c.stream.dst.schedule.Productive)
    (hcomplete : Complete length mode c alarmFlag)
    (hstep : loopStep length mode c alarmFlag = some c') : Lossless c' := by
  unfold Lossless
  rcases loopStep_cases hstep hwrite with ⟨-, hidle⟩ | ⟨haccepts, n, k, -, hkn, htaken⟩
  · rw [hidle.written, hidle.content]
    exact List.IsPrefix.trans h (slice_prefix_slice _ 0 hidle.pos)
  · have hwritten := h.written_eq (hcomplete haccepts)
    rw [htaken.written, htaken.content, htaken.pos, hwritten]
    have hjoin := slice_add c.stream.src.content 0 c.stream.src.pos k
    rw [Nat.zero_add] at hjoin
    rw [← hjoin]
    exact slice_prefix_slice _ 0 (by omega)

/-- Of a file it is a beginning of the file. -/
private lemma lossless_iff_prefix_file {bytes : List UInt8} {c : Loop}
    (hc : Sound (fun i => bytes.getD i 0) (some bytes.length) c) :
    Lossless c ↔ c.stream.dst.written <+: bytes := by
  have hread : slice c.stream.src.content 0 c.stream.src.pos <+: bytes := by
    have hfile := slice_prefix_slice c.stream.src.content 0 (hc.bounded _ rfl)
    rw [hc.content_eq, slice_getD] at hfile
    rwa [hc.content_eq]
  constructor
  · exact fun h => h.trans hread
  · intro h
    apply List.prefix_of_prefix_length_le h hread
    rw [length_slice]
    exact hc.le

/-! ## The bytes do not matter -/

/-- A stream without what its bytes are. -/
def Stream.erase (s : Stream) : Stream where
  ops := s.ops
  src := { s.src with content := fun _ => 0 }
  dst := { s.dst with written := List.replicate s.dst.written.length 0 }

/-- The end of a pass without what the bytes are. -/
def eraseEnd : Pass Stream Stream → Pass Stream Stream
  | .again s => .again s.erase
  | .leave s => .leave s.erase

/-- The state of a loop without what the bytes are. -/
def Loop.erase : Loop → Loop
  | .running s => .running s.erase
  | .ended s => .ended s.erase

/-- A file of zeros has zeros in it. -/
private lemma slice_zero_content (pos n : ℕ) : slice (fun _ => 0) pos n = List.replicate n 0 := by
  rw [slice, List.map_const', List.length_range]

/-- As many bytes are read without the bytes as with them. -/
lemma Stream.erase_read (s : Stream) (q : ℕ) :
    s.erase.src.read q =
      ((s.src.read q).1.map fun bytes => List.replicate bytes.length 0,
        { (s.src.read q).2 with content := fun _ => 0 }) := by
  have hanswer : s.erase.src.schedule.answer s.erase.src.calls q =
      s.src.schedule.answer s.src.calls q := rfl
  unfold Source.read
  rw [hanswer]
  cases s.src.schedule.answer s.src.calls q with
  | none => rfl
  | some n =>
    have hbytes : slice s.erase.src.content s.erase.src.pos (s.erase.src.available n) =
        List.replicate (s.src.available n) 0 := slice_zero_content _ _
    simp only [hbytes, Option.map_some, length_slice]
    rfl

/-- As many are taken.

**Proof sketch.** The answer of the device is asked for with the number of the bytes, which is the
same, and the bytes that it takes are zeros on the left and their number is counted on the right. -/
lemma Stream.erase_write (s : Stream) (bytes : List UInt8) :
    s.erase.dst.write (List.replicate bytes.length 0) =
      ((s.dst.write bytes).1, { (s.dst.write bytes).2 with
        written := List.replicate (s.dst.write bytes).2.written.length 0 }) := by
  have hanswer : s.erase.dst.schedule.answer s.erase.dst.calls
      (List.replicate bytes.length (0 : UInt8)).length =
        s.dst.schedule.answer s.dst.calls bytes.length := by
    rw [List.length_replicate]
    rfl
  unfold Sink.write
  rw [hanswer]
  cases s.dst.schedule.answer s.dst.calls bytes.length with
  | none => rfl
  | some n =>
    have hlen : List.replicate s.dst.written.length (0 : UInt8) ++
        (List.replicate bytes.length 0).take n =
          List.replicate (s.dst.written ++ bytes.take n).length 0 := by
      rw [List.take_replicate, List.replicate_append_replicate, List.length_append,
        List.length_take]
    exact congrArg (fun written => (some n, { s.dst.advance [] with written := written })) hlen

/-- **A pass does the same whatever the bytes are**. -/
theorem transfer_erase (count : Int32 → ℕ → Int32) (s : Stream) :
    transfer count s.erase = eraseEnd (transfer count s) := by
  unfold transfer
  rw [s.erase_read]
  rcases s.src.read 2048 with ⟨_ | bytes, src⟩
  · rfl
  · dsimp only [Option.map_some]
    rw [List.length_replicate, s.erase_write bytes]
    by_cases hzero : bytes.length = 0
    · rw [if_pos hzero, if_pos hzero]
      rfl
    · rw [if_neg hzero, if_neg hzero]
      rcases s.dst.write bytes with ⟨_ | n, dst⟩
      · rfl
      · rfl

/-- **So do the loops**. -/
theorem loopStep_erase (length : Int32) (mode : Mode) (c : Loop) (alarmFlag : Bool) :
    loopStep length mode c.erase alarmFlag = (loopStep length mode c alarmFlag).map Loop.erase := by
  cases c with
  | ended s => rfl
  | running s =>
    have hgo : mode.goesOn length alarmFlag s.erase = mode.goesOn length alarmFlag s := by
      cases mode <;> rfl
    rw [Loop.erase, loopStep, loopStep, hgo, Mode.pass, transfer_erase]
    by_cases h : mode.goesOn length alarmFlag s = true
    · rw [if_pos h, if_pos h]
      cases transfer mode.count s with
      | again s' => rfl
      | leave s' => rfl
    · rw [if_neg h, if_neg h]
      rfl

/-- The device takes something without the bytes if it does so with them. -/
lemma Stream.takes_erase (s : Stream) : s.erase.Takes ↔ s.Takes := by
  unfold Stream.Takes
  rw [s.erase_read]
  constructor
  · rintro ⟨bytes, hbytes, hne, hsome⟩
    obtain ⟨bytes', hread, rfl⟩ := Option.map_eq_some_iff.mp hbytes
    rw [s.erase_write] at hsome
    exact ⟨bytes', hread, by rintro rfl; exact hne rfl, hsome⟩
  · rintro ⟨bytes, hread, hne, hsome⟩
    refine ⟨List.replicate bytes.length 0, Option.map_eq_some_iff.mpr ⟨bytes, hread, rfl⟩, ?_, ?_⟩
    · rw [Ne, List.replicate_eq_nil_iff, List.length_eq_zero_iff]
      exact hne
    · rwa [s.erase_write]

/-- Likewise for a pass of a loop. -/
private lemma accepts_erase (length : Int32) (mode : Mode) (c : Loop) (alarmFlag : Bool) :
    Accepts length mode c.erase alarmFlag ↔ Accepts length mode c alarmFlag := by
  cases c with
  | ended s => exact iff_of_false (by rintro ⟨_, h, -⟩; cases h) (by rintro ⟨_, h, -⟩; cases h)
  | running s =>
    have hgo : mode.goesOn length alarmFlag s.erase = mode.goesOn length alarmFlag s := by
      cases mode <;> rfl
    constructor
    · rintro ⟨_, h, hgoes, htakes⟩
      obtain rfl := Loop.running.inj h
      exact ⟨s, rfl, hgo ▸ hgoes, s.takes_erase.mp htakes⟩
    · rintro ⟨_, h, hgoes, htakes⟩
      obtain rfl := Loop.running.inj h
      exact ⟨s.erase, rfl, hgo ▸ hgoes, s.takes_erase.mpr htakes⟩

/-- Runs with different bytes go through the same states but for the bytes. -/
lemma exists_run_of_erase_eq {length : Int32} {mode : Mode} {c₁ c₂ c : Loop} {past : List Bool}
    (herase : c₁.erase = c₂.erase) (hrun : run (loopStep length mode) c₁ past = some c) :
    ∃ c', run (loopStep length mode) c₂ past = some c' ∧ c'.erase = c.erase := by
  have h₁ := run_map (loopStep_erase length mode) past c₁
  have h₂ := run_map (loopStep_erase length mode) past c₂
  rw [herase, h₂, hrun, Option.map_some, Option.map_eq_some_iff] at h₁
  exact h₁

/-! ## When nothing is lost -/

section Lossless

variable {length : Int32} {mode : Mode} {size : Option ℕ} {readSchedule writeSchedule : Schedule}

/-- The position does not depend on the bytes. -/
lemma erase_pos (c : Loop) : c.erase.stream.src.pos = c.stream.src.pos := by
  cases c <;> rfl

/-- Nor does the number of the bytes that have been taken. -/
private lemma erase_written_length (c : Loop) :
    c.erase.stream.dst.written.length = c.stream.dst.written.length := by
  cases c <;> exact List.length_replicate

/-- Whether nothing is missing before a pass does not depend on what the bytes are. -/
lemma complete_iff_of_erase_eq {c c' : Loop} {alarmFlag : Bool} (h : c.erase = c'.erase) :
    Complete length mode c alarmFlag ↔ Complete length mode c' alarmFlag := by
  unfold Complete
  rw [← accepts_erase, ← accepts_erase length mode c', ← erase_pos, ← erase_pos c',
    ← erase_written_length, ← erase_written_length c', h]

/-- **A pass after a loss** makes a gap, for some bytes.

**Proof sketch.** The bytes that have been read are zeros, and those that follow are ones. -/
theorem exists_gap {content₀ : ℕ → UInt8} (hwrite : writeSchedule.Productive) {past : List Bool}
    {alarmFlag : Bool} {c : Loop}
    (hrun : run (loopStep length mode) (.start content₀ size readSchedule writeSchedule) past =
      some c)
    (hcomplete : ¬ Complete length mode c alarmFlag) :
    ∃ content c', run (loopStep length mode) (.start content size readSchedule writeSchedule)
      (past ++ [alarmFlag]) = some c' ∧ ¬ Lossless c' := by
  have herase : (Loop.start content₀ size readSchedule writeSchedule).erase =
      (Loop.start (fun i => if i < c.stream.src.pos then 0 else 1) size readSchedule
        writeSchedule).erase := rfl
  obtain ⟨c', hrun', hc'⟩ := exists_run_of_erase_eq herase hrun
  have hsound := sound_of_run hwrite hrun'
  have hpos : c'.stream.src.pos = c.stream.src.pos := by
    have h : c'.erase.stream.src.pos = c.erase.stream.src.pos := by rw [hc']
    rwa [erase_pos, erase_pos] at h
  rw [complete_iff_of_erase_eq hc'.symm] at hcomplete
  obtain ⟨haccepts, hne⟩ := Classical.not_imp.mp hcomplete
  have hlt : c'.stream.dst.written.length < c'.stream.src.pos := Nat.lt_of_le_of_ne hsound.le hne
  obtain ⟨c'', hstep⟩ : ∃ c'', loopStep length mode c' alarmFlag = some c'' := by
    obtain ⟨s, rfl, hgo, -⟩ := haccepts
    rw [loopStep, if_pos hgo]
    cases mode.pass s with
    | again s' => exact ⟨_, rfl⟩
    | leave s' => exact ⟨_, rfl⟩
  refine ⟨_, c'', run_concat_eq_some.mpr ⟨c', hrun', hstep⟩, fun hlossless => ?_⟩
  rcases loopStep_cases hstep hsound.productive with ⟨hno, -⟩ | ⟨-, n, k, hk, -, htaken⟩
  · exact hno haccepts
  · unfold Lossless at hlossless
    rw [htaken.written, htaken.content, htaken.pos, hsound.content_eq] at hlossless
    -- the first byte taken in this pass is a one, and stands where a zero has been read
    have hin : c'.stream.dst.written.length < (c'.stream.dst.written ++
        slice (fun i => if i < c.stream.src.pos then 0 else 1) c'.stream.src.pos k).length := by
      rw [List.length_append, length_slice]
      omega
    have hbyte := hlossless.getElem hin
    rw [List.getElem_append_right (Nat.le_refl _)] at hbyte
    simp only [slice, List.getElem_map, List.getElem_range, Nat.sub_self, Nat.zero_add,
      Nat.add_zero, hpos] at hbyte
    rw [if_neg (Nat.lt_irrefl _), if_pos (hpos ▸ hlt)] at hbyte
    exact absurd hbyte (by decide)

/-- **When no audio is lost**: with every microphone or file, until the alarm or an error stops the
loop, what the device has taken is a beginning of what has been read, if and only if each pass in
which it takes something begins with nothing missing.

**Proof sketch.** If the condition fails before some pass, a content of the stream can be chosen
whose missing bytes show (`exists_gap`). Conversely the condition does not depend on the content,
so it holds along the run on any, and with it no pass loses anything: that is an invariant of the
run. -/
theorem lossless_iff (length : Int32) (mode : Mode) (size : Option ℕ)
    (readSchedule writeSchedule : Schedule) (hwrite : writeSchedule.Productive)
    (content₀ : ℕ → UInt8) (flags : List Bool) :
    (∀ content past c, past <+: flags →
      run (loopStep length mode) (.start content size readSchedule writeSchedule) past = some c →
        Lossless c) ↔
      Along (loopStep length mode) (Complete length mode)
        (.start content₀ size readSchedule writeSchedule) flags := by
  rw [along_iff]
  constructor
  · intro h past alarmFlag hpast c hrun
    by_contra hcomplete
    obtain ⟨content, c', hrun', hgap⟩ := exists_gap hwrite hrun hcomplete
    exact hgap (h content (past ++ [alarmFlag]) c' hpast hrun')
  · intro h content past c hpast hrun
    have halong : Along (loopStep length mode) (Complete length mode)
        (.start content size readSchedule writeSchedule) past := by
      rw [along_iff]
      intro before alarmFlag hbefore d hd
      have herase : (Loop.start content size readSchedule writeSchedule).erase =
          (Loop.start content₀ size readSchedule writeSchedule).erase := rfl
      obtain ⟨d', hd', heq⟩ := exists_run_of_erase_eq herase hd
      exact (complete_iff_of_erase_eq heq).mp (h before alarmFlag (hbefore.trans hpast) d' hd')
    have hstart : Sound content size (.start content size readSchedule writeSchedule) ∧
        Lossless (.start content size readSchedule writeSchedule) :=
      ⟨sound_start content size readSchedule hwrite, List.nil_prefix⟩
    have hkept := run_invariant_of (I := fun c => Sound content size c ∧ Lossless c)
      (fun d alarmFlag d' hd hcomplete hstep =>
        ⟨hd.1.step hstep, hd.2.step hd.1.productive hcomplete hstep⟩) hstart halong hrun
    exact hkept.2

end Lossless

/-- One byte is read, then two, and so on. -/
def growing : Schedule where
  answer i q := some (min (i + 1) q)
  le i q n h := by
    obtain rfl : min (i + 1) q = n := Option.some.inj h
    exact Nat.min_le_right (i + 1) q

/-- A device that takes one byte at a time loses nothing of a file of three bytes before the last
one: only the last block is not taken as a whole. -/
theorem lossless_iff_short_end :
    (∃ c, run (loopStep 3 .replay) (.start (fun i => [1, 2, 3].getD i 0) (some 3) growing
        (.atMost 1)) [true, true, true] = some c ∧ c.stream.dst.written = [1, 2]) ∧
      ∀ past c, past <+: [true, true, true] →
        run (loopStep 3 .replay) (.start (fun i => [1, 2, 3].getD i 0) (some 3) growing
          (.atMost 1)) past = some c → c.stream.dst.written <+: [1, 2, 3] := by
  have hwrite : (Schedule.atMost 1).Productive := Schedule.atMost_productive (by decide)
  have hlossless := (lossless_iff 3 .replay (some 3) growing (.atMost 1) hwrite (fun _ => 0)
    [true, true, true]).mpr (by decide)
  refine ⟨⟨_, rfl, rfl⟩, fun past c hpast hrun => ?_⟩
  exact (lossless_iff_prefix_file (sound_of_run hwrite hrun)).mp (hlossless _ past c hpast hrun)

/-- **A short write**: the device takes half of the first block, and goes on with the second one. -/
theorem short_write_loses :
    ∃ bytes past c, past <+: [true, true] ∧
      run (loopStep 4 .replay)
        (.start (fun i => bytes.getD i 0) (some bytes.length) (.atMost 2) (.atMost 1)) past =
          some c ∧ ¬ c.stream.dst.written <+: bytes :=
  ⟨[1, 2, 3, 4], [true, true], _, List.prefix_refl _, rfl, by decide⟩

end JzPretest.Sndtest

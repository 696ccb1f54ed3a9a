import JzPretest.Semantics.CString
import JzPretest.Semantics.Prog
import JzPretest.Semantics.Transition

set_option relaxedAutoImplicit false
set_option autoImplicit false

/-!
# The arguments of `sndtest`

`check_arg` takes its arguments two at a time, an option and its value. The values are kept in local
variables and assigned when all arguments have been taken, so that a value that is no good leaves
the default, also when a good one came before it.

## Main definitions

* `JzPretest.Sndtest.RunParams`, `JzPretest.Sndtest.initParams` — `struct run_params`, and the
  defaults.
* `JzPretest.Sndtest.checkArg` — the function.
* `JzPretest.Sndtest.words` — the arguments that a list of options and values stands for.
* `JzPretest.Sndtest.InGrammar`, `JzPretest.Sndtest.Determined` — which arguments are accepted, and
  what they mean.

## Main results

* `JzPretest.Sndtest.argLoop_cases` — the loop takes the arguments that are options with values, and
  returns -1 on all others.
* `JzPretest.Sndtest.checkArg_grammar` — `check_arg` accepts the grammar, with this meaning.
-/

namespace JzPretest.Sndtest

open Transition

/-! ## The parameters -/

/-- `FMT8BITS`, which is `AFMT_U8`. -/
def fmt8Bits : Int32 := 0x00000008

/-- `FMT16BITS`, which is `AFMT_S16_LE`. -/
def fmt16Bits : Int32 := 0x00000010

/-- `struct run_params`, as far as the arguments set it. -/
structure RunParams where
  dspFd : Int32
  mixerFd : Int32
  replayFd : Int32
  recordFd : Int32
  bufferSize : Int32
  format : Int32
  channel : Int32
  speed : Int32
  replayEnable : Bool
  recordEnable : Bool
  rate : Int32
  volume : Int32
  replayFile : CharArray 127
  recordFile : CharArray 127
  second : Int32

/-- `init_params`. -/
def initParams (param : RunParams) : RunParams :=
  { param with
    bufferSize := 1024 * 2
    channel := 2
    format := fmt16Bits
    speed := 44100
    volume := 80
    replayEnable := false
    recordEnable := false
    second := 5
    replayFd := -1
    recordFd := -1
    dspFd := -1
    mixerFd := -1 }

/-- `supported_fmts`. -/
def supportedFmts : List (List UInt8) :=
  [text ['S', '8'], text ['U', '8'], text ['S', '1', '6', '_', 'L', 'E'],
    text ['S', '1', '6', '_', 'B', 'E'], text ['U', '1', '6', '_', 'L', 'E'],
    text ['U', '1', '6', '_', 'B', 'E'], text ['S', '2', '4', '_', '3', 'L', 'E'],
    text ['S', '2', '4', '_', '3', 'B', 'E'], text ['U', '2', '4', '_', '3', 'L', 'E'],
    text ['U', '2', '4', '_', '3', 'B', 'E']]

/-- `set_format`. -/
def setFormat (format : Str) : Int32 :=
  match supportedFmts.idxOf? format.val with
  | none => -1
  | some 1 | some 0 => fmt8Bits
  | some 5 | some 4 => fmt16Bits
  | some _ => fmt16Bits

/-! ## The arguments -/

/-- The options. -/
inductive Opt where
  | format
  | channel
  | rate
  | volume
  | speed
  | buffer
  | time
  | replay
  | record
  deriving DecidableEq, Repr

/-- The argument that an option is. -/
def Opt.word : Opt → Str
  | .format => ⟨text ['-', '-', 'f', 'o', 'r', 'm', 'a', 't'], by decide⟩
  | .channel => ⟨text ['-', '-', 'c', 'h', 'a', 'n', 'n', 'e', 'l'], by decide⟩
  | .rate => ⟨text ['-', '-', 'r', 'a', 't', 'e'], by decide⟩
  | .volume => ⟨text ['-', '-', 'v', 'o', 'l', 'u', 'm', 'e'], by decide⟩
  | .speed => ⟨text ['-', '-', 's', 'p', 'e', 'e', 'd'], by decide⟩
  | .buffer => ⟨text ['-', '-', 'b', 'u', 'f', 'f', 'e', 'r'], by decide⟩
  | .time => ⟨text ['-', '-', 't', 'i', 'm', 'e'], by decide⟩
  | .replay => ⟨text ['-', '-', 'r', 'e', 'p', 'l', 'a', 'y'], by decide⟩
  | .record => ⟨text ['-', '-', 'r', 'e', 'c', 'o', 'r', 'd'], by decide⟩

/-- `--version`. -/
def versionWord : Str := ⟨text ['-', '-', 'v', 'e', 'r', 's', 'i', 'o', 'n'], by decide⟩

/-- `--help`. -/
def helpWord : Str := ⟨text ['-', '-', 'h', 'e', 'l', 'p'], by decide⟩

/-- The local variables of `check_arg`, but for the mode, which nothing reads, and what `param`
points to. -/
structure Locals where
  param : RunParams
  format : Int32
  channel : Int32
  rate : Int32
  volume : Int32
  speed : Int32
  bufferSize : Int32
  second : Int32

/-- The local variables before the loop. -/
def Locals.start (param : RunParams) : Locals where
  param := param
  format := -1
  channel := -1
  rate := -1
  volume := -1
  speed := -1
  bufferSize := -1
  second := -1

/-- `usage`. -/
def usage : Int32 := -1

/-- `version`. -/
def version : Int32 := -1

/-- One pass of the loop of `check_arg`, for an argument and the one after it. -/
def argPass (s : Locals) (arg val : Str) : Except Fault (Pass Locals (Int32 × RunParams)) :=
  if arg = Opt.format.word then return .again { s with format := setFormat val }
  else if arg = Opt.channel.word then return .again { s with channel := atoi val.val }
  else if arg = Opt.rate.word then return .again { s with rate := atoi val.val }
  else if arg = Opt.volume.word then return .again { s with volume := atoi val.val }
  else if arg = Opt.speed.word then return .again { s with speed := atoi val.val }
  else if arg = Opt.buffer.word then return .again { s with bufferSize := atoi val.val }
  else if arg = Opt.time.word then return .again { s with second := atoi val.val }
  else if arg = Opt.replay.word then do
    let file ← s.param.replayFile.strcpy val
    return .again { s with param := { s.param with replayEnable := true, replayFile := file } }
  else if arg = Opt.record.word then do
    let file ← s.param.recordFile.strcpy val
    return .again { s with param := { s.param with recordEnable := true, recordFile := file } }
  else return .leave (-1, s.param)

/-- The loop of `check_arg`. -/
def argLoop : List Str → Locals → Except Fault (Pass Locals (Int32 × RunParams))
  | [], s => return .again s
  | [_], s => return .leave (usage, s.param)
  | arg :: val :: argv, s => do
    match ← argPass s arg val with
    | .again s => argLoop argv s
    | .leave ret => return .leave ret

/-- The parameters with the local variables assigned to them. -/
def Locals.assign (s : Locals) : RunParams :=
  { s.param with
    format := if 0 ≤ s.format then s.format else s.param.format
    channel := if 0 ≤ s.channel then s.channel else s.param.channel
    rate := if 0 ≤ s.rate then s.rate else s.param.rate
    volume := if 0 ≤ s.volume then s.volume else s.param.volume
    speed := if 0 ≤ s.speed then s.speed else s.param.speed
    bufferSize := if 0 ≤ s.bufferSize then s.bufferSize else s.param.bufferSize
    second := if 0 < s.second then s.second else s.param.second }

/-- What `check_arg` does when it has taken all arguments. -/
def finish (s : Locals) : Int32 × RunParams :=
  if s.param.replayEnable ∧ s.param.recordEnable then (-1, s.param)
  else if ¬ (s.param.replayEnable ∨ s.param.recordEnable) then (-1, s.param)
  else (0, s.assign)

/-- `check_arg`: what it returns, and what `param` points to then. -/
def checkArg (argv : List Str) (param : RunParams) : Except Fault (Int32 × RunParams) :=
  if argv.length < 2 then return (usage, param)
  else if argv.length = 2 ∧ argv[1]? = some versionWord then return (version, param)
  else if argv.length = 2 ∧ argv[1]? = some helpWord then return (usage, param)
  else do
    match ← argLoop argv.tail (Locals.start param) with
    | .again s => return finish s
    | .leave ret => return ret

/-! ## The grammar -/

/-- The arguments that a list of options and values stands for. -/
def words (line : List (Opt × Str)) : List Str := line.flatMap fun c => [c.1.word, c.2]

/-- The arguments that are the names of files. -/
def fileNames : List Str → List Str
  | arg :: val :: argv =>
    if arg = Opt.replay.word ∨ arg = Opt.record.word then val :: fileNames argv
    else fileNames argv
  | _ => []

/-- An option occurs. -/
def Occurs (o : Opt) (line : List (Opt × Str)) : Prop := o ∈ line.map Prod.fst

instance (o : Opt) (line : List (Opt × Str)) : Decidable (Occurs o line) :=
  inferInstanceAs (Decidable (_ ∈ _))

/-- The value of the last occurrence of an option. -/
def lastValue (o : Opt) (line : List (Opt × Str)) : Option Str :=
  lastWrite (fun c => if c.1 = o then some c.2 else none) line

/-- The value of the last of `--replay` and `--record`. -/
def lastFile (line : List (Opt × Str)) : Option Str :=
  lastWrite (fun c => if c.1 = .replay ∨ c.1 = .record then some c.2 else none) line

/-- The arguments that are to be accepted: options with their values, and exactly one of `--replay`
and `--record` among them. -/
def InGrammar (args : List Str) : Prop :=
  ∃ line, line ≠ [] ∧ args = words line ∧ Xor (Occurs .replay line) (Occurs .record line)

/-- A value that is not negative, or else the default. -/
def orDefault (v : Option Int32) (default : Int32) : Int32 := (v.filter (0 ≤ ·)).getD default

/-- The array that `sndtest` takes its file from. -/
def RunParams.file (p : RunParams) : CharArray 127 :=
  if p.replayEnable then p.replayFile else p.recordFile

/-- What the options mean, with the parameters before them. -/
structure Determined (param : RunParams) (line : List (Opt × Str)) (p : RunParams) : Prop where
  format : p.format = orDefault ((lastValue .format line).map setFormat) param.format
  channel : p.channel = orDefault ((lastValue .channel line).map fun v => atoi v.val) param.channel
  rate : p.rate = orDefault ((lastValue .rate line).map fun v => atoi v.val) param.rate
  volume : p.volume = orDefault ((lastValue .volume line).map fun v => atoi v.val) param.volume
  speed : p.speed = orDefault ((lastValue .speed line).map fun v => atoi v.val) param.speed
  bufferSize :
    p.bufferSize = orDefault ((lastValue .buffer line).map fun v => atoi v.val) param.bufferSize
  second : p.second =
    (((lastValue .time line).map fun v => atoi v.val).filter (0 < ·)).getD param.second
  replayEnable : p.replayEnable = true ↔ Occurs .replay line
  recordEnable : p.recordEnable = true ↔ Occurs .record line
  file : ∃ name, lastFile line = some name ∧ p.file.string = .ok name.val

/-! ## The loop -/

/-- What an option with its value does to the local variables, if the names of files fit. -/
def Locals.take (s : Locals) : Opt → Str → Locals
  | .format, val => { s with format := setFormat val }
  | .channel, val => { s with channel := atoi val.val }
  | .rate, val => { s with rate := atoi val.val }
  | .volume, val => { s with volume := atoi val.val }
  | .speed, val => { s with speed := atoi val.val }
  | .buffer, val => { s with bufferSize := atoi val.val }
  | .time, val => { s with second := atoi val.val }
  | .replay, val => { s with
    param := { s.param with replayEnable := true, replayFile := s.param.replayFile.put val } }
  | .record, val => { s with
    param := { s.param with recordEnable := true, recordFile := s.param.recordFile.put val } }

/-- The local variables after some options with their values. -/
def Locals.takeAll (s : Locals) (line : List (Opt × Str)) : Locals :=
  line.foldl (fun s c => s.take c.1 c.2) s

/-- An option is taken.

**Proof sketch.** By the option. The two names of files are copied into arrays in which they fit;
the others only set a variable. -/
private lemma argPass_word (s : Locals) (o : Opt) {val : Str}
    (hname : o = .replay ∨ o = .record → val.val.length < 127) :
    argPass s o.word val = .ok (.again (s.take o val)) := by
  cases o with
  | format | channel | rate | volume | speed | buffer | time => rfl
  | replay =>
    have hcopy : argPass s Opt.replay.word val = (do
        let file ← s.param.replayFile.strcpy val
        return .again
          { s with param := { s.param with replayEnable := true, replayFile := file } }) := rfl
    rw [hcopy, CharArray.strcpy_eq _ (hname (Or.inl rfl))]
    rfl
  | record =>
    have hcopy : argPass s Opt.record.word val = (do
        let file ← s.param.recordFile.strcpy val
        return .again
          { s with param := { s.param with recordEnable := true, recordFile := file } }) := rfl
    rw [hcopy, CharArray.strcpy_eq _ (hname (Or.inr rfl))]
    rfl

/-- With anything else `check_arg` returns. -/
private lemma argPass_of_ne (s : Locals) {arg : Str} (val : Str) (h : ∀ o : Opt, arg ≠ o.word) :
    argPass s arg val = .ok (.leave (-1, s.param)) := by
  simp only [argPass, if_neg (h _)]
  rfl

/-- An option is a word, and its value is the next one. -/
lemma words_cons (o : Opt) (val : Str) (line : List (Opt × Str)) :
    words ((o, val) :: line) = o.word :: val :: words line := rfl

/-- No two options have the same word. -/
private lemma word_injective {o o' : Opt} (h : o.word = o'.word) : o = o' := by
  cases o <;> cases o' <;> first | rfl | exact absurd h (by decide)

/-- **Arguments are read in one way only**.

**Proof sketch.** Induction on the options: each is two words, and the first one determines the
option. -/
theorem words_injective {line : List (Opt × Str)} : ∀ {line' : List (Opt × Str)},
    words line = words line' → line = line' := by
  induction line with
  | nil =>
    intro line' h
    cases line' with
    | nil => rfl
    | cons c line' => exact absurd h (by simp [words])
  | cons c line ih =>
    intro line' h
    cases line' with
    | nil => exact absurd h (by simp [words])
    | cons c' line' =>
      obtain ⟨o, val⟩ := c
      obtain ⟨o', val'⟩ := c'
      rw [words_cons, words_cons, List.cons.injEq, List.cons.injEq] at h
      obtain ⟨hword, rfl, hwords⟩ := h
      rw [word_injective hword, ih hwords]

/-- **What the loop does**: it takes arguments that are options with their values, and returns -1 on
all others.

**Proof sketch.** Recursion on the arguments, two at a time. -/
theorem argLoop_cases : ∀ (args : List Str) (s : Locals),
    (∀ name ∈ fileNames args, name.val.length < 127) →
    (∃ line, args = words line ∧ argLoop args s = .ok (.again (s.takeAll line))) ∨
      (¬ ∃ line, args = words line) ∧ ∃ p, argLoop args s = .ok (.leave (-1, p))
  | [], s, _ => Or.inl ⟨[], rfl, rfl⟩
  | [arg], s, _ => by
    refine Or.inr ⟨?_, s.param, rfl⟩
    rintro ⟨_ | ⟨⟨o, val⟩, line⟩, h⟩
    · exact absurd h (by simp [words])
    · rw [words_cons] at h
      exact absurd h (by simp)
  | arg :: val :: args, s, hnames => by
    by_cases hword : ∃ o : Opt, arg = o.word
    · obtain ⟨o, rfl⟩ := hword
      have hname : o = .replay ∨ o = .record → val.val.length < 127 := by
        intro ho
        apply hnames
        rw [fileNames, if_pos (ho.imp (congrArg Opt.word) (congrArg Opt.word))]
        exact List.mem_cons_self
      have hrest : ∀ name ∈ fileNames args, name.val.length < 127 := by
        intro name hmem
        apply hnames
        rw [fileNames]
        split_ifs
        · exact List.mem_cons_of_mem _ hmem
        · exact hmem
      have hloop : argLoop (o.word :: val :: args) s = argLoop args (s.take o val) := by
        rw [argLoop, argPass_word s o hname]
        rfl
      rw [hloop]
      rcases argLoop_cases args (s.take o val) hrest with ⟨line, rfl, h⟩ | ⟨hno, h⟩
      · exact Or.inl ⟨(o, val) :: line, rfl, h⟩
      · refine Or.inr ⟨?_, h⟩
        rintro ⟨_ | ⟨⟨o', val'⟩, line⟩, hline⟩
        · exact absurd hline (by simp [words])
        · rw [words_cons, List.cons.injEq, List.cons.injEq] at hline
          exact hno ⟨line, hline.2.2⟩
    · have hne : ∀ o : Opt, arg ≠ o.word := fun o h => hword ⟨o, h⟩
      refine Or.inr ⟨?_, s.param, ?_⟩
      · rintro ⟨_ | ⟨⟨o, val'⟩, line⟩, hline⟩
        · exact absurd hline (by simp [words])
        · rw [words_cons, List.cons.injEq] at hline
          exact hne o hline.1
      · rw [argLoop, argPass_of_ne s val hne]
        rfl

/-! ## The last value of an option -/

/-- A part of the local variables that one option sets, and no other, holds the last value of the
option. -/
lemma takeAll_register {β : Type} (get : Locals → β) (o : Opt) (f : Str → β)
    {line : List (Opt × Str)} (hself : ∀ v, (o, v) ∈ line → ∀ s : Locals, get (s.take o v) = f v)
    (hother : ∀ o', o' ≠ o → ∀ (v : Str) (s : Locals), get (s.take o' v) = get s) (s : Locals) :
    get (s.takeAll line) = ((lastValue o line).map f).getD (get s) := by
  rw [lastValue, ← lastWrite_map]
  apply register_foldl
  rintro ⟨o', v⟩ hmem s
  by_cases ho : o' = o
  · subst ho
    rw [hself v hmem s, if_pos rfl]
    rfl
  · rw [hother o' ho v s, if_neg ho]
    rfl

/-- An option has a last value if it occurs. -/
lemma isSome_lastValue_iff (o : Opt) (line : List (Opt × Str)) :
    (lastValue o line).isSome = true ↔ Occurs o line := by
  rw [← not_iff_not, Bool.not_eq_true, Option.isSome_eq_false_iff, Option.isNone_iff_eq_none,
    lastValue, lastWrite_eq_none_iff, Occurs, List.mem_map]
  constructor
  · rintro h ⟨c, hc, ho⟩
    have hnone := h c hc
    rw [if_pos ho] at hnone
    exact absurd hnone (by simp)
  · exact fun h c hc => if_neg fun ho => h ⟨c, hc, ho⟩

/-- What the options set besides the local variables. -/
private lemma takeAll_param (line : List (Opt × Str)) (s : Locals) :
    ∃ a b c d, (s.takeAll line).param =
      { s.param with replayEnable := a, recordEnable := b, replayFile := c, recordFile := d } := by
  induction line generalizing s with
  | nil => exact ⟨_, _, _, _, rfl⟩
  | cons c line ih =>
    obtain ⟨o, val⟩ := c
    obtain ⟨a, b, c, d, h⟩ := ih (s.take o val)
    refine ⟨a, b, c, d, h.trans ?_⟩
    cases o <;> rfl

/-- The modes that the options switch on.

**Proof sketch.** Both flags are registers that one option sets and the others leave alone, so
`takeAll_register` gives their last value. -/
lemma takeAll_enable (line : List (Opt × Str)) (param : RunParams) :
    (((Locals.start (initParams param)).takeAll line).param.replayEnable = true ↔
        Occurs .replay line) ∧
      (((Locals.start (initParams param)).takeAll line).param.recordEnable = true ↔
        Occurs .record line) := by
  have hvalue : ∀ v : Option Str, (v.map fun _ => true).getD false = v.isSome := fun v => by
    cases v <;> rfl
  rw [← isSome_lastValue_iff, ← isSome_lastValue_iff, ← hvalue, ← hvalue]
  constructor
  · rw [takeAll_register (fun s => s.param.replayEnable) .replay (fun _ => true)]
    · rfl
    · exact fun v _ s => rfl
    · intro o ho v s
      cases o <;> first | rfl | exact absurd rfl ho
  · rw [takeAll_register (fun s => s.param.recordEnable) .record (fun _ => true)]
    · rfl
    · exact fun v _ s => rfl
    · intro o ho v s
      cases o <;> first | rfl | exact absurd rfl ho

/-- The local variable of an option whose value is a number. -/
def Opt.slot : Opt → Locals → Int32
  | .format, s => s.format
  | .channel, s => s.channel
  | .rate, s => s.rate
  | .volume, s => s.volume
  | .speed, s => s.speed
  | .buffer, s => s.bufferSize
  | .time, s => s.second
  | .replay, _ | .record, _ => -1

/-- The number that the value of an option stands for. -/
def Opt.number : Opt → Str → Int32
  | .format, val => setFormat val
  | .replay, _ | .record, _ => -1
  | _, val => atoi val.val

/-- **The local variables after the loop**: each holds the last number of its option, or -1. -/
theorem slot_takeAll (o : Opt) (line : List (Opt × Str)) (param : RunParams) :
    o.slot ((Locals.start param).takeAll line) = ((lastValue o line).map o.number).getD (-1) := by
  have hstart : o.slot (Locals.start param) = -1 := by cases o <;> rfl
  rw [takeAll_register o.slot o o.number, hstart]
  · intro v _ s
    cases o <;> rfl
  · intro o' ho v s
    cases o <;> cases o' <;> first | rfl | exact absurd rfl ho

/-- What is assigned from a local variable. -/
private lemma assigned_eq (P : Int32 → Prop) [DecidablePred P] (hP : ¬ P (-1)) (v : Option Int32)
    (default : Int32) :
    (if P (v.getD (-1)) then v.getD (-1) else default) = (v.filter (P ·)).getD default := by
  cases v with
  | none => exact if_neg hP
  | some n => simp [Option.filter_some, apply_ite (Option.getD · default)]

/-! ## The function -/

/-- `check_arg` accepts what switches on exactly one mode. -/
private lemma finish_cases (s : Locals) :
    (Xor (s.param.replayEnable = true) (s.param.recordEnable = true) ∧ finish s = (0, s.assign)) ∨
      (¬ Xor (s.param.replayEnable = true) (s.param.recordEnable = true) ∧
        finish s = (-1, s.param)) := by
  unfold finish
  cases s.param.replayEnable <;> cases s.param.recordEnable <;> simp [Xor]

/-- When the option of one mode does not occur, the file is that of the other one. -/
private lemma lastFile_eq {o o' : Opt} (hmodes : ∀ x, x = .replay ∨ x = .record ↔ x = o ∨ x = o')
    {line : List (Opt × Str)} (hout : ¬ Occurs o' line) : lastFile line = lastValue o line := by
  apply lastWrite_congr
  intro c hc
  have hne : c.1 ≠ o' := fun h => hout (List.mem_map.mpr ⟨c, hc, h⟩)
  simp only [hmodes, hne, or_false]

/-- The file of an accepted list of options.

**Proof sketch.** In either mode the array of names is a register that only one option sets; its
string is the value of the last occurrence. -/
private lemma file_takeAll {line : List (Opt × Str)} (param : RunParams)
    (hnames : ∀ c ∈ line, c.1 = .replay ∨ c.1 = .record → c.2.val.length < 127)
    (hmode : Xor (Occurs .replay line) (Occurs .record line)) :
    ∃ name, lastFile line = some name ∧
      ((Locals.start (initParams param)).takeAll line).param.file.string = .ok name.val := by
  obtain ⟨hreplay, hrecord⟩ := takeAll_enable line param
  rcases hmode with ⟨hin, hout⟩ | ⟨hin, hout⟩
  · obtain ⟨name, hname⟩ := Option.isSome_iff_exists.mp ((isSome_lastValue_iff _ _).mpr hin)
    refine ⟨name, ?_, ?_⟩
    · rw [lastFile_eq (fun _ => Iff.rfl) hout, hname]
    · rw [RunParams.file, if_pos (hreplay.mpr hin)]
      rw [takeAll_register (fun s => s.param.replayFile.string) .replay (fun v => .ok v.val), hname]
      · rfl
      · exact fun v hv s => CharArray.string_put _ (hnames _ hv (Or.inl rfl))
      · intro o ho v s
        cases o <;> first | rfl | exact absurd rfl ho
  · obtain ⟨name, hname⟩ := Option.isSome_iff_exists.mp ((isSome_lastValue_iff _ _).mpr hin)
    refine ⟨name, ?_, ?_⟩
    · rw [lastFile_eq (fun _ => or_comm) hout, hname]
    · rw [RunParams.file, if_neg (fun h => hout (hreplay.mp h))]
      rw [takeAll_register (fun s => s.param.recordFile.string) .record (fun v => .ok v.val), hname]
      · rfl
      · exact fun v hv s => CharArray.string_put _ (hnames _ hv (Or.inr rfl))
      · intro o ho v s
        cases o <;> first | rfl | exact absurd rfl ho

/-- **What accepted options mean**.

**Proof sketch.** Each variable has the number of its option's last occurrence (`slot_takeAll`) or
still the negative start value, and `check_arg` assigns it only in the first case. The modes and the
file are those of `takeAll_enable` and `file_takeAll`. -/
theorem determined_assign {line : List (Opt × Str)} (param : RunParams)
    (hnames : ∀ c ∈ line, c.1 = .replay ∨ c.1 = .record → c.2.val.length < 127)
    (hmode : Xor (Occurs .replay line) (Occurs .record line)) :
    Determined (initParams param) line
      ((Locals.start (initParams param)).takeAll line).assign := by
  obtain ⟨hreplay, hrecord⟩ := takeAll_enable line param
  have hfile := file_takeAll param hnames hmode
  have hslot := fun o => slot_takeAll o line (initParams param)
  obtain ⟨a, b, c, d, hparam⟩ := takeAll_param line (Locals.start (initParams param))
  generalize (Locals.start (initParams param)).takeAll line = s
    at hreplay hrecord hfile hslot hparam
  have hassign : ∀ (o : Opt) (get : RunParams → Int32), get s.param = get (initParams param) →
      (if 0 ≤ o.slot s then o.slot s else get s.param) =
        orDefault ((lastValue o line).map o.number) (get (initParams param)) := by
    intro o get hget
    rw [hslot, hget]
    exact assigned_eq (0 ≤ ·) (by decide) _ _
  refine ⟨hassign .format RunParams.format (by rw [hparam]; rfl),
    hassign .channel RunParams.channel (by rw [hparam]; rfl),
    hassign .rate RunParams.rate (by rw [hparam]; rfl),
    hassign .volume RunParams.volume (by rw [hparam]; rfl),
    hassign .speed RunParams.speed (by rw [hparam]; rfl),
    hassign .buffer RunParams.bufferSize (by rw [hparam]; rfl), ?_, hreplay, hrecord, hfile⟩
  change (if 0 < Opt.time.slot s then Opt.time.slot s else s.param.second) = _
  rw [hslot, hparam]
  exact assigned_eq (0 < ·) (by decide) _ _

/-- There are two words for each option. -/
private lemma length_words (line : List (Opt × Str)) : (words line).length = 2 * line.length := by
  induction line with
  | nil => rfl
  | cons c line ih =>
    rw [words_cons, List.length_cons, List.length_cons, List.length_cons, ih]
    omega

/-- The names of files in a list of options with values. -/
private lemma mem_fileNames_words {line : List (Opt × Str)} {o : Opt} {val : Str}
    (hmem : (o, val) ∈ line) (ho : o = .replay ∨ o = .record) : val ∈ fileNames (words line) := by
  induction line with
  | nil => exact absurd hmem (by simp)
  | cons c line ih =>
    rw [words_cons, fileNames]
    rcases List.mem_cons.mp hmem with rfl | hmem
    · rw [if_pos (ho.imp (congrArg Opt.word) (congrArg Opt.word))]
      exact List.mem_cons_self
    · split_ifs
      · exact List.mem_cons_of_mem _ (ih hmem)
      · exact ih hmem

/-- With at least one option and its value the special cases for one argument do not apply. -/
private lemma checkArg_words (prog : Str) {line : List (Opt × Str)} (hne : line ≠ [])
    (param : RunParams) :
    checkArg (prog :: words line) param = (do
      match ← argLoop (words line) (Locals.start param) with
      | .again s => return finish s
      | .leave ret => return ret) := by
  have hlen : (prog :: words line).length = 2 * line.length + 1 := by
    rw [List.length_cons, length_words]
  have hpos := List.length_pos_of_ne_nil hne
  rw [checkArg, if_neg (by omega), if_neg (fun h => by omega), if_neg (fun h => by omega)]
  rfl

/-- **The command line of `sndtest`**: for every list of arguments with names of files that fit
their arrays, `check_arg` returns 0 if and only if they are in the grammar, and then the last
occurrence of each option determines what it is about.

**Proof sketch.** By `argLoop_cases` the loop takes all the options, or ends with an error on words
that are no list of options. In the first case the result depends on the two modes (`finish_cases`),
and the list is the only one with these words. -/
theorem checkArg_grammar (prog : Str) (args : List Str) (param : RunParams)
    (hnames : ∀ name ∈ fileNames args, name.val.length < 127) :
    ∃ ret p, checkArg (prog :: args) (initParams param) = .ok (ret, p) ∧
      (ret = 0 ↔ InGrammar args) ∧
      ∀ line, ret = 0 → args = words line → Determined (initParams param) line p := by
  rcases argLoop_cases args (Locals.start (initParams param)) hnames with
    ⟨line, rfl, hloop⟩ | ⟨hno, p, hloop⟩
  · by_cases hne : line = []
    · subst hne
      refine ⟨-1, initParams param, rfl, iff_of_false (by decide) ?_,
        fun _ h => absurd h (by decide)⟩
      rintro ⟨line, hne, hline, -⟩
      exact hne (words_injective hline).symm
    · have hcheck := checkArg_words prog hne (initParams param)
      rw [hloop] at hcheck
      obtain ⟨hreplay, hrecord⟩ := takeAll_enable line param
      rcases finish_cases ((Locals.start (initParams param)).takeAll line) with
        ⟨hmode, hfinish⟩ | ⟨hmode, hfinish⟩
      · rw [hreplay, hrecord] at hmode
        refine ⟨0, _, hcheck.trans (congrArg Except.ok hfinish), iff_of_true rfl ?_, ?_⟩
        · exact ⟨line, hne, rfl, hmode⟩
        · intro line' _ hline
          obtain rfl := words_injective hline
          exact determined_assign param (fun c hc ho => hnames _ (mem_fileNames_words hc ho)) hmode
      · rw [hreplay, hrecord] at hmode
        refine ⟨-1, _, hcheck.trans (congrArg Except.ok hfinish), iff_of_false (by decide) ?_,
          fun _ h => absurd h (by decide)⟩
        rintro ⟨line', -, hline, h⟩
        obtain rfl := words_injective hline
        exact hmode h
  · obtain ⟨p', hcheck⟩ : ∃ p', checkArg (prog :: args) (initParams param) = .ok (-1, p') := by
      unfold checkArg
      split_ifs
      · exact ⟨_, rfl⟩
      · exact ⟨_, rfl⟩
      · exact ⟨_, rfl⟩
      · rw [List.tail_cons, hloop]
        exact ⟨_, rfl⟩
    refine ⟨-1, p', hcheck, iff_of_false (by decide) ?_, fun _ h => absurd h (by decide)⟩
    rintro ⟨line, -, hline, -⟩
    exact hno ⟨line, hline⟩

/-- `params` before `init_params`. -/
def staticParams : RunParams :=
  ⟨0, 0, 0, 0, 0, 0, 0, 0, false, false, 0, 0, .zeroed 127, .zeroed 127, 0⟩

/-- `--volume 30 --replay a --volume -2`. -/
def replayLine : List (Opt × Str) :=
  [(.volume, ⟨text ['3', '0'], by decide⟩), (.replay, ⟨text ['a'], by decide⟩),
    (.volume, ⟨text ['-', '2'], by decide⟩)]

/-- The second volume is no good, and so the default is left. -/
theorem checkArg_grammar_replay :
    ∃ ret p, checkArg (⟨text ['s'], by decide⟩ :: words replayLine) (initParams staticParams) =
        .ok (ret, p) ∧
      (ret = 0 ↔ InGrammar (words replayLine)) ∧
      ∀ line, ret = 0 → words replayLine = words line →
        Determined (initParams staticParams) line p :=
  checkArg_grammar _ (words replayLine) staticParams (by decide)

example : (checkArg (⟨text ['s'], by decide⟩ :: words replayLine) (initParams staticParams)).map
    (fun r => (r.1, r.2.volume)) = .ok (0, 80) := rfl

end JzPretest.Sndtest

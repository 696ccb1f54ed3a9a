import JzPretest.Semantics.CString
import JzPretest.TestSpeaker.Record
import JzPretest.TestSpeaker.Replay

set_option relaxedAutoImplicit false
set_option autoImplicit false

/-!
# The options of `sndkit`

`main` takes its options one after the other, checks each and keeps what it says. The three file
names are copied into arrays of 128 bytes with `strncpy`, for the length of the name, so that the
NUL is not copied.

## Main definitions

* `JzPretest.Sndkit.Opt`, `JzPretest.Sndkit.Settings` — an option, and what `main` has set so far.
* `JzPretest.Sndkit.optionPass`, `JzPretest.Sndkit.optionLoop` — the loop over the options.

## Main results

* `JzPretest.Sndkit.accepted_of_optionLoop` — what the checks of the options ensure.
* `JzPretest.Sndkit.names_iff` — when the file names are the last ones that were given.
-/

namespace JzPretest.Sndkit

/-! ## The tables -/

/-- `supported_fmts`. -/
def supportedFmts : List (List UInt8) :=
  [text ['S', '8'], text ['U', '8'], text ['S', '1', '6', '_', 'L', 'E'],
    text ['S', '1', '6', '_', 'B', 'E'], text ['U', '1', '6', '_', 'L', 'E'],
    text ['U', '1', '6', '_', 'B', 'E'], text ['S', '2', '4', '_', '3', 'L', 'E'],
    text ['S', '2', '4', '_', '3', 'B', 'E'], text ['U', '2', '4', '_', '3', 'L', 'E'],
    text ['U', '2', '4', '_', '3', 'B', 'E']]

/-- `fmtstr_to_fmt`, but for the two flags that nothing reads. -/
def fmtstrToFmt (fmtstr : List UInt8) : Int32 :=
  match supportedFmts.idxOf? fmtstr with
  | none => -1
  | some 1 | some 0 => fmt8Bits
  | some 5 | some 4 => fmt16Bits
  | some 7 | some 6 => fmt24Bits
  | some 9 | some 8 => fmt24Bits
  | some _ => fmt16Bits

/-- `support_rates`. -/
def supportRates : List Int32 :=
  [8000, 11025, 12000, 16000, 22050, 24000, 32000, 44100, 48000, 96000]

/-- `rate_is_supported`. -/
def rateIsSupported (rate : Int32) : Bool := rate ∈ supportRates

/-! ## The loop -/

/-- What `getopt_long` returns, with `optarg` where the option has an argument. -/
inductive Opt where
  | help
  | version
  | makewav
  | strip
  | device (optarg : List UInt8)
  | fileType (optarg : List UInt8)
  | channels (optarg : List UInt8)
  | format (optarg : List UInt8)
  | rate (optarg : List UInt8)
  | duration (optarg : List UInt8)
  | bufferSize (optarg : List UInt8)
  | verbose
  | replay
  | replayFile (optarg : List UInt8)
  | record
  | recordFile (optarg : List UInt8)
  | volume (optarg : List UInt8)
  | unknown
  deriving DecidableEq, Repr

/-- What `main` has set from its options. -/
structure Settings extends Options where
  sndDev : Buffer
  replayFile : Buffer
  recordFile : Buffer
  duration : UInt32
  replayEnable : Bool
  recordEnable : Bool
  convertRawToWav : Bool
  isStripWav : Bool
  vol : Int32

/-- `DEFAULT_SND_DEV`. -/
def defaultSndDev : List UInt8 :=
  text ['/', 'd', 'e', 'v', '/', 's', 'n', 'd', '/', 'd', 's', 'p']

/-- What `main` begins with: the default device stands in an array that is not initialised. -/
def Settings.start (stack : ℕ → UInt8) : Settings where
  fileType := .wav
  channels := 2
  channelsUser := false
  format := fmt16Bits
  formatUser := false
  speed := 44100
  speedUser := false
  bufferSize := 4096 * 3
  sndDev := Buffer.overlay ⟨128, stack⟩ 0 (defaultSndDev ++ [0])
  replayFile := ⟨128, fun _ => 0⟩
  recordFile := ⟨128, fun _ => 0⟩
  duration := 10
  replayEnable := false
  recordEnable := false
  convertRawToWav := false
  isStripWav := false
  vol := 0

/-- An option that is a file name: it is copied without its NUL. -/
def nameOption (array : Buffer) (optarg : List UInt8) (set : Buffer → Settings) :
    Except Fault (Pass Settings Int32) :=
  if 127 < optarg.length then return .leave 127
  else do
    let array ← array.storeAll 0 optarg
    return .again (set array)

/-- One pass of the loop over the options: `main` goes on, or returns a value. -/
def optionPass (s : Settings) : Opt → Except Fault (Pass Settings Int32)
  | .help => return .leave 0
  | .version => return .leave 0
  | .makewav => return .again { s with convertRawToWav := true }
  | .strip => return .again { s with isStripWav := true }
  | .device optarg => nameOption s.sndDev optarg fun array => { s with sndDev := array }
  | .fileType optarg =>
    if optarg = text ['w', 'a', 'v'] then return .again { s with fileType := .wav }
    else if optarg = text ['r', 'a', 'w'] then return .again { s with fileType := .raw }
    else return .leave 127
  | .channels optarg => return .again { s with channels := atoi optarg, channelsUser := true }
  | .format optarg =>
    if fmtstrToFmt optarg < 0 then return .leave 127
    else return .again { s with format := fmtstrToFmt optarg, formatUser := true }
  | .rate optarg =>
    if rateIsSupported (atoi optarg) then
      return .again { s with speed := atoi optarg, speedUser := true }
    else return .leave 127
  | .duration optarg =>
    if (atoi optarg).toUInt32 = 0 then return .leave 127
    else return .again { s with duration := (atoi optarg).toUInt32 }
  | .bufferSize optarg => return .again { s with bufferSize := (atoi optarg).toUInt32.toNat }
  | .verbose => return .again s
  | .replay => return .again { s with replayEnable := true }
  | .replayFile optarg => nameOption s.replayFile optarg fun array => { s with replayFile := array }
  | .record => return .again { s with recordEnable := true }
  | .recordFile optarg => nameOption s.recordFile optarg fun array => { s with recordFile := array }
  | .volume optarg =>
    if atoi optarg < 0 ∨ 100 < atoi optarg then return .leave 127
    else return .again { s with vol := atoi optarg }
  | .unknown => return .leave 127

/-- The loop over the options: what `main` has set when it has taken them all, or the value that it
has returned. -/
def optionLoop : List Opt → Settings → Except Fault (Pass Settings Int32)
  | [], s => return .again s
  | o :: os, s => do
    match ← optionPass s o with
    | .again s => optionLoop os s
    | .leave ret => return .leave ret

/-- An option with which `main` goes on. -/
private lemma eq_of_again {s s' : Settings}
    (h : (return .again s : Except Fault (Pass Settings Int32)) = .ok (.again s')) : s' = s :=
  (Pass.again.inj (Except.ok.inj h)).symm

/-- An option with which it returns. -/
private lemma not_leave {ret : Int32} {s' : Settings} :
    (return .leave ret : Except Fault (Pass Settings Int32)) ≠ .ok (.again s') := by
  rintro ⟨⟩

/-- A loop that takes all options takes the first one, and then the others. -/
lemma optionLoop_cons {o : Opt} {os : List Opt} {s s' : Settings} :
    optionLoop (o :: os) s = .ok (.again s') ↔
      ∃ s₁, optionPass s o = .ok (.again s₁) ∧ optionLoop os s₁ = .ok (.again s') := by
  rw [optionLoop, bind_eq_ok]
  constructor
  · rintro ⟨s₁ | ret, hpass, h⟩
    · exact ⟨s₁, hpass, h⟩
    · exact absurd h not_leave
  · rintro ⟨s₁, hpass, h⟩
    exact ⟨.again s₁, hpass, h⟩

/-! ## What the checks ensure -/

/-- The formats that `fmtstr_to_fmt` knows. -/
private lemma fmtstrToFmt_mem (fmtstr : List UInt8) :
    fmtstrToFmt fmtstr ∈ [-1, fmt8Bits, fmt16Bits, fmt24Bits] := by
  unfold fmtstrToFmt
  split <;> simp

/-- What `main` has checked: the rate and the format are ones it knows, and there is something to
record. -/
structure Accepted (s : Settings) : Prop where
  speed : rateIsSupported s.speed = true
  format : s.format ∈ [fmt8Bits, fmt16Bits, fmt24Bits]
  duration : s.duration ≠ 0

/-- The settings before the first option. -/
theorem accepted_start (stack : ℕ → UInt8) : Accepted (Settings.start stack) where
  speed := rfl
  format := show fmt16Bits ∈ _ by decide
  duration := show (10 : UInt32) ≠ 0 by decide

/-- A file name that is taken changes only its array. -/
private lemma nameOption_eq_again {array : Buffer} {optarg : List UInt8} {set : Buffer → Settings}
    {s' : Settings} (h : nameOption array optarg set = .ok (.again s')) :
    ∃ array', s' = set array' := by
  unfold nameOption at h
  split_ifs at h
  · exact absurd h not_leave
  · obtain ⟨array', -, h⟩ := bind_eq_ok.mp h
    exact ⟨array', eq_of_again h⟩

/-- An option that is taken keeps what has been checked.

**Proof sketch.** By the option: only the format, the rate and the duration change what has been
checked, and each is checked before it is taken. -/
lemma Accepted.pass {s s' : Settings} (h : Accepted s) {o : Opt}
    (hpass : optionPass s o = .ok (.again s')) : Accepted s' := by
  cases o with
  | help | version | unknown => exact absurd hpass not_leave
  | makewav | strip | verbose | replay | record =>
    obtain rfl := eq_of_again hpass
    exact ⟨h.speed, h.format, h.duration⟩
  | channels optarg | bufferSize optarg =>
    obtain rfl := eq_of_again hpass
    exact ⟨h.speed, h.format, h.duration⟩
  | device optarg | replayFile optarg | recordFile optarg =>
    obtain ⟨array, rfl⟩ := nameOption_eq_again hpass
    exact ⟨h.speed, h.format, h.duration⟩
  | fileType optarg =>
    rw [optionPass] at hpass
    split_ifs at hpass
    · obtain rfl := eq_of_again hpass
      exact ⟨h.speed, h.format, h.duration⟩
    · obtain rfl := eq_of_again hpass
      exact ⟨h.speed, h.format, h.duration⟩
    · exact absurd hpass not_leave
  | format optarg =>
    rw [optionPass] at hpass
    split_ifs at hpass with hneg
    · exact absurd hpass not_leave
    · obtain rfl := eq_of_again hpass
      refine ⟨h.speed, ?_, h.duration⟩
      rcases List.mem_cons.mp (fmtstrToFmt_mem optarg) with hfmt | hfmt
      · exact absurd (hfmt ▸ by decide) hneg
      · exact hfmt
  | rate optarg =>
    rw [optionPass] at hpass
    split_ifs at hpass with hrate
    · obtain rfl := eq_of_again hpass
      exact ⟨hrate, h.format, h.duration⟩
    · exact absurd hpass not_leave
  | duration optarg =>
    rw [optionPass] at hpass
    split_ifs at hpass with hzero
    · exact absurd hpass not_leave
    · obtain rfl := eq_of_again hpass
      exact ⟨h.speed, h.format, hzero⟩
  | volume optarg =>
    rw [optionPass] at hpass
    split_ifs at hpass
    · exact absurd hpass not_leave
    · obtain rfl := eq_of_again hpass
      exact ⟨h.speed, h.format, h.duration⟩

/-- **What the checks ensure** of everything that `main` goes on with. -/
theorem accepted_of_optionLoop {os : List Opt} : ∀ {s s' : Settings}, Accepted s →
    optionLoop os s = .ok (.again s') → Accepted s' := by
  induction os with
  | nil =>
    intro s s' h hloop
    obtain rfl := eq_of_again hloop
    exact h
  | cons o os ih =>
    intro s s' h hloop
    obtain ⟨s₁, hpass, hrest⟩ := optionLoop_cons.mp hloop
    exact ih (h.pass hpass) hrest

/-! ## The file names -/

/-- The options that are file names. -/
inductive NameOption where
  | device
  | replayFile
  | recordFile
  deriving DecidableEq, Repr

namespace NameOption

/-- The option with a name. -/
def opt : NameOption → List UInt8 → Opt
  | .device, name => .device name
  | .replayFile, name => .replayFile name
  | .recordFile, name => .recordFile name

/-- The array that the name is copied to. -/
def array : NameOption → Settings → Buffer
  | .device, s => s.sndDev
  | .replayFile, s => s.replayFile
  | .recordFile, s => s.recordFile

/-- The name when none is given. -/
def default : NameOption → List UInt8
  | .device => defaultSndDev
  | .replayFile => []
  | .recordFile => []

/-- The names that are given for an option, in their order. -/
def values (o : NameOption) (given : List (NameOption × List UInt8)) : List (List UInt8) :=
  (given.filter fun g => g.1 = o).map Prod.snd

/-- The first value of an option comes first. -/
private lemma values_cons_self (o : NameOption) (name : List UInt8)
    (given : List (NameOption × List UInt8)) :
    o.values ((o, name) :: given) = name :: o.values given := by
  simp [values]

/-- A value of another option does not count. -/
private lemma values_cons_of_ne {o o' : NameOption} (h : o' ≠ o) (name : List UInt8)
    (given : List (NameOption × List UInt8)) :
    o.values ((o', name) :: given) = o.values given := by
  simp [values, h]

/-- A value of an option has been given for it. -/
private lemma mem_of_mem_values {o : NameOption} {given : List (NameOption × List UInt8)}
    {name : List UInt8} (h : name ∈ o.values given) : (o, name) ∈ given := by
  obtain ⟨⟨o', name'⟩, hmem, rfl⟩ := List.mem_map.mp h
  obtain ⟨hgiven, ho⟩ := List.mem_filter.mp hmem
  obtain rfl : o' = o := by simpa using ho
  exact hgiven

/-- The loop over options that are file names. -/
def loop (given : List (NameOption × List UInt8)) (s : Settings) :
    Except Fault (Pass Settings Int32) :=
  optionLoop (given.map fun g => g.1.opt g.2) s

/-- One name is copied to its array; the other arrays are left alone.

**Proof sketch.** A name of at most 127 characters fits its array; the array that is written is that
of the option. -/
private lemma optionPass_opt (o : NameOption) {name : List UInt8} (hname : name.length ≤ 127)
    {s : Settings} (hsize : (o.array s).size = 128) :
    ∃ s', optionPass s (o.opt name) = .ok (.again s') ∧
      o.array s' = (o.array s).overlay 0 name ∧ ∀ o', o' ≠ o → o'.array s' = o'.array s := by
  have hcopy : ∀ set, nameOption (o.array s) name set =
      .ok (.again (set ((o.array s).overlay 0 name))) := by
    intro set
    rw [nameOption, if_neg (by omega), Buffer.storeAll_eq (by omega)]
    rfl
  cases o with
  | device =>
    refine ⟨_, hcopy _, rfl, fun o' ho' => ?_⟩
    cases o' with
    | device => exact absurd rfl ho'
    | replayFile => rfl
    | recordFile => rfl
  | replayFile =>
    refine ⟨_, hcopy _, rfl, fun o' ho' => ?_⟩
    cases o' with
    | device => rfl
    | replayFile => exact absurd rfl ho'
    | recordFile => rfl
  | recordFile =>
    refine ⟨_, hcopy _, rfl, fun o' ho' => ?_⟩
    cases o' with
    | device => rfl
    | replayFile => rfl
    | recordFile => exact absurd rfl ho'

/-- **The loop over file names**: each array gets the names of its option, one after another.

**Proof sketch.** Induction on the names: each is copied over what its array holds
(`optionPass_opt`), and the arrays keep their sizes. -/
theorem loop_eq {given : List (NameOption × List UInt8)} : ∀ {s : Settings},
    (∀ g ∈ given, g.2.length ≤ 127) → (∀ o : NameOption, (o.array s).size = 128) →
    ∃ s', loop given s = .ok (.again s') ∧
      ∀ o : NameOption, o.array s' = (o.array s).overlays (o.values given) := by
  induction given with
  | nil => exact fun {s} _ _ => ⟨s, rfl, fun o => rfl⟩
  | cons g given ih =>
    intro s hgiven hsize
    obtain ⟨o, name⟩ := g
    obtain ⟨hname, hgiven⟩ := List.forall_mem_cons.mp hgiven
    obtain ⟨s₁, hpass, hself, hother⟩ := optionPass_opt o hname (hsize o)
    have hsize₁ : ∀ o' : NameOption, (o'.array s₁).size = 128 := by
      intro o'
      by_cases ho' : o' = o
      · subst ho'
        rw [hself, Buffer.overlay_size, hsize]
      · rw [hother o' ho', hsize]
    obtain ⟨s', hloop, harrays⟩ := ih hgiven hsize₁
    refine ⟨s', optionLoop_cons.mpr ⟨s₁, hpass, hloop⟩, fun o' => ?_⟩
    rw [harrays]
    by_cases ho' : o' = o
    · subst ho'
      rw [values_cons_self, Buffer.overlays_cons, hself]
    · rw [values_cons_of_ne (Ne.symm ho'), hother o' ho']

/-- Where the array of the device holds a zero before the loop: behind the default device, and where
the memory happens to be zero. -/
private lemma byte_start_sndDev (stack : ℕ → UInt8) (i : ℕ) :
    (Settings.start stack).sndDev.byte i = 0 ↔ i = 12 ∨ 12 < i ∧ stack i = 0 := by
  have hlen : (defaultSndDev ++ [0]).length = 13 := rfl
  simp only [Settings.start, Buffer.overlay, hlen, Nat.zero_le, true_and, Nat.zero_add,
    Nat.sub_zero]
  by_cases hi : i < 13
  · rw [if_pos hi]
    have hzero : ∀ i < 13, (defaultSndDev ++ [0]).getD i 0 = 0 ↔ i = 12 := by decide
    rw [hzero i hi]
    omega
  · rw [if_neg hi]
    constructor
    · exact fun h => Or.inr ⟨by omega, h⟩
    · rintro (h | ⟨-, h⟩)
      · omega
      · exact h

/-- Before the loop the arrays hold the defaults. -/
private lemma string_start (stack : ℕ → UInt8) (o : NameOption) :
    (o.array (Settings.start stack)).string = .ok o.default := by
  cases o with
  | device =>
    have hcopy : slice (Settings.start stack).sndDev.byte 0 13 = defaultSndDev ++ [0] :=
      Buffer.slice_overlay ⟨128, stack⟩ 0 (defaultSndDev ++ [0])
    change cString (slice (Settings.start stack).sndDev.byte 0 (13 + 115)) = _
    rw [slice_add, hcopy, List.append_assoc]
    exact cString_append (by decide) _
  | replayFile => rfl
  | recordFile => rfl

/-- The last name given for an option, if there is one, is not shorter than one before it, and the
array holds a zero behind it: so do those of the two files; that of the device holds one
behind the default, and where the memory happens to be zero. -/
def Ended (stack : ℕ → UInt8) (o : NameOption) (names : List (List UInt8)) : Prop :=
  ∀ earlier last, names = earlier ++ [last] →
    (∀ name ∈ earlier, name.length ≤ last.length) ∧
      (o = .device → last.length = 12 ∨ 12 < last.length ∧ stack last.length = 0)

/-- Where the arrays hold a zero before the loop. -/
private lemma byte_start (stack : ℕ → UInt8) (o : NameOption) (i : ℕ) :
    (o.array (Settings.start stack)).byte i = 0 ↔
      (o = .device → i = 12 ∨ 12 < i ∧ stack i = 0) := by
  cases o with
  | device => exact (byte_start_sndDev stack i).trans ⟨fun h _ => h, fun h => h rfl⟩
  | replayFile => exact iff_of_true rfl (fun h => absurd h (by decide))
  | recordFile => exact iff_of_true rfl (fun h => absurd h (by decide))

/-- The name in an array after some have been copied to it.

**Proof sketch.** Without a name the array holds the default. Otherwise it holds the last name
exactly if there is a zero behind it, from an earlier name or from the beginning
(`string_overlays_iff`). -/
private lemma string_overlays_start_iff (stack : ℕ → UInt8) (o : NameOption)
    {names : List (List UInt8)} (hnames : ∀ name ∈ names, name.length ≤ 127 ∧ 0 ∉ name) :
    ((o.array (Settings.start stack)).overlays names).string =
        .ok (names.getLast?.getD o.default) ↔ Ended stack o names := by
  rcases List.eq_nil_or_concat names with rfl | ⟨earlier, last, rfl⟩
  · exact iff_of_true (string_start stack o) (fun earlier last h => absurd h (by simp))
  · rw [List.concat_eq_append] at hnames ⊢
    have hsize : (o.array (Settings.start stack)).size = 128 := by
      cases o <;> rfl
    obtain ⟨hlen, hlast⟩ := hnames last (by simp)
    have hearlier : ∀ name ∈ earlier, 0 ∉ name := fun name hname =>
      (hnames name (List.mem_append_left _ hname)).2
    rw [List.getLast?_concat, Option.getD_some,
      Buffer.string_overlays_iff hearlier hlast (by omega), byte_start]
    constructor
    · rintro h earlier' last' heq
      obtain ⟨rfl, hlast'⟩ := List.append_inj' heq rfl
      obtain rfl : last = last' := by simpa using hlast'
      exact h
    · exact fun h => h earlier last rfl

end NameOption

/-- **When the file names mean what was given**: after the loop over any sequence of them, each of
the three arrays holds the last name that was given for it, or its default, if and only if for no
array an earlier name is longer than the last one, and the last name for the device, if any, ends
where its array holds a zero.

**Proof sketch.** `NameOption.loop_eq` says what the arrays hold after the loop, and
`NameOption.string_overlays_start_iff` when that is the last name. -/
theorem names_iff (stack : ℕ → UInt8) (given : List (NameOption × List UInt8))
    (hgiven : ∀ g ∈ given, 1 ≤ g.2.length ∧ g.2.length ≤ 127 ∧ 0 ∉ g.2) :
    (∃ s, NameOption.loop given (Settings.start stack) = .ok (.again s) ∧
      ∀ o : NameOption,
        (o.array s).string = .ok ((o.values given).getLast?.getD o.default)) ↔
      ∀ o : NameOption, o.Ended stack (o.values given) := by
  have hsize : ∀ o : NameOption, (o.array (Settings.start stack)).size = 128 := by
    intro o
    cases o <;> rfl
  obtain ⟨s, hloop, harrays⟩ := NameOption.loop_eq (fun g hg => (hgiven g hg).2.1) hsize
  have hstring : ∀ o : NameOption,
      (o.array s).string = .ok ((o.values given).getLast?.getD o.default) ↔
        o.Ended stack (o.values given) := by
    intro o
    rw [harrays]
    exact NameOption.string_overlays_start_iff stack o fun name hname =>
      (hgiven (o, name) (NameOption.mem_of_mem_values hname)).2
  constructor
  · rintro ⟨s', hloop', hs'⟩ o
    obtain rfl : s = s' := Pass.again.inj (Except.ok.inj (hloop.symm.trans hloop'))
    exact (hstring o).mp (hs' o)
  · exact fun h => ⟨s, hloop, fun o => (hstring o).mpr (h o)⟩

/-- `-p abc -p x`. -/
def twoNames : List (NameOption × List UInt8) :=
  [(.replayFile, text ['a', 'b', 'c']), (.replayFile, text ['x'])]

/-- The second name does not replace all of the first one. -/
theorem names_iff_twoNames :
    ¬ ∃ s, NameOption.loop twoNames (Settings.start fun _ => 0) = .ok (.again s) ∧
      ∀ o : NameOption, (o.array s).string = .ok ((o.values twoNames).getLast?.getD o.default) := by
  rw [names_iff (fun _ => 0) twoNames (by decide)]
  intro h
  have hearlier := (h .replayFile [text ['a', 'b', 'c']] (text ['x']) rfl).1
  exact absurd (hearlier _ (List.mem_singleton_self _)) (by decide)

/-- `-D /dev/dsp`. -/
def otherDevice : List (NameOption × List UInt8) :=
  [(.device, text ['/', 'd', 'e', 'v', '/', 'd', 's', 'p'])]

/-- **A device with a shorter name than the default** is not opened: the array then holds
`/dev/dsp/dsp`.

**Proof sketch.** The run is computed: the string in the array is longer than the name that was
given. -/
theorem device_not_replaced :
    (NameOption.loop otherDevice (Settings.start fun _ => 0)).map
        (fun | .again s => some s.sndDev.string | .leave _ => none) =
      .ok (some (.ok (text ['/', 'd', 'e', 'v', '/', 'd', 's', 'p', '/', 'd', 's', 'p']))) ∧
    ¬ ∃ s, NameOption.loop otherDevice (Settings.start fun _ => 0) = .ok (.again s) ∧
      ∀ o : NameOption,
        (o.array s).string = .ok ((o.values otherDevice).getLast?.getD o.default) := by
  have hrun : (NameOption.loop otherDevice (Settings.start fun _ => 0)).map
      (fun | .again s => some s.sndDev.string | .leave _ => none) =
      .ok (some (.ok (text ['/', 'd', 'e', 'v', '/', 'd', 's', 'p', '/', 'd', 's', 'p']))) := rfl
  refine ⟨hrun, ?_⟩
  rintro ⟨s, hs, hstring⟩
  rw [hs] at hrun
  have hdevice := hstring .device
  have hlonger : s.sndDev.string = _ := Option.some.inj (Except.ok.inj hrun)
  have heq := Except.ok.inj (hdevice.symm.trans hlonger)
  exact absurd heq (by decide)

end JzPretest.Sndkit

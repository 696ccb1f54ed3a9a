import JzPretest.Semantics.Transition
import JzPretest.TestVibrator.GetSelect

set_option relaxedAutoImplicit false
set_option autoImplicit false

/-!
# The current test

`currenttest` of `test_vibrator.sh` starts `getevent` in the background, which creates a log and
appends a line to it for each of five events, and calls `get_select` on the log until that says on
which button the screen was touched. Nothing makes the shell wait until the log is there.

## Main definitions

* `JzPretest.Vibrator.step` — the steps of the shell and of the background job.
* `JzPretest.Vibrator.Decided` — only the operator decides how the test ends.
* `JzPretest.Vibrator.Meets` — the job keeps ahead of the shell, and the log is complete.

## Main results

* `JzPretest.Vibrator.decided_of_run` — in runs whose steps meet the condition, the operator
  decides.
* `JzPretest.Vibrator.selectFailed_of_early` — opening the log too early ends the test.
-/

namespace JzPretest.Vibrator

/-! ## The steps -/

/-- The background job: about to create the log, or with some of its five lines still to write. -/
inductive Job where
  | starting
  | writing (left : ℕ)
  deriving DecidableEq, Repr

/-- Where the shell is: about to call `get_select`, in its loop with `row` lines read, back from it
with `select`, or at the end, which is the branch `*)` or an exit in one of the branches before
it. -/
inductive Shell where
  | polling
  | reading (row : ℕ) (touch : Touch)
  | selected (select : ℕ)
  | exited (code : ℕ)
  | selectFailed
  deriving DecidableEq, Repr

/-- The state of the test. -/
structure State where
  /-- The lines of `/tmp/test_select.log`, if it is there. -/
  log : Option (List Line)
  job : Job
  shell : Shell

/-- What happens next: the shell or `get_select` goes on, or the job does. -/
inductive Label where
  | shell
  | create
  | event (line : Line)
  deriving DecidableEq

/-- When the loop begins, the log has been removed and the job has been started. -/
def State.start : State := ⟨none, .starting, .polling⟩

/-- The `case` on the result of `get_select`. -/
def afterSelect (s : State) (select : ℕ) : State :=
  if select = 1 then { s with shell := .exited 0 }
  else if select = 2 then { s with shell := .exited 2 }
  else if select = 3 then ⟨none, .starting, .polling⟩
  else if select = 4 then { s with shell := .polling }
  else { s with shell := .selectFailed }

/-- Where the shell is when `get_select` has read `row` lines: it reads five, and then it
answers. -/
def afterLine (screen : Screen) (row : ℕ) (touch : Touch) : Shell :=
  if row < 5 then .reading row touch
  else .selected (buttonSelect screen touch.x touch.y)

/-- The shell, with `get_select` call by call: `fopen` and then up to five calls of `fgets`. -/
def shellStep (screen : Screen) (s : State) : Option State :=
  match s.shell with
  | .polling =>
    match s.log with
    | none => some { s with shell := .selected 255 }
    | some _ => some { s with shell := .reading 0 ⟨0, 0⟩ }
  | .reading row touch =>
    match (s.log.getD [])[row]? with
    | none => some { s with shell := .selected 4 }
    | some line => some { s with shell := afterLine screen (row + 1) (readLine touch line) }
  | .selected select => some (afterSelect s select)
  | .exited _ => none
  | .selectFailed => none

/-- The steps. A line that the job writes after the log has been removed is lost. -/
def step (screen : Screen) (s : State) : Label → Option State
  | .shell => shellStep screen s
  | .create =>
    match s.job with
    | .starting => some { s with log := some [], job := .writing 5 }
    | .writing _ => none
  | .event line =>
    match s.job with
    | .writing (left + 1) =>
      some { s with log := s.log.map fun lines => lines ++ [line], job := .writing left }
    | _ => none

/-! ## What is promised, and when it is kept -/

/-- **Only the operator decides**: the test has not failed by itself, and if it has ended, then for
a log of five lines that says that one of the buttons was touched. -/
structure Decided (screen : Screen) (s : State) : Prop where
  running : s.shell ≠ .selectFailed
  exited : ∀ code, s.shell = .exited code → ∃ lines touch, s.log = some lines ∧
    lines.length = 5 ∧ touched lines = some touch ∧
    (code = 0 ∧ PassArea screen touch.x touch.y ∨ code = 2 ∧ FailArea screen touch.x touch.y)

/-- A log of five lines that lacks a coordinate does not pass for a touch of a button with 0 in its
place. -/
def Located (screen : Screen) (lines : List Line) : Prop :=
  lines.length = 5 → touched lines = none →
    ¬ PassArea screen ((lastCoordinate xCo lines).getD 0) ((lastCoordinate yCo lines).getD 0) ∧
      ¬ FailArea screen ((lastCoordinate xCo lines).getD 0) ((lastCoordinate yCo lines).getD 0)

instance (screen : Screen) (lines : List Line) : Decidable (Located screen lines) :=
  inferInstanceAs (Decidable (_ → _ → _))

/-- The condition on a step: `get_select` is not called before the job has created the log, and what
the log says can be told from what it does not say. -/
structure Meets (screen : Screen) (s : State) (a : Label) : Prop where
  created : a = .shell → s.shell = .polling → s.job ≠ .starting
  located : ∀ lines ∈ s.log, Located screen lines

instance (screen : Screen) (s : State) (a : Label) : Decidable (Meets screen s a) :=
  decidable_of_iff
    ((a = .shell → s.shell = .polling → s.job ≠ .starting) ∧ ∀ lines ∈ s.log, Located screen lines)
    ⟨fun h => ⟨h.1, h.2⟩, fun h => ⟨h.created, h.located⟩⟩

/-- The log and the job: every line is one of five. -/
def LogInv (s : State) : Prop :=
  (s.job = .starting ∧ s.log = none) ∨
    ∃ left lines, s.job = .writing left ∧ s.log = some lines ∧ lines.length + left = 5

/-- The shell and the log: what `get_select` has read stands in the log, and an answer is one for
the whole log. -/
def ShellInv (screen : Screen) (s : State) : Prop :=
  match s.shell with
  | .polling => True
  | .reading row touch => row < 5 ∧
    ∃ lines, s.log = some lines ∧ row ≤ lines.length ∧ touch = touchOf (lines.take row)
  | .selected select => ∃ lines, s.log = some lines ∧ (select = 4 ∨ lines.length = 5 ∧
    select = buttonSelect screen (touchOf lines).x (touchOf lines).y)
  | .exited _ => Decided screen s
  | .selectFailed => False

/-- Both invariants hold before the first step. -/
lemma inv_start (screen : Screen) : LogInv .start ∧ ShellInv screen .start :=
  ⟨Or.inl ⟨rfl, rfl⟩, trivial⟩

/-- The invariant keeps the promise. -/
lemma ShellInv.decided {screen : Screen} {s : State} (h : ShellInv screen s) :
    Decided screen s := by
  unfold ShellInv at h
  cases hshell : s.shell with
  | exited code =>
    rw [hshell] at h
    exact h
  | selectFailed =>
    rw [hshell] at h
    exact absurd h not_false
  | polling | reading row touch | selected select =>
    exact ⟨by simp [hshell], fun code hcode => by simp [hshell] at hcode⟩

/-! ## One step -/

/-- Where `get_select` finds a button, a log that is `Located` says that the screen was touched: the
exit of the test is decided. -/
lemma Located.decided_exited {screen : Screen} {s : State} {lines : List Line} {code : ℕ}
    (h : Located screen lines) (hlines : s.log = some lines) (hfive : lines.length = 5)
    (harea : code = 0 ∧ PassArea screen (touchOf lines).x (touchOf lines).y ∨
      code = 2 ∧ FailArea screen (touchOf lines).x (touchOf lines).y) :
    Decided screen { s with shell := .exited code } := by
  have htouched : touched lines ≠ none := by
    intro hnone
    obtain ⟨hpass, hfail⟩ := h hfive hnone
    rw [touchOf_eq] at harea
    exact harea.elim (fun ha => hpass ha.2) (fun ha => hfail ha.2)
  obtain ⟨touch, htouch⟩ := Option.ne_none_iff_exists'.mp htouched
  rw [touchOf_eq_of_touched htouch] at harea
  refine ⟨fun hfailed => Shell.noConfusion hfailed, fun code' hcode => ?_⟩
  obtain rfl : code = code' := Shell.exited.inj hcode
  exact ⟨lines, touch, hlines, hfive, htouch, harea⟩

/-- What has been read does not change when a line is appended. -/
private lemma touchOf_take_succ {lines : List Line} {row : ℕ} {line : Line}
    (h : lines[row]? = some line) :
    touchOf (lines.take (row + 1)) = readLine (touchOf (lines.take row)) line := by
  rw [List.take_add_one, h, Option.toList_some, touchOf_concat]

section ShellStep

variable {screen : Screen} {s s' : State} {lines : List Line} {row : ℕ} {touch : Touch}

/-- `fopen`. -/
private lemma shellStep_polling (hs : s.shell = .polling) (hlines : s.log = some lines) :
    shellStep screen s = some { s with shell := .reading 0 ⟨0, 0⟩ } := by
  simp only [shellStep, hs, hlines]

/-- `fgets` at the end of the log. -/
private lemma shellStep_reading_none (hs : s.shell = .reading row touch)
    (hlines : s.log = some lines) (hline : lines[row]? = none) :
    shellStep screen s = some { s with shell := .selected 4 } := by
  simp only [shellStep, hs, hlines, Option.getD_some, hline]

/-- `fgets`, when there is a line. -/
private lemma shellStep_reading_some {line : Line}
    (hs : s.shell = .reading row (touchOf (lines.take row)))
    (hlines : s.log = some lines) (hline : lines[row]? = some line) :
    shellStep screen s =
      some { s with shell := afterLine screen (row + 1) (touchOf (lines.take (row + 1))) } := by
  simp only [shellStep, hs, hlines, Option.getD_some, hline, ← touchOf_take_succ hline]

/-- The `case`. -/
private lemma shellStep_selected {select : ℕ} (hs : s.shell = .selected select) :
    shellStep screen s = some (afterSelect s select) := by
  simp only [shellStep, hs]

/-- The shell leaves the log and the job alone, or it removes the log and starts the job again.

**Proof sketch.** By the state of the shell and, behind `get_select`, by its verdict: only the
verdict to test again removes the log and starts the job. -/
private lemma shellStep_log (hstep : shellStep screen s = some s') :
    s'.log = s.log ∧ s'.job = s.job ∨ s'.log = none ∧ s'.job = .starting := by
  unfold shellStep at hstep
  split at hstep
  · split at hstep <;> (obtain rfl := Option.some.inj hstep; exact Or.inl ⟨rfl, rfl⟩)
  · split at hstep <;> (obtain rfl := Option.some.inj hstep; exact Or.inl ⟨rfl, rfl⟩)
  · obtain rfl := Option.some.inj hstep
    unfold afterSelect
    split_ifs
    · exact Or.inl ⟨rfl, rfl⟩
    · exact Or.inl ⟨rfl, rfl⟩
    · exact Or.inr ⟨rfl, rfl⟩
    · exact Or.inl ⟨rfl, rfl⟩
    · exact Or.inl ⟨rfl, rfl⟩
  · cases hstep
  · cases hstep

end ShellStep

/-- **The log**, whatever happens.

**Proof sketch.** By the label. Creating the log starts it empty with five events to come, and each
event appends one line. -/
theorem LogInv.step {screen : Screen} {s s' : State} {a : Label} (h : LogInv s)
    (hstep : step screen s a = some s') : LogInv s' := by
  cases a with
  | shell =>
    rcases shellStep_log hstep with ⟨hlog, hjob⟩ | ⟨hlog, hjob⟩
    · rwa [LogInv, hlog, hjob]
    · exact Or.inl ⟨hjob, hlog⟩
  | create =>
    rcases h with ⟨hjob, -⟩ | ⟨left, lines, hjob, -⟩
    · simp only [Vibrator.step, hjob, Option.some.injEq] at hstep
      subst hstep
      exact Or.inr ⟨5, [], rfl, rfl, rfl⟩
    · simp [Vibrator.step, hjob] at hstep
  | event line =>
    rcases h with ⟨hjob, -⟩ | ⟨left, lines, hjob, hlines, hsum⟩
    · simp [Vibrator.step, hjob] at hstep
    · cases left with
      | zero => simp [Vibrator.step, hjob] at hstep
      | succ left =>
        simp only [Vibrator.step, hjob, hlines, Option.map_some, Option.some.injEq] at hstep
        subst hstep
        refine Or.inr ⟨left, _, rfl, rfl, ?_⟩
        rw [List.length_append, List.length_singleton]
        omega

/-- There are five lines at most. -/
lemma LogInv.length_le {s : State} (h : LogInv s) {lines : List Line}
    (hlines : s.log = some lines) : lines.length ≤ 5 := by
  rcases h with ⟨-, hnone⟩ | ⟨left, lines', -, hlines', hsum⟩
  · simp [hnone] at hlines
  · obtain rfl : lines = lines' := Option.some.inj (hlines.symm.trans hlines')
    omega

/-- **The shell goes on**.

**Proof sketch.** By the state of the shell. A poll finds the log, because the condition says that
it has been created; a row is read, or the log has ended too early; and a verdict on all five lines
is right, because the condition says that the touch is located. -/
theorem ShellInv.shellStep {screen : Screen} {s s' : State} (hshell : ShellInv screen s)
    (hlog : LogInv s) (hmeets : Meets screen s .shell)
    (hstep : shellStep screen s = some s') : ShellInv screen s' := by
  unfold ShellInv at hshell
  cases hs : s.shell with
  | exited code => simp [Vibrator.shellStep, hs] at hstep
  | selectFailed => simp [Vibrator.shellStep, hs] at hstep
  | polling =>
    rcases hlog with ⟨hjob, -⟩ | ⟨left, lines, hjob, hlines, hsum⟩
    · exact absurd hjob (hmeets.created rfl hs)
    · rw [shellStep_polling hs hlines, Option.some.injEq] at hstep
      subst hstep
      exact ⟨by decide, lines, hlines, Nat.zero_le _, rfl⟩
  | reading row touch =>
    rw [hs] at hshell
    obtain ⟨hrow, lines, hlines, hle, rfl⟩ := hshell
    have hlen : lines.length ≤ 5 := hlog.length_le hlines
    cases hline : lines[row]? with
    | none =>
      rw [shellStep_reading_none hs hlines hline, Option.some.injEq] at hstep
      subst hstep
      exact ⟨lines, hlines, Or.inl rfl⟩
    | some line =>
      have hlt : row < lines.length := (List.getElem?_eq_some_iff.mp hline).1
      rw [shellStep_reading_some hs hlines hline, Option.some.injEq] at hstep
      subst hstep
      unfold afterLine
      by_cases hmore : row + 1 < 5
      · rw [if_pos hmore]
        exact ⟨hmore, lines, hlines, hlt, rfl⟩
      · rw [if_neg hmore, List.take_of_length_le (by omega)]
        exact ⟨lines, hlines, Or.inr ⟨by omega, rfl⟩⟩
  | selected select =>
    rw [hs] at hshell
    obtain ⟨lines, hlines, hselect⟩ := hshell
    rw [shellStep_selected hs, Option.some.injEq] at hstep
    subst hstep
    rcases hselect with rfl | ⟨hfive, rfl⟩
    · trivial
    · have hlocated : Located screen lines := hmeets.located lines hlines
      rcases buttonSelect_cases screen (touchOf lines).x (touchOf lines).y with
        ⟨hone, hpass⟩ | ⟨htwo, hfail⟩ | hthree
      · rw [hone]
        exact hlocated.decided_exited hlines hfive (Or.inl ⟨rfl, hpass⟩)
      · rw [htwo]
        exact hlocated.decided_exited hlines hfive (Or.inr ⟨rfl, hfail⟩)
      · rw [hthree]
        trivial

/-- While there is no log the shell has not begun to read one.

**Proof sketch.** Every other state of the shell has read a log. -/
lemma ShellInv.of_log_none {screen : Screen} {s : State} (h : ShellInv screen s)
    (hnone : s.log = none) : s.shell = .polling := by
  unfold ShellInv at h
  cases hs : s.shell with
  | polling => rfl
  | reading row touch =>
    rw [hs] at h
    obtain ⟨-, lines, hlines, -⟩ := h
    simp [hnone] at hlines
  | selected select =>
    rw [hs] at h
    obtain ⟨lines, hlines, -⟩ := h
    simp [hnone] at hlines
  | exited code =>
    rw [hs] at h
    obtain ⟨lines, touch, hlines, -⟩ := h.exited code hs
    simp [hnone] at hlines
  | selectFailed =>
    rw [hs] at h
    exact absurd h not_false

/-- A line is appended while the log is not complete: what the shell has read of it is still there,
and it has no answer for the whole log yet.

**Proof sketch.** By the state of the shell: what has been read is a beginning of the longer log
too, and a verdict on five lines is not possible while there are fewer. -/
lemma ShellInv.append {screen : Screen} {s : State} (h : ShellInv screen s) {lines : List Line}
    (hlines : s.log = some lines) (hlen : lines.length < 5) (line : Line) (job : Job) :
    ShellInv screen ⟨some (lines ++ [line]), job, s.shell⟩ := by
  unfold ShellInv at h ⊢
  cases hs : s.shell with
  | polling => trivial
  | reading row touch =>
    rw [hs] at h
    obtain ⟨hrow, lines', hlines', hle, rfl⟩ := h
    obtain rfl : lines = lines' := Option.some.inj (hlines.symm.trans hlines')
    refine ⟨hrow, _, rfl, ?_, ?_⟩
    · rw [List.length_append]
      omega
    · rw [List.take_append_of_le_length hle]
  | selected select =>
    rw [hs] at h
    obtain ⟨lines', hlines', hselect⟩ := h
    obtain rfl : lines = lines' := Option.some.inj (hlines.symm.trans hlines')
    rcases hselect with rfl | ⟨hfive, -⟩
    · exact ⟨_, rfl, Or.inl rfl⟩
    · omega
  | exited code =>
    rw [hs] at h
    obtain ⟨lines', touch, hlines', hfive, -⟩ := h.exited code hs
    obtain rfl : lines = lines' := Option.some.inj (hlines.symm.trans hlines')
    omega
  | selectFailed =>
    rw [hs] at h
    exact absurd h not_false

/-- **One step** that meets the condition keeps what is known of the shell.

**Proof sketch.** A step of the shell is `ShellInv.shellStep`, and a line that is appended is
`ShellInv.append`. -/
theorem ShellInv.step {screen : Screen} {s s' : State} {a : Label} (hshell : ShellInv screen s)
    (hlog : LogInv s) (hmeets : Meets screen s a) (hstep : step screen s a = some s') :
    ShellInv screen s' := by
  cases a with
  | shell => exact hshell.shellStep hlog hmeets hstep
  | create =>
    rcases hlog with ⟨hjob, hnone⟩ | ⟨left, lines, hjob, -⟩
    · have hpolling := hshell.of_log_none hnone
      simp only [Vibrator.step, hjob, Option.some.injEq] at hstep
      subst hstep
      simp only [ShellInv, hpolling]
    · simp [Vibrator.step, hjob] at hstep
  | event line =>
    rcases hlog with ⟨hjob, -⟩ | ⟨left, lines, hjob, hlines, hsum⟩
    · simp [Vibrator.step, hjob] at hstep
    · cases left with
      | zero => simp [Vibrator.step, hjob] at hstep
      | succ left =>
        simp only [Vibrator.step, hjob, hlines, Option.map_some, Option.some.injEq] at hstep
        subst hstep
        exact hshell.append hlines (by omega) line _

/-! ## Runs -/

/-- **Only the operator decides**, in every run in which the job has always created its log before
`get_select` is called, and complete logs say where the screen was touched.

**Proof sketch.** Every step keeps `LogInv`: the log is removed only when the job is started again,
so whenever the job is not about to create it, it is there. With that, every step that meets the
condition keeps `ShellInv`. -/
theorem decided_of_run (screen : Screen) (labels : List Label) (s : State)
    (hmeets : Transition.Along (step screen) (Meets screen) .start labels)
    (hrun : Transition.run (step screen) .start labels = some s) : Decided screen s := by
  have hinv := Transition.run_invariant_of (I := fun s => LogInv s ∧ ShellInv screen s)
    (fun s a s' h hm hs => ⟨h.1.step hs, h.2.step h.1 hm hs⟩) (inv_start screen) hmeets hrun
  exact hinv.2.decided

/-- Five events of one touch. -/
def oneTouch : List Line :=
  [⟨text ['0', '0', '0', '3', ' ', '0', '0', '3', '9', ' ', '0', '0', '0', '0', '0', '0', '0', '1'],
      by decide⟩,
    ⟨text ['0', '0', '0', '3', ' ', '0', '0', '3', '5', ' ',
      '0', '0', '0', '0', '0', '1', 'f', '4'],
      by decide⟩,
    ⟨text ['0', '0', '0', '3', ' ', '0', '0', '3', '6', ' ',
      '0', '0', '0', '0', '0', '0', '6', '4'],
      by decide⟩,
    ⟨text ['0', '0', '0', '0', ' ', '0', '0', '0', '2', ' ',
      '0', '0', '0', '0', '0', '0', '0', '0'],
      by decide⟩,
    ⟨text ['0', '0', '0', '0', ' ', '0', '0', '0', '0', ' ',
      '0', '0', '0', '0', '0', '0', '0', '0'],
      by decide⟩]

/-- A run in which the shell looks at the log for the first time when two lines are there, and for
the second time when all are. The touch is on the button for a pass. -/
def passingRun : List Label :=
  .create :: (oneTouch.take 2).map .event ++ List.replicate 4 .shell ++
    (oneTouch.drop 2).map .event ++ List.replicate 8 .shell

/-- A run in which one touch passes the test. -/
theorem decided_of_run_passing : Decided ⟨720, 1280, true⟩ ⟨some oneTouch, .writing 0, .exited 0⟩ :=
  decided_of_run ⟨720, 1280, true⟩ passingRun _ (by decide) rfl

/-! ## The race -/

/-- **Whatever happens**, a job that is about to create the log has none. -/
theorem logInv_of_run {screen : Screen} {labels : List Label} {s : State}
    (hrun : Transition.run (step screen) .start labels = some s) : LogInv s :=
  Transition.run_invariant (fun _ _ _ h hs => h.step hs) (inv_start screen).1 hrun

/-- **Too early**: in every state that a run reaches in which the job has not created the log when
`get_select` is called, the shell ends the test by itself. -/
theorem selectFailed_of_early {screen : Screen} {labels : List Label} {s : State}
    (hrun : Transition.run (step screen) .start labels = some s) (hpolling : s.shell = .polling)
    (hjob : s.job = .starting) :
    ∃ s', Transition.run (step screen) s [.shell, .shell] = some s' ∧ s'.shell = .selectFailed := by
  have hlog : s.log = none := by
    rcases logInv_of_run hrun with ⟨-, hnone⟩ | ⟨left, lines, hwriting, -⟩
    · exact hnone
    · simp [hjob] at hwriting
  refine ⟨{ s with shell := .selectFailed }, ?_, rfl⟩
  simp [Transition.run, step, shellStep, hpolling, hlog, afterSelect]

/-- The shell calls `get_select` at once: nothing was touched, and the test has failed. -/
theorem selectFailed_at_once :
    ¬ ∀ labels s, Transition.run (step ⟨720, 1280, true⟩) .start labels = some s →
      Decided ⟨720, 1280, true⟩ s := by
  intro h
  have hrun : Transition.run (step ⟨720, 1280, true⟩) .start [.shell, .shell] =
      some ⟨none, .starting, .selectFailed⟩ := rfl
  exact (h _ _ hrun).running rfl

end JzPretest.Vibrator

import Mathlib.Algebra.GroupWithZero.Nat
import Mathlib.Data.List.Nodup

set_option relaxedAutoImplicit false
set_option autoImplicit false

/-!
# The report of `pretest.sh`

For each device, `pretest.sh` runs the test script once for every time the device is named in
`mmi.item`. It keeps two records of what has failed: `failed_count`, which counts the runs, and
the positional parameters, to which a device is added when `check_scripts` returns the status of
its last run.

## Main definitions

* `JzPretest.Pretest.checkScripts` — `check_scripts`.
* `JzPretest.Pretest.pretest` — the script, up to the endless loop.
* `JzPretest.Pretest.Complete` — a report that says what has failed.

## Main results

* `JzPretest.Pretest.foldl_checkDevice` — the two records, and what has been run.
* `JzPretest.Pretest.complete_iff` — when the report is complete.
-/

namespace JzPretest.Pretest

/-- A device: its word in `mmi.item`, its test script and its name in the report. -/
structure Device where
  item : String
  script : String
  name : String
  deriving DecidableEq, Repr

/-- The line that says that something has failed. -/
def failedLine (name : String) : String := name ++ ":FAILED"

/-- The state of the shell. -/
structure Shell where
  /-- `failed_count`. -/
  failedCount : ℕ
  /-- The positional parameters. -/
  params : List String
  /-- The lines that have been printed. -/
  printed : List String
  /-- The test scripts that have been run, with their exit statuses. -/
  runs : List (String × UInt8)
  deriving DecidableEq, Repr

section Script

variable (outcome : ℕ → UInt8) (items : List String)

/-- One pass of the loop of `check_scripts`, on `err` and the shell. The `n`-th run of a test script
has the exit status `outcome n`. -/
def checkItem (name script : String) (acc : UInt8 × Shell) (item : String) : UInt8 × Shell :=
  if item = name then
    let err := outcome acc.2.runs.length
    let s := { acc.2 with runs := acc.2.runs ++ [(script, err)] }
    if err ≠ 0 then
      (err, { s with
        printed := s.printed ++ [failedLine item], failedCount := s.failedCount + 1 })
    else (err, s)
  else acc

/-- `check_scripts`, for the words of `mmi.item`: the status that it returns, and the shell. -/
def checkScripts (name script : String) (s : Shell) : UInt8 × Shell :=
  items.foldl (checkItem outcome name script) (0, s)

/-- A call of `check_scripts` and the `if` after it. -/
def checkDevice (s : Shell) (d : Device) : Shell :=
  let (err, s) := checkScripts outcome items d.item d.script s
  if err ≠ 0 then { s with params := s.params ++ [failedLine d.name] } else s

/-- The devices in the order of the script. -/
def devices : List Device :=
  [⟨"bluetooth", "test_bluetooth.sh", "BLUETOOTH"⟩,
    ⟨"charge", "test_charge.sh", "CHARGE"⟩,
    ⟨"touchkey", "test_touchscreen.sh", "TP"⟩,
    ⟨"backlight", "test_brightness.sh", "BACKLIGHT"⟩,
    ⟨"vibrator", "test_vibrator.sh", "VIBRATOR"⟩,
    ⟨"lcddisplay", "test_lcd.sh", "LCD"⟩,
    ⟨"heartrate", "test_heartrate.sh", "HEARTRATE"⟩,
    ⟨"gsensor", "test_frizz_gsensor.sh", "GSENSOR"⟩,
    ⟨"gyrsensor", "test_frizz_gyro.sh", "GYRO"⟩,
    ⟨"magsensor", "test_frizz_magnet.sh", "MAGNET"⟩,
    ⟨"proximity", "test_proximity.sh", "PROXIMITY"⟩]

/-- The shell before the first device. -/
def start : Shell :=
  ⟨0, ["devices_list:"], ["system init ok", "searching pretest scripts..."], []⟩

/-- `pretest.sh`: the shell after the report, and whether the script stays in the endless loop. -/
def pretest (version : String) : Shell × Bool :=
  let s := devices.foldl (checkDevice outcome items) start
  let s := { s with printed := s.printed ++ ["VERSION:" ++ version] ++ s.params }
  (s, 0 < s.failedCount)

end Script

/-- **A report that says what has failed**: the line of a device is printed exactly when a run of
its script has failed, and the script stays in the endless loop exactly when such a line is
printed. -/
structure Complete (r : Shell × Bool) : Prop where
  line : ∀ d ∈ devices, failedLine d.name ∈ r.1.printed ↔
    ∃ status, status ≠ 0 ∧ (d.script, status) ∈ r.1.runs
  loop : r.2 = true ↔ ∃ d ∈ devices, failedLine d.name ∈ r.1.printed

/-! ## The runs of the test scripts -/

section Runs

variable (outcome : ℕ → UInt8) (items : List String)

/-- The exit statuses of the runs for the words that name a device, when `m` test scripts have been
run before. -/
def statuses (name : String) : List String → ℕ → List UInt8
  | [], _ => []
  | item :: items, m =>
    if item = name then outcome m :: statuses name items (m + 1) else statuses name items m

/-- The exit statuses of all runs, device by device. -/
def allStatuses : List Device → ℕ → List (Device × List UInt8)
  | [], _ => []
  | d :: ds, m =>
    (d, statuses outcome d.item items m) ::
      allStatuses ds (m + (statuses outcome d.item items m).length)

/-- The scripts of these devices have been run, in their order. -/
lemma map_fst_allStatuses (ds : List Device) (m : ℕ) :
    (allStatuses outcome items ds m).map Prod.fst = ds := by
  induction ds generalizing m with
  | nil => rfl
  | cons d ds ih => rw [allStatuses, List.map_cons, ih]

/-- What `check_scripts` leaves when the runs for the device had these statuses. -/
def afterRuns (name script : String) (sts : List UInt8) (s : Shell) : Shell where
  failedCount := s.failedCount + (sts.filter (· ≠ 0)).length
  params := s.params
  printed := s.printed ++ (sts.filter (· ≠ 0)).map fun _ => failedLine name
  runs := s.runs ++ sts.map fun status => (script, status)

/-- **`check_scripts`** returns the status of the last run, and counts all that have failed.

**Proof sketch.** Induction on the items: an item of another name changes nothing, one of this name
is a run of the script, of which the status is the last so far. -/
theorem foldl_checkItem (name script : String) (items : List String) :
    ∀ (err : UInt8) (s : Shell),
      items.foldl (checkItem outcome name script) (err, s) =
        ((statuses outcome name items s.runs.length).getLastD err,
          afterRuns name script (statuses outcome name items s.runs.length) s) := by
  induction items with
  | nil =>
    intro err s
    simp [statuses, afterRuns]
  | cons item items ih =>
    intro err s
    rw [List.foldl_cons, checkItem, statuses]
    by_cases hname : item = name
    · subst hname
      dsimp only
      rw [if_pos rfl, if_pos rfl]
      rw [List.getLastD_cons]
      by_cases herr : outcome s.runs.length = 0
      · rw [if_neg (not_not.mpr herr), ih, List.length_append, List.length_singleton]
        congr 1
        simp [afterRuns, herr]
      · rw [if_pos herr, ih, List.length_append, List.length_singleton]
        congr 1
        simp [afterRuns, herr, Nat.add_assoc, Nat.add_comm 1]
    · rw [if_neg hname, if_neg hname, ih]

/-- Whether the last run for a device has failed. -/
def lastFailed (sts : List UInt8) : Bool := sts.getLastD 0 ≠ 0

/-- What the calls of `check_scripts` leave when the runs had these statuses. -/
def afterDevices (rs : List (Device × List UInt8)) (s : Shell) : Shell where
  failedCount := s.failedCount + (rs.map fun r => (r.2.filter (· ≠ 0)).length).sum
  params := s.params ++ (rs.filter fun r => lastFailed r.2).map fun r => failedLine r.1.name
  printed := s.printed ++
    rs.flatMap fun r => (r.2.filter (· ≠ 0)).map fun _ => failedLine r.1.item
  runs := s.runs ++ rs.flatMap fun r => r.2.map fun status => (r.1.script, status)

/-- **All devices**: a device is added to the positional parameters when its last run has failed,
while every run that has failed is counted.

**Proof sketch.** Induction on the devices: `foldl_checkItem` says what one device does, and it is
added to the parameters if the last status is not zero. -/
theorem foldl_checkDevice (ds : List Device) (s : Shell) :
    ds.foldl (checkDevice outcome items) s =
      afterDevices (allStatuses outcome items ds s.runs.length) s := by
  induction ds generalizing s with
  | nil => simp [allStatuses, afterDevices]
  | cons d ds ih =>
    rw [List.foldl_cons, ih, checkDevice, checkScripts, foldl_checkItem, allStatuses]
    generalize statuses outcome d.item items s.runs.length = sts
    dsimp only
    by_cases hlast : sts.getLastD 0 = 0
    · have hfailed : lastFailed sts = false := decide_eq_false (not_not.mpr hlast)
      rw [if_neg (not_not.mpr hlast)]
      simp [afterDevices, afterRuns, hfailed, Nat.add_assoc]
    · have hfailed : lastFailed sts = true := decide_eq_true hlast
      rw [if_pos hlast]
      simp [afterDevices, afterRuns, hfailed, Nat.add_assoc]

end Runs

/-! ## When the report is complete -/

/-- The lines of different devices are different, and none is printed for another reason. -/
private lemma failedLine_devices : ∀ d ∈ devices,
    (∀ d' ∈ devices, failedLine d.name = failedLine d'.name → d = d') ∧
      (∀ d' ∈ devices, failedLine d.name ≠ failedLine d'.item) ∧
      failedLine d.name ∉ start.printed ∧ failedLine d.name ∉ start.params := by
  decide

/-- The line of a device is not the line with the version. -/
private lemma failedLine_ne_version (version : String) {d : Device} (hd : d ∈ devices) :
    failedLine d.name ≠ "VERSION:" ++ version := by
  have htake : ∀ d ∈ devices, (failedLine d.name).toList.take 8 ≠ "VERSION:".toList := by decide
  intro h
  apply htake d hd
  rw [h, String.toList_append]
  exact List.take_left' (by decide)

section Report

variable (outcome : ℕ → UInt8) (items : List String) (version : String)

/-- The exit statuses of all runs of `pretest.sh`. -/
def reportStatuses : List (Device × List UInt8) := allStatuses outcome items devices 0

/-- A device has one list of statuses. -/
private lemma reportStatuses_unique {d : Device} {sts sts' : List UInt8}
    (h : (d, sts) ∈ reportStatuses outcome items) (h' : (d, sts') ∈ reportStatuses outcome items) :
    sts = sts' := by
  have hnodup : ((reportStatuses outcome items).map Prod.fst).Nodup := by
    rw [reportStatuses, map_fst_allStatuses]
    decide
  exact congrArg Prod.snd (List.inj_on_of_nodup_map hnodup h h' rfl)

/-- What is reported is about a device of the list. -/
lemma mem_devices {r : Device × List UInt8} (h : r ∈ reportStatuses outcome items) :
    r.1 ∈ devices := by
  rw [← map_fst_allStatuses outcome items devices 0]
  exact List.mem_map_of_mem h

/-- The line of a device is printed when its last run has failed.

**Proof sketch.** A line that is printed is one of the item checks, of the version, of the
parameters or of the devices; by `failedLine_devices` it differs from all but its own device's. -/
private lemma mem_printed_iff {d : Device} (hd : d ∈ devices) :
    failedLine d.name ∈ (pretest outcome items version).1.printed ↔
      ∃ sts, (d, sts) ∈ reportStatuses outcome items ∧ lastFailed sts = true := by
  obtain ⟨hname, hitem, hprinted, hparams⟩ := failedLine_devices d hd
  simp only [pretest, foldl_checkDevice, afterDevices, List.mem_append, List.mem_singleton]
  constructor
  · rintro (((h | h) | h) | (h | h))
    · exact absurd h hprinted
    · obtain ⟨r, hr, hline⟩ := List.mem_flatMap.mp h
      obtain ⟨status, -, hline⟩ := List.mem_map.mp hline
      exact absurd hline.symm (hitem r.1 (mem_devices outcome items hr))
    · exact absurd h (failedLine_ne_version version hd)
    · exact absurd h hparams
    · obtain ⟨r, hr, hline⟩ := List.mem_map.mp h
      obtain ⟨hr, hlast⟩ := List.mem_filter.mp hr
      obtain rfl := hname r.1 (mem_devices outcome items hr) hline.symm
      exact ⟨r.2, hr, hlast⟩
  · rintro ⟨sts, hsts, hlast⟩
    exact Or.inr (Or.inr (List.mem_map.mpr ⟨(d, sts), List.mem_filter.mpr ⟨hsts, hlast⟩, rfl⟩))

/-- A script has run with some status when that is one of the statuses of its device. -/
private lemma mem_runs_iff {d : Device} (hd : d ∈ devices) (status : UInt8) :
    (d.script, status) ∈ (pretest outcome items version).1.runs ↔
      ∃ sts, (d, sts) ∈ reportStatuses outcome items ∧ status ∈ sts := by
  have hscript : ∀ d ∈ devices, ∀ d' ∈ devices, d'.script = d.script → d' = d := by decide
  simp only [pretest, foldl_checkDevice, afterDevices, start, List.nil_append, List.mem_flatMap,
    List.mem_map, Prod.mk.injEq]
  constructor
  · rintro ⟨r, hr, status', hstatus, heq, rfl⟩
    obtain rfl := hscript d hd r.1 (mem_devices outcome items hr) heq
    exact ⟨r.2, hr, hstatus⟩
  · rintro ⟨sts, hsts, hstatus⟩
    exact ⟨(d, sts), hsts, status, hstatus, rfl, rfl⟩

/-- The script stays in the endless loop when some run of some device has failed. -/
private lemma loop_iff : (pretest outcome items version).2 = true ↔
    ∃ r ∈ reportStatuses outcome items, ∃ status ∈ r.2, status ≠ 0 := by
  change decide (0 < (devices.foldl (checkDevice outcome items) start).failedCount) = true ↔ _
  rw [decide_eq_true_eq, foldl_checkDevice]
  simp only [afterDevices, start, Nat.zero_add, List.sum_pos_iff_exists_pos_nat, List.mem_map]
  constructor
  · rintro ⟨_, ⟨r, hr, rfl⟩, hpos⟩
    obtain ⟨status, hstatus⟩ := List.exists_mem_of_length_pos hpos
    obtain ⟨hmem, hne⟩ := List.mem_filter.mp hstatus
    exact ⟨r, hr, status, hmem, of_decide_eq_true hne⟩
  · rintro ⟨r, hr, status, hmem, hne⟩
    exact ⟨_, ⟨r, hr, rfl⟩, List.length_pos_of_mem
      (List.mem_filter.mpr ⟨hmem, decide_eq_true hne⟩)⟩

/-- **The report is complete** if and only if no device has a run that has failed although its last
run has not.

**Proof sketch.** The line of a device is printed when its last run has failed
(`mem_printed_iff`), and the endless loop is entered when any run has (`loop_iff`). -/
theorem complete_iff :
    Complete (pretest outcome items version) ↔
      ∀ r ∈ reportStatuses outcome items, (∃ status ∈ r.2, status ≠ 0) → lastFailed r.2 = true := by
  constructor
  · rintro ⟨hline, -⟩ ⟨d, sts⟩ hr ⟨status, hstatus, hne⟩
    have hd := mem_devices outcome items hr
    have hrun := (mem_runs_iff outcome items version hd status).mpr ⟨sts, hr, hstatus⟩
    obtain ⟨sts', hsts', hlast⟩ :=
      (mem_printed_iff outcome items version hd).mp ((hline d hd).mpr ⟨status, hne, hrun⟩)
    rwa [reportStatuses_unique outcome items hr hsts']
  · intro h
    have hlast : ∀ {sts : List UInt8}, lastFailed sts = true → ∃ status ∈ sts, status ≠ 0 := by
      intro sts hsts
      rw [lastFailed, decide_eq_true_eq] at hsts
      cases sts with
      | nil => exact absurd rfl hsts
      | cons status sts =>
        rw [List.getLastD_cons] at hsts
        exact ⟨_, List.getLastD_mem_cons, hsts⟩
    refine ⟨fun d hd => ?_, ?_⟩
    · rw [mem_printed_iff outcome items version hd]
      constructor
      · rintro ⟨sts, hsts, hl⟩
        obtain ⟨status, hstatus, hne⟩ := hlast hl
        exact ⟨status, hne, (mem_runs_iff outcome items version hd status).mpr ⟨sts, hsts, hstatus⟩⟩
      · rintro ⟨status, hne, hrun⟩
        obtain ⟨sts, hsts, hstatus⟩ := (mem_runs_iff outcome items version hd status).mp hrun
        exact ⟨sts, hsts, h (d, sts) hsts ⟨status, hstatus, hne⟩⟩
    · rw [loop_iff]
      constructor
      · rintro ⟨r, hr, hfail⟩
        have hd := mem_devices outcome items hr
        exact ⟨r.1, hd, (mem_printed_iff outcome items version hd).mpr ⟨r.2, hr, h r hr hfail⟩⟩
      · rintro ⟨d, hd, hprinted⟩
        obtain ⟨sts, hsts, hl⟩ := (mem_printed_iff outcome items version hd).mp hprinted
        exact ⟨(d, sts), hsts, hlast hl⟩

end Report

/-- The first run fails, and no other. -/
def firstFails (n : ℕ) : UInt8 := if n = 0 then 1 else 0

/-- A device that is named twice, and whose first run fails, is not in the report, although the
script stays in the endless loop. -/
theorem twice_named_missing :
    ("test_lcd.sh", 1) ∈ (pretest firstFails ["lcddisplay", "lcddisplay"] "").1.runs ∧
      failedLine "LCD" ∉ (pretest firstFails ["lcddisplay", "lcddisplay"] "").1.printed ∧
      (pretest firstFails ["lcddisplay", "lcddisplay"] "").2 = true ∧
      ¬ Complete (pretest firstFails ["lcddisplay", "lcddisplay"] "") := by
  have hrun : ("test_lcd.sh", 1) ∈
      (pretest firstFails ["lcddisplay", "lcddisplay"] "").1.runs := by decide
  have hline : failedLine "LCD" ∉
      (pretest firstFails ["lcddisplay", "lcddisplay"] "").1.printed := by decide
  refine ⟨hrun, hline, by decide, fun h => ?_⟩
  have hdevice : ⟨"lcddisplay", "test_lcd.sh", "LCD"⟩ ∈ devices := by decide
  exact hline ((h.line _ hdevice).mpr ⟨1, by decide, hrun⟩)

end JzPretest.Pretest

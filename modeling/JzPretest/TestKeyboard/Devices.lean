import JzPretest.Semantics.TextFile

set_option relaxedAutoImplicit false
set_option autoImplicit false

/-!
# Which device is opened

`open_keyboard_fd` and `open_button_fd` look in `/proc/bus/input/devices` for the device with a
name, and take from the line of its handlers which event node to open. Two copies of a limited
length cut off what follows the number, and all digits of the number but the first.

## Main definitions

* `JzPretest.Widget.searchDevice`, `JzPretest.Widget.appendEvent` — the loops.
* `JzPretest.Widget.openKeyboardFd`, `JzPretest.Widget.openButtonFd` — the path that is opened.
* `JzPretest.Widget.handlersLine` — the line of the handlers of a device.

## Main results

* `JzPretest.Widget.openPath_eq` — the path, for every list of devices.
* `JzPretest.Widget.openPath_iff` — when it is the event node of the device.
-/

namespace JzPretest.Widget

/-! ## The functions -/

/-- `NAME`. -/
def keysName : List UInt8 := text ['g', 'p', 'i', 'o', '-', 'k', 'e', 'y', 's']

/-- The end of the name of a touch screen. -/
def tsName : List UInt8 := text ['_', 't', 's']

/-- `HANDLERS`. -/
def handlers : List UInt8 := text ['H', 'a', 'n', 'd', 'l', 'e', 'r', 's']

/-- What the name of an event node begins with. -/
def eventWord : List UInt8 := text ['e', 'v', 'e', 'n', 't']

/-- `dev_path` before the search. -/
def inputDir : List UInt8 := text ['/', 'd', 'e', 'v', '/', 'i', 'n', 'p', 'u', 't', '/']

/-- The inner loop, over what `fgets` returns: the first line with handlers extends `dev_path`.
There is no path when `strlcpy` gets `NULL`. -/
def appendEvent (devPath : List UInt8) : List (List UInt8) → Option (List UInt8)
  | [] => some devPath
  | line :: rest =>
    if (strstr handlers line).isSome then do
      let tmp ← strstr eventWord line
      let event := strlcpy 8 tmp
      return strlcat devPath event 18
    else appendEvent devPath rest

/-- The outer loop: the first line with the name is looked for. -/
def searchDevice (name : List UInt8) : List (List UInt8) → Option (List UInt8)
  | [] => some inputDir
  | line :: rest =>
    if (strstr name line).isSome then appendEvent inputDir rest else searchDevice name rest

/-- The path that is opened for a device with this name; `MAXLINE` is 128. -/
def openPath (name : List UInt8) (devices : Str) : Option (List UInt8) :=
  searchDevice name (pieces 127 devices.val)

/-- `open_keyboard_fd`, up to the call of `open`: the path. -/
def openKeyboardFd : Str → Option (List UInt8) := openPath keysName

/-- `open_button_fd`, up to the call of `open`. -/
def openButtonFd : Str → Option (List UInt8) := openPath tsName

/-! ## The path -/

/-- The line of the handlers of the first device with this name. -/
def handlersLine (name : List UInt8) (ls : List (List UInt8)) : Option (List UInt8) :=
  (ls.dropWhile fun line => (strstr name line).isNone).tail.find? fun line =>
    (strstr handlers line).isSome

/-- What `dev_path` becomes: six characters are appended to it.

**Proof sketch.** Induction on the lines: the first one with the handlers decides. The copy into
eight bytes is longer than what the path has room for, which is six characters. -/
private lemma appendEvent_eq (ls : List (List UInt8)) :
    appendEvent inputDir ls =
      match ls.find? fun line => (strstr handlers line).isSome with
      | none => some inputDir
      | some line => (strstr eventWord line).map fun first => inputDir ++ first.take 6 := by
  induction ls with
  | nil => rfl
  | cons line ls ih =>
    rw [appendEvent, List.find?_cons]
    cases (strstr handlers line).isSome with
    | false => exact ih
    | true =>
      dsimp only
      rw [if_pos rfl]
      cases strstr eventWord line with
      | none => rfl
      | some first =>
        have htake : strlcat inputDir (strlcpy 8 first) 18 = inputDir ++ first.take 6 := by
          rw [strlcat, strlcpy, List.take_take]
          rfl
        exact congrArg some htake

/-- **The path**: six characters from the first `event` on, in the line of the handlers.

**Proof sketch.** The pieces of lines that fit are the lines. Induction on them: the first one with
the name is where the search for the handlers begins. -/
theorem openPath_eq (name : List UInt8) {devices : Str}
    (hshort : ∀ l ∈ lines devices.val, l.length ≤ 127) :
    openPath name devices =
      match handlersLine name (lines devices.val) with
      | none => some inputDir
      | some line => (strstr eventWord line).map fun first => inputDir ++ first.take 6 := by
  rw [openPath, pieces_eq_lines hshort]
  generalize lines devices.val = ls
  unfold handlersLine
  induction ls with
  | nil => rfl
  | cons line ls ih =>
    rw [searchDevice, List.dropWhile_cons]
    cases strstr name line with
    | none => exact ih
    | some _ => exact appendEvent_eq ls

/-- **When the event node of the device is opened**: for every list of devices with lines that fit,
and every number behind an `event` in the line of the handlers, if and only if the number has one
digit, and follows the first `event` of the line.

**Proof sketch.** By `openPath_eq` the path is six characters from the first `event` on. A number
has one digit if and only if `event` and the number are six characters, so they are these six
exactly when they begin at the first `event`. -/
theorem openPath_iff (name : List UInt8) (devices : Str)
    (hshort : ∀ l ∈ lines devices.val, l.length ≤ 127) {line before after : List UInt8} {n : ℕ}
    {c : UInt8} (hline : handlersLine name (lines devices.val) = some line)
    (hnumber : line = before ++ (eventWord ++ decimal n ++ c :: after)) :
    openPath name devices = some (inputDir ++ (eventWord ++ decimal n)) ↔
      n < 10 ∧ ∀ first, strstr eventWord line = some first → eventWord ++ decimal n <+: first := by
  have hevent : eventWord <+: eventWord ++ decimal n ++ c :: after := by
    rw [List.append_assoc]
    exact List.prefix_append _ _
  obtain ⟨first, hfirst, -, hsuffix⟩ := exists_strstr_of_append hevent before
  rw [← hnumber] at hfirst
  rw [openPath_eq name hshort, hline]
  dsimp only
  rw [hfirst, Option.map_some, Option.some.injEq, List.append_cancel_left_eq]
  have hlen := hsuffix.length_le
  have hword : eventWord.length = 5 := rfl
  have hpos := length_decimal_pos n
  rw [List.length_append, List.length_append, List.length_cons, hword] at hlen
  have hdigit : n < 10 ↔ (decimal n).length = 1 := by
    have hle := length_decimal_le_iff (n := n) Nat.zero_lt_one
    rw [Nat.pow_one] at hle
    omega
  rw [hdigit]
  constructor
  · intro htake
    have h6 : (first.take 6).length = 6 := by
      rw [List.length_take]
      omega
    rw [htake, List.length_append, hword] at h6
    refine ⟨by omega, fun first' h => ?_⟩
    obtain rfl := Option.some.inj h
    exact htake ▸ List.take_prefix 6 first
  · rintro ⟨hone, hpre⟩
    have h := List.prefix_iff_eq_take.mp (hpre first rfl)
    rw [List.length_append, hword, hone] at h
    exact h.symm

/-- A list with one device, the keys, and the number of its event node. -/
def keysDevice (number : Str) : Str :=
  ⟨text ['N', ':', ' ', 'g', 'p', 'i', 'o', '-', 'k', 'e', 'y', 's', '\n'] ++
    (text ['H', 'a', 'n', 'd', 'l', 'e', 'r', 's', '=', 'e', 'v', 'e', 'n', 't'] ++
      (number.val ++ [32, 10])), by
    have hname : (0 : UInt8) ∉
        text ['N', ':', ' ', 'g', 'p', 'i', 'o', '-', 'k', 'e', 'y', 's', '\n'] := by decide
    have hevent : (0 : UInt8) ∉
        text ['H', 'a', 'n', 'd', 'l', 'e', 'r', 's', '=', 'e', 'v', 'e', 'n', 't'] := by decide
    simp only [List.mem_append, not_or]
    exact ⟨hname, hevent, number.property, by decide⟩⟩

/-- The keys are `event3`. -/
theorem openPath_iff_three :
    openPath keysName (keysDevice ⟨decimal 3, by decide⟩) =
      some (inputDir ++ (eventWord ++ decimal 3)) := by
  have hnumber : text ['H', 'a', 'n', 'd', 'l', 'e', 'r', 's', '=', 'e', 'v', 'e', 'n', 't'] ++
      (decimal 3 ++ [32, 10]) =
        text ['H', 'a', 'n', 'd', 'l', 'e', 'r', 's', '='] ++
          (eventWord ++ decimal 3 ++ 32 :: [10]) :=
    rfl
  refine (openPath_iff keysName _ (by decide) rfl hnumber).mpr ⟨by decide, fun first hfirst => ?_⟩
  obtain rfl := Option.some.inj hfirst
  decide

/-- **A number with two digits**: the keys are `event12`, and `event1` is opened. -/
theorem openKeyboardFd_twelve :
    openKeyboardFd (keysDevice ⟨decimal 12, by decide⟩) =
        some (inputDir ++ (eventWord ++ decimal 1)) ∧
      openKeyboardFd (keysDevice ⟨decimal 12, by decide⟩) ≠
        some (inputDir ++ (eventWord ++ decimal 12)) := by
  decide

end JzPretest.Widget

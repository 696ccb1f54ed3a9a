import JzPretest.Semantics.TextFile
import Mathlib.Data.Fin.Basic

set_option relaxedAutoImplicit false
set_option autoImplicit false

/-!
# `test_eventnum`

`test_eventnum` reads the log of `getevent`, which names each input device in two lines, and returns
the number of the event node of a device. It takes two strings at a time from `fgets`, with arrays
of 50 characters, and at most six times, so that a long line shifts the pairs after it.

## Main definitions

* `JzPretest.Pretest.testEventnum` — the program.
* `JzPretest.Pretest.Entry`, `JzPretest.Pretest.logText` — what `getevent` says about a device, and
  a log.
* `JzPretest.Pretest.pairs` — what the program takes together.

## Main results

* `JzPretest.Pretest.eventnumLoop_eq` — the loop looks the device up in the first six pairs.
* `JzPretest.Pretest.testEventnum_iff` — when the program returns the number of the device.
-/

namespace JzPretest.Pretest

/-! ## The program -/

/-- `event`. -/
def eventStr : List UInt8 := text ['e', 'v', 'e', 'n', 't']

/-- The loop of `main`, for so many passes more, over what `fgets` returns. -/
def eventnumLoop (devName : List UInt8) : ℕ → List (List UInt8) → Int32
  | passes + 1, buf1 :: buf2 :: rest =>
    if (strstr devName buf2).isSome then
      match strstr eventStr buf1 with
      | none => -1
      | some devStr =>
        let eventNum := atoi (devStr.drop 5)
        if eventNum < 0 ∨ 10 ≤ eventNum then -1 else eventNum
    else if feofAfter 49 buf2 then -1
    else eventnumLoop devName passes rest
  | _, _ => -1

/-- `main`, for a device name and a log, `none` when it cannot be opened. -/
def testEventnum (devName : Str) : Option Str → Int32
  | none => -1
  | some log => eventnumLoop devName.val 6 (pieces 49 log.val)

/-! ## Looking up a device -/

/-- What is taken together: the first with the second, the third with the fourth, and so on. -/
def pairs {α : Type} : List α → List (α × α)
  | a :: b :: l => (a, b) :: pairs l
  | _ => []

/-- Lines that are written in pairs are read in pairs. -/
private lemma pairs_flatMap {α β : Type} (f g : α → β) (l : List α) :
    pairs (l.flatMap fun a => [f a, g a]) = l.map fun a => (f a, g a) := by
  induction l with
  | nil => rfl
  | cons a l ih => rw [List.flatMap_cons, List.map_cons, ← ih]; rfl

/-- The number of the event node behind the first `event`, if it is one of the first ten. -/
def eventNumber (line : List UInt8) : Option Int32 := do
  let devStr ← strstr eventStr line
  let eventNum := atoi (devStr.drop 5)
  if eventNum < 0 ∨ 10 ≤ eventNum then none else some eventNum

/-- The second of two lines has the name. -/
def named (devName : Str) (p : List UInt8 × List UInt8) : Bool := (strstr devName.val p.2).isSome

/-- **What the loop does**: it takes the first pair of which the second part has the name, and looks
for the number in the first part.

**Proof sketch.** Induction on the passes, by the number of pieces that are left. A pair without the
name goes on with the next one: `feof` is false after its second piece unless nothing is left, and
then every later pass finds nothing either. -/
theorem eventnumLoop_eq (devName : Str) (passes : ℕ) : ∀ ps : List (List UInt8), EndsLast 49 ps →
    eventnumLoop devName.val passes ps =
      ((((pairs ps).take passes).find? (named devName)).bind
        fun p => eventNumber p.1).getD (-1) := by
  induction passes with
  | zero => exact fun ps _ => by rw [List.take_zero]; rfl
  | succ passes ih =>
    intro ps hps
    match ps, hps with
    | [], _ => rfl
    | [_], _ => rfl
    | buf1 :: buf2 :: rest, hps =>
      rw [eventnumLoop, pairs, List.take_succ_cons, List.find?_cons, named]
      cases (strstr devName.val buf2).isSome with
      | true =>
        simp only [if_true, Option.bind_some, eventNumber, Option.bind_eq_bind]
        cases strstr eventStr buf1 with
        | none => rfl
        | some devStr =>
          simp only [Option.bind_some]
          split_ifs
          · rfl
          · rfl
      | false =>
        have hrest : rest = [] ∨ feofAfter 49 buf2 = false ∧ EndsLast 49 rest := by
          cases rest with
          | nil => exact Or.inl rfl
          | cons buf3 rest =>
            refine Or.inr ⟨hps.2.1, ?_⟩
            exact hps.2.2
        simp only [Bool.false_eq_true, if_false]
        rcases hrest with rfl | ⟨hfeof, hends⟩
        · split_ifs
          · have hnil : pairs ([] : List (List UInt8)) = [] := rfl
            rw [hnil, List.take_nil]
            rfl
          · exact ih [] trivial
        · rw [hfeof, if_neg (by decide)]
          exact ih rest hends

/-- **What the program returns** for every log. -/
theorem testEventnum_eq (devName log : Str) :
    testEventnum devName (some log) =
      ((((pairs (pieces 49 log.val)).take 6).find? (named devName)).bind fun p =>
        eventNumber p.1).getD (-1) :=
  eventnumLoop_eq devName 6 _ (endsLast_pieces (by decide) log.val)

/-! ## Logs -/

/-- A line of a log, without its end. -/
def LogLine := { l : List UInt8 // 10 ∉ l ∧ 0 ∉ l }

/-- What a log says about a device: a line with `event` and one digit, and a line with the name. -/
structure Entry where
  before : LogLine
  digit : Fin 10
  after : LogLine
  one_digit : ∀ c ∈ after.val.head?, Reader.isDigit 10 c = false
  name : LogLine

namespace Entry

/-- The first line of an entry, without its end. -/
def addLine (e : Entry) : List UInt8 :=
  e.before.val ++ (eventStr ++ decimal e.digit ++ e.after.val)

/-- The two lines of an entry. -/
def twoLines (e : Entry) : List UInt8 × List UInt8 := (e.addLine ++ [10], e.name.val ++ [10])

/-- The number of the event node. -/
def number (e : Entry) : Int32 := Int32.ofNat e.digit

/-- The first line is a line. -/
lemma not_mem_addLine (e : Entry) : 10 ∉ e.addLine ∧ 0 ∉ e.addLine := by
  have hword : 10 ∉ eventStr ∧ 0 ∉ eventStr := by decide
  have hdigit : ∀ d : Fin 10, 10 ∉ decimal d ∧ 0 ∉ decimal d := by decide
  simp only [addLine, List.mem_append, not_or]
  exact ⟨⟨e.before.property.1, ⟨hword.1, (hdigit e.digit).1⟩, e.after.property.1⟩,
    e.before.property.2, ⟨hword.2, (hdigit e.digit).2⟩, e.after.property.2⟩

/-- **The number** is found behind the first `event` of the line, if that is the one of the
number.

**Proof sketch.** The five characters of `event` are skipped and `atoi` reads the digit
(`atoi_decimal_append`), which no other digit follows; every digit is in the range that is
accepted. -/
theorem eventNumber_addLine (e : Entry)
    (hfirst : strstr eventStr (e.addLine ++ [10]) =
      some (eventStr ++ decimal e.digit ++ e.after.val ++ [10])) :
    eventNumber (e.addLine ++ [10]) = some e.number := by
  have hdrop : (eventStr ++ decimal e.digit ++ e.after.val ++ [10]).drop 5 =
      decimal e.digit ++ (e.after.val ++ [10]) := by
    rw [List.append_assoc, List.append_assoc]
    rfl
  have hatoi : atoi (decimal e.digit ++ (e.after.val ++ [10])) = e.number := by
    apply atoi_decimal_append
    intro c hc
    rw [List.head?_append, Option.mem_def, Option.or_eq_some_iff] at hc
    rcases hc with hc | ⟨-, hc⟩
    · exact e.one_digit c hc
    · obtain rfl := Option.some.inj hc
      decide
  have hrange : ¬ (e.number < 0 ∨ 10 ≤ e.number) := by
    have hall : ∀ d : Fin 10, ¬ (Int32.ofNat d < 0 ∨ 10 ≤ Int32.ofNat d) := by decide
    exact hall e.digit
  rw [eventNumber, hfirst]
  simp only [Option.bind_eq_bind, Option.bind_some, hdrop, hatoi]
  rw [if_neg hrange]

end Entry

/-- The log of some devices. -/
def logText (es : List Entry) : Str :=
  ⟨es.flatMap fun e => e.twoLines.1 ++ e.twoLines.2, by
    intro h
    obtain ⟨e, -, he⟩ := List.mem_flatMap.mp h
    simp only [Entry.twoLines, List.mem_append, List.mem_singleton] at he
    rcases he with (he | he) | he | he
    · exact e.not_mem_addLine.2 he
    · exact absurd he (by decide)
    · exact e.name.property.2 he
    · exact absurd he (by decide)⟩

/-- The lines of a log are the lines of its entries. -/
private lemma lines_logText (es : List Entry) :
    lines (logText es).val = es.flatMap fun e => [e.twoLines.1, e.twoLines.2] := by
  induction es with
  | nil => rfl
  | cons e es ih =>
    have hsplit : (logText (e :: es)).val =
        e.twoLines.1 ++ (e.twoLines.2 ++ (logText es).val) := by
      simp [logText, List.flatMap_cons]
    have hadd : lines e.twoLines.1 = [e.twoLines.1] := lines_line e.not_mem_addLine.1
    have hname : lines e.twoLines.2 = [e.twoLines.2] := lines_line e.name.property.1
    have haddEnd : e.twoLines.1.getLast? = some 10 := List.getLast?_concat
    have hnameEnd : e.twoLines.2.getLast? = some 10 := List.getLast?_concat
    rw [hsplit, lines_append haddEnd, lines_append hnameEnd, hadd, hname, ih]
    rfl

/-- The first pair with the name among the first of them. -/
private lemma find?_take_eq_some_iff {α : Type} {p : α → Bool} {l : List α} {a : α}
    (h : l.find? p = some a) (n : ℕ) :
    (l.take n).find? p = some a ↔ ∃ b ∈ l.take n, p b = true := by
  constructor
  · exact fun ha => ⟨a, List.mem_of_find?_eq_some ha, List.find?_some ha⟩
  · rintro ⟨b, hb, hpb⟩
    obtain ⟨c, hc⟩ := Option.isSome_iff_exists.mp (List.find?_isSome.mpr ⟨b, hb, hpb⟩)
    rw [← List.take_append_drop n l, List.find?_append, hc, Option.some_or] at h
    rw [hc, h]

/-- **When the program returns the number of the device**: for every log and device in it, if and
only if the first pair with the name, among the first six pairs of pieces of at most 49 characters,
has this number. If no line of the log has more than 48 characters, these are the first six
entries.

**Proof sketch.** The first part reads `testEventnum_eq`, since no digit is `-1`. With short lines
the pieces are the lines, so the pairs are the entries, and the first six of them have the device if
and only if one of them has the name. -/
theorem testEventnum_iff (devName : Str) (es : List Entry) (e : Entry)
    (he : es.find? (fun e => named devName e.twoLines) = some e) :
    (testEventnum devName (some (logText es)) = e.number ↔
      ∃ p, ((pairs (pieces 49 (logText es).val)).take 6).find? (named devName) = some p ∧
        eventNumber p.1 = some e.number) ∧
    ((∀ e ∈ es, e.addLine.length ≤ 48 ∧ e.name.val.length ≤ 48) →
      (testEventnum devName (some (logText es)) = e.number ↔
        (∃ e' ∈ es.take 6, named devName e'.twoLines = true) ∧
          eventNumber e.twoLines.1 = some e.number)) := by
  have hnumber : e.number ≠ -1 := by
    have hall : ∀ d : Fin 10, Int32.ofNat d ≠ -1 := by decide
    exact hall e.digit
  have hiff : testEventnum devName (some (logText es)) = e.number ↔
      ∃ p, ((pairs (pieces 49 (logText es).val)).take 6).find? (named devName) = some p ∧
        eventNumber p.1 = some e.number := by
    rw [testEventnum_eq, ← Option.bind_eq_some_iff]
    cases ((pairs (pieces 49 (logText es).val)).take 6).find? (named devName) |>.bind fun p =>
      eventNumber p.1 with
    | none => exact iff_of_false (Ne.symm hnumber) (by simp)
    | some n => simp
  refine ⟨hiff, fun hshort => hiff.trans ?_⟩
  have hlines : ∀ l ∈ lines (logText es).val, l.length ≤ 49 := by
    intro l hl
    rw [lines_logText, List.mem_flatMap] at hl
    obtain ⟨e', he', hl⟩ := hl
    obtain ⟨hadd, hname⟩ := hshort e' he'
    simp only [Entry.twoLines, List.mem_cons, List.not_mem_nil, or_false] at hl
    rcases hl with rfl | rfl
    · rw [List.length_append, List.length_singleton]
      omega
    · rw [List.length_append, List.length_singleton]
      omega
  rw [pieces_eq_lines hlines, lines_logText, pairs_flatMap, ← List.map_take, List.find?_map,
    ← find?_take_eq_some_iff he]
  constructor
  · rintro ⟨p, hp, hn⟩
    obtain ⟨e', hfind, rfl⟩ := Option.map_eq_some_iff.mp hp
    have hnamed : named devName e'.twoLines = true := by simpa using List.find?_some hfind
    have hsame : (es.take 6).find? (fun e => named devName e.twoLines) = some e :=
      (find?_take_eq_some_iff he 6).mpr ⟨e', List.mem_of_find?_eq_some hfind, hnamed⟩
    obtain rfl : e' = e := Option.some.inj (hfind.symm.trans hsame)
    exact ⟨hfind, hn⟩
  · rintro ⟨hfind, hn⟩
    exact ⟨e.twoLines, Option.map_eq_some_iff.mpr ⟨e, hfind, rfl⟩, hn⟩

/-- A line with nothing on it. -/
def emptyLine : LogLine := ⟨[], by decide⟩

/-- An entry with this digit and this name, and nothing else. -/
def shortEntry (digit : Fin 10) (name : LogLine) : Entry :=
  ⟨emptyLine, digit, emptyLine, fun _ h => absurd h (by simp [emptyLine]), name⟩

/-- `_ts`. -/
def tsName : Str := ⟨text ['_', 't', 's'], by decide⟩

/-- A touch screen behind the keys. -/
def twoEntries : List Entry :=
  [shortEntry 0 ⟨text ['k', 'e', 'y', 's'], by decide⟩,
    shortEntry 3 ⟨text ['a', '_', 't', 's'], by decide⟩]

/-- The second of two devices is found. -/
theorem testEventnum_iff_second : testEventnum tsName (some (logText twoEntries)) = 3 := by
  have h := testEventnum_iff tsName twoEntries
    (shortEntry 3 ⟨text ['a', '_', 't', 's'], by decide⟩) rfl
  exact (h.2 (by decide)).mpr ⟨by decide, by decide⟩

/-- A touch screen behind six other devices. -/
def sevenEntries : List Entry :=
  List.replicate 6 (shortEntry 0 ⟨text ['k', 'e', 'y', 's'], by decide⟩) ++
    [shortEntry 3 ⟨text ['a', '_', 't', 's'], by decide⟩]

/-- **The seventh device** is not found. -/
theorem seventh_not_found :
    sevenEntries.find? (fun e => named tsName e.twoLines) =
        some (shortEntry 3 ⟨text ['a', '_', 't', 's'], by decide⟩) ∧
      testEventnum tsName (some (logText sevenEntries)) = -1 := by
  exact ⟨rfl, by decide⟩

end JzPretest.Pretest

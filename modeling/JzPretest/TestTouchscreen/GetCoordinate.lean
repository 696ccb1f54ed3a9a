import JzPretest.Semantics.TextFile

set_option relaxedAutoImplicit false
set_option autoImplicit false

/-!
# `get_coordinate` and `get_proximity`

Two programs that print what the log of `getevent` says about the touch screen and the proximity
sensor. They read up to 50 rows and return whether a counter, which they do not set to 0, is
positive. A log that ends before makes them return -1, unless its last line has no end.

## Main definitions

* `JzPretest.GetCoordinate.getCoordinate`, `JzPretest.GetCoordinate.getProximity` — the programs.
* `JzPretest.GetCoordinate.Reports` — a program reports whether it has found something.

## Main results

* `JzPretest.GetCoordinate.scanLog_eq` — what the programs return.
* `JzPretest.GetCoordinate.not_reports` — they do not report what they have found in a short log.
-/

namespace JzPretest.GetCoordinate

/-! ## The programs -/

/-- `x_co` of `get_coordinate`. -/
def xCo : List UInt8 := text ['0', '0', '0', '3', ' ', '0', '0', '3', '5']

/-- `y_co` of `get_coordinate`. -/
def yCo : List UInt8 := text ['0', '0', '0', '3', ' ', '0', '0', '3', '6']

/-- `x_co` of `get_proximity`. -/
def proximityCo : List UInt8 := text ['0', '0', '0', '3', ' ', '0', '0', '0', '9']

/-- The counter, and what has been printed. -/
structure Scan where
  count : Int32
  out : List UInt8
  deriving DecidableEq, Repr

/-- What is done about one kind of record in a row. -/
def Scan.look (s : Scan) (co : List UInt8) (shown : List UInt8 → List UInt8) (buf : List UInt8) :
    Scan :=
  match strstr co buf with
  | none => s
  | some coStr => ⟨s.count + 1, s.out ++ shown (coStr.drop 10)⟩

/-- The body of the loop of `get_coordinate`. -/
def coordinateRow (s : Scan) (buf : List UInt8) : Scan :=
  (s.look xCo (fun str => text ['X', ':'] ++ str) buf).look yCo
    (fun str => text ['Y', ':'] ++ str ++ [10]) buf

/-- `process_str`: the string without the zeros at its beginning. -/
def processStr (str : List UInt8) : List UInt8 := str.dropWhile (· = 48)

/-- The body of the loop of `get_proximity`. -/
def proximityRow (s : Scan) (buf : List UInt8) : Scan :=
  s.look proximityCo
    (fun str => text ['p', 'r', 'o', 'x', 'i', 'm', 'i', 't', 'y', ':'] ++ processStr str) buf

/-- What both programs do with the file, and with what `count` holds before: the returned value, and
what has been printed. There is no log when `fopen` fails. -/
def scanLog (row : Scan → List UInt8 → Scan) (count : Int32) : Option Str → ℤ × List UInt8
  | none =>
    (-1, text ['o', 'p', 'e', 'n', ' ', 'f', 'i', 'l', 'e', ' ', 'e', 'r', 'r', 'o', 'r', '\n'])
  | some log =>
    match rows 49 (fun _ s => .error (-1, s.out)) (fun s buf => .ok (row s buf)) 50
      (⟨count, []⟩ : Scan) (pieces 49 log.val) with
    | .ok s => (if s.count > 0 then 0 else 1, s.out)
    | .error ret => ret

/-- `main` of `get_coordinate`. -/
def getCoordinate : Int32 → Option Str → ℤ × List UInt8 := scanLog coordinateRow

/-- `main` of `get_proximity`. -/
def getProximity : Int32 → Option Str → ℤ × List UInt8 := scanLog proximityRow

/-! ## What they return -/

/-- Some line of the log has one of these records. -/
def HasRecord (cos : List (List UInt8)) (log : Str) : Prop :=
  ∃ line ∈ lines log.val, ∃ co ∈ cos, (strstr co line).isSome = true

instance (cos : List (List UInt8)) (log : Str) : Decidable (HasRecord cos log) :=
  inferInstanceAs (Decidable (∃ _ ∈ _, _))

/-- A program reports whether there is something: it returns 0 if so, and 1 otherwise. -/
def Reports (ret : ℤ) (found : Prop) : Prop := (ret = 0 ↔ found) ∧ (ret = 1 ↔ ¬ found)

/-- **What the programs do**: a log of fewer than 50 lines that ends with the end of a line makes
them return -1. -/
theorem scanLog_eq (row : Scan → List UInt8 → Scan) (count : Int32) {log : Str}
    (hshort : LinesShorter 49 log.val) :
    scanLog row count (some log) =
      if 50 ≤ (lines log.val).length ∨ Unfinished log.val then
        let s := ((lines log.val).take 50).foldl row ⟨count, []⟩
        (if s.count > 0 then 0 else 1, s.out)
      else (-1, ((lines log.val).foldl row ⟨count, []⟩).out) := by
  rw [scanLog, rows_lines_ok (by decide) hshort]
  split_ifs
  · rfl
  · rfl

/-- **A log of fewer than 50 whole lines** never makes the programs report what is in it, whatever
the counter holds: they return -1 when `fgets` finds no more rows.

**Proof sketch.** Fewer than fifty whole lines make the loop return -1 (`scanLog_eq`), and -1 is
neither of the results that the programs are to return. -/
theorem not_reports (log : Str) (hshort : LinesShorter 49 log.val) (hwhole : ¬ Unfinished log.val)
    (hfew : (lines log.val).length < 50) (count : Int32) :
    ((getCoordinate count (some log)).1 = -1 ∧
        ¬ Reports (getCoordinate count (some log)).1 (HasRecord [xCo, yCo] log)) ∧
      (getProximity count (some log)).1 = -1 ∧
        ¬ Reports (getProximity count (some log)).1 (HasRecord [proximityCo] log) := by
  have hret : ∀ row, (scanLog row count (some log)).1 = -1 := by
    intro row
    rw [scanLog_eq row count hshort, if_neg (not_or.mpr ⟨Nat.not_le.mpr hfew, hwhole⟩)]
  have hnot : ∀ found : Prop, ¬ Reports (-1) found := by
    rintro found ⟨hzero, hone⟩
    by_cases hfound : found
    · exact absurd (hzero.mpr hfound) (by decide)
    · exact absurd (hone.mpr hfound) (by decide)
  refine ⟨⟨hret coordinateRow, ?_⟩, hret proximityRow, ?_⟩
  · rw [getCoordinate, hret]
    exact hnot _
  · rw [getProximity, hret]
    exact hnot _

/-- A log with one touch. -/
private def oneTouch : Str := ⟨xCo ++ text [' ', '1', '\n'], by decide⟩

/-- A log with one touch. -/
theorem not_reports_oneTouch :
    ((getCoordinate 0 (some oneTouch)).1 = -1 ∧
        ¬ Reports (getCoordinate 0 (some oneTouch)).1 (HasRecord [xCo, yCo] oneTouch)) ∧
      (getProximity 0 (some oneTouch)).1 = -1 ∧
        ¬ Reports (getProximity 0 (some oneTouch)).1 (HasRecord [proximityCo] oneTouch) :=
  not_reports oneTouch (by decide) (by decide) (by decide) 0

/-- **A touch that is printed** and not reported. -/
theorem getCoordinate_oneTouch :
    getCoordinate 0 (some oneTouch) = (-1, text ['X', ':', '1', '\n']) ∧
      HasRecord [xCo, yCo] oneTouch ∧
        ¬ Reports (getCoordinate 0 (some oneTouch)).1 (HasRecord [xCo, yCo] oneTouch) := by
  have hrun : getCoordinate 0 (some oneTouch) = (-1, text ['X', ':', '1', '\n']) := by decide
  have hrecord : HasRecord [xCo, yCo] oneTouch := by decide
  refine ⟨hrun, hrecord, fun h => ?_⟩
  have hzero := h.1.mpr hrecord
  rw [hrun] at hzero
  exact absurd hzero (by decide)

end JzPretest.GetCoordinate

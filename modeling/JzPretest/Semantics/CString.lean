import JzPretest.Semantics.ByteIO
import JzPretest.Semantics.Scanf
import Mathlib.Data.List.GetD

set_option relaxedAutoImplicit false
set_option autoImplicit false

/-!
# Strings in arrays

Numbers in strings, as `strtol` and `atoi` convert them, and strings that are copied into an array
without the NUL that ends them. Such a copy leaves behind it what the array held before, so the
string in the array goes on with the rest of an earlier one when that was longer.

## Main definitions

* `JzPretest.strtol`, `JzPretest.atoi` — the conversions; `JzPretest.decimal` — a number printed.
* `JzPretest.strstr` — searching; `JzPretest.strlcpy`, `JzPretest.strlcat` — copying what fits.
* `JzPretest.Str` — a string; `JzPretest.CharArray` — an array for one;
  `JzPretest.CharArray.strcpy`.
* `JzPretest.Buffer.string` — the string in an array.
* `JzPretest.Buffer.overlays` — an array into which strings were copied one after another.

## Main results

* `JzPretest.exists_strstr_of_append` — the first occurrence is not behind another one.
* `JzPretest.Buffer.string_overlays_iff` — when the string in the array is the last one copied.
-/

namespace JzPretest

/-- The bytes of a text. -/
def text (cs : List Char) : List UInt8 := cs.map Char.toUInt8

/-! ## Numbers -/

/-- The number after the white space and the sign, in base 10 or 16. -/
def magnitude (base : ℕ) (s : List UInt8) : ℕ :=
  Reader.ofDigits base
    ((if base = 16 then Reader.dropMarker s else s).takeWhile (Reader.isDigit base))

/-- `strtol`, in base 10 or 16, with a `long` of 32 bits: what does not fit is replaced by the
nearest number that does. -/
def strtol (base : ℕ) (s : List UInt8) : ℤ :=
  match s.dropWhile Reader.isSpace with
  | [] => 0
  | c :: s =>
    if c = 45 then max (-2 ^ 31) (-(magnitude base s : ℤ))
    else if c = 43 then min (2 ^ 31 - 1) (magnitude base s : ℤ)
    else min (2 ^ 31 - 1) (magnitude base (c :: s) : ℤ)

/-- `atoi`. -/
def atoi (s : List UInt8) : Int32 := Int32.ofInt (strtol 10 s)

example : strtol 10 (text [' ', '-', '4', '2', 'x']) = -42 := by decide

/-- A number, as `printf` writes it with `%d`. -/
def decimal (n : ℕ) : List UInt8 := text (Nat.toDigits 10 n)

/-- A number has at most `k` digits if it is below a power of ten. -/
theorem length_decimal_le_iff {n k : ℕ} (hk : 0 < k) : (decimal n).length ≤ k ↔ n < 10 ^ k := by
  rw [decimal, text, List.length_map, Nat.length_toDigits_le_iff (by decide) hk]

/-- A number has a digit. -/
theorem length_decimal_pos (n : ℕ) : 0 < (decimal n).length := by
  rw [decimal, text, List.length_map]
  exact Nat.length_toDigits_pos

/-- **Reading one digit back**.

**Proof sketch.** The ten digits are checked one by one: none is white space or a sign. The digits
that `strtol` takes are this one, because the text does not go on with one. -/
theorem atoi_decimal_append (d : Fin 10) {t : List UInt8}
    (ht : ∀ c ∈ t.head?, Reader.isDigit 10 c = false) :
    atoi (decimal d ++ t) = Int32.ofNat d := by
  have hdigit : ∀ d : Fin 10, decimal d = [48 + UInt8.ofNat d] ∧
      Reader.isSpace (48 + UInt8.ofNat d) = false ∧ 48 + UInt8.ofNat d ≠ 45 ∧
      48 + UInt8.ofNat d ≠ 43 ∧ Reader.isDigit 10 (48 + UInt8.ofNat d) = true ∧
      Reader.ofDigits 10 [48 + UInt8.ofNat d] = d ∧
      Int32.ofInt (min (2 ^ 31 - 1) ((d : ℕ) : ℤ)) = Int32.ofNat d := by decide
  obtain ⟨hdecimal, hspace, hminus, hplus, hfirst, hvalue, hint⟩ := hdigit d
  have htake : t.takeWhile (Reader.isDigit 10) = [] := by
    cases t with
    | nil => rfl
    | cons c t => rw [List.takeWhile_cons, ht c rfl]; rfl
  have hmagnitude : magnitude 10 ((48 + UInt8.ofNat d) :: t) = d := by
    rw [magnitude, if_neg (by decide), List.takeWhile_cons, hfirst, if_pos rfl, htake, hvalue]
  unfold atoi strtol
  rw [hdecimal, List.singleton_append, List.dropWhile_cons, hspace]
  simp only [Bool.false_eq_true, if_false, hminus, hplus, hmagnitude, hint]

/-! ## Searching and copying -/

/-- `strstr`: the string from the first occurrence of `needle` on. -/
def strstr (needle : List UInt8) : List UInt8 → Option (List UInt8)
  | [] => if needle = [] then some [] else none
  | c :: s => if needle.isPrefixOf (c :: s) then some (c :: s) else strstr needle s

/-- **The first occurrence** begins where there is one, or before.

**Proof sketch.** Induction on what stands before the occurrence: either the search succeeds before
it reaches the given one, or it goes on. -/
theorem exists_strstr_of_append {needle t : List UInt8} (h : needle <+: t) (pre : List UInt8) :
    ∃ first, strstr needle (pre ++ t) = some first ∧ needle <+: first ∧ t <:+ first := by
  induction pre with
  | nil =>
    refine ⟨t, ?_, h, List.suffix_refl t⟩
    cases t with
    | nil => exact if_pos (List.prefix_nil.mp h)
    | cons c t => exact if_pos (List.isPrefixOf_iff_prefix.mpr h)
  | cons c pre ih =>
    rw [List.cons_append, strstr]
    by_cases hc : needle.isPrefixOf (c :: (pre ++ t)) = true
    · rw [if_pos hc]
      refine ⟨_, rfl, List.isPrefixOf_iff_prefix.mp hc, ?_⟩
      exact (List.suffix_append pre t).trans (List.suffix_cons c _)
    · rw [if_neg hc]
      exact ih

/-- `strlcpy`: the string that is in the array of `size` characters then. -/
def strlcpy (size : ℕ) (src : List UInt8) : List UInt8 := src.take (size - 1)

/-- `strlcat`: the string that is in the array then, of which `size` characters may be used. -/
def strlcat (dst src : List UInt8) (size : ℕ) : List UInt8 :=
  dst ++ src.take (size - 1 - dst.length)

/-! ## Strings in arrays -/

namespace Buffer

/-- The string at the beginning of an array; it is not defined when no byte of the array is zero. -/
def string (data : Buffer) : Except Undefined (List UInt8) :=
  cString (slice data.byte 0 data.size)

/-- The array after strings have been copied to its beginning, one after another, without NUL. -/
def overlays (data : Buffer) (values : List (List UInt8)) : Buffer :=
  values.foldl (fun data v => data.overlay 0 v) data

/-- No copies. -/
@[simp] theorem overlays_nil (data : Buffer) : data.overlays [] = data := rfl

/-- The first copy, and then the others. -/
theorem overlays_cons (data : Buffer) (v : List UInt8) (values : List (List UInt8)) :
    data.overlays (v :: values) = (data.overlay 0 v).overlays values := rfl

/-- The last copy comes behind the others. -/
lemma overlays_append (data : Buffer) (values : List (List UInt8)) (v : List UInt8) :
    data.overlays (values ++ [v]) = (data.overlays values).overlay 0 v :=
  List.foldl_append

/-- Copies leave the size of an array. -/
@[simp] lemma overlays_size (data : Buffer) (values : List (List UInt8)) :
    (data.overlays values).size = data.size := by
  induction values generalizing data with
  | nil => rfl
  | cons v values ih => rw [overlays_cons, ih, overlay_size]

/-- Behind a string that was copied, and only there, the array is as it was. -/
lemma byte_overlay_eq_zero_iff {data : Buffer} {v : List UInt8} (hv : 0 ∉ v) (i : ℕ) :
    (data.overlay 0 v).byte i = 0 ↔ v.length ≤ i ∧ data.byte i = 0 := by
  simp only [overlay, Nat.zero_le, true_and, Nat.zero_add, Nat.sub_zero]
  by_cases hi : i < v.length
  · have hne : v.getD i 0 ≠ 0 := by
      rw [List.getD_eq_getElem _ _ hi]
      exact fun h => hv (h ▸ List.getElem_mem hi)
    rw [if_pos hi]
    exact iff_of_false hne (by omega)
  · rw [if_neg hi]
    exact (and_iff_right (by omega)).symm

/-- **Where the array still holds a zero**: behind all strings that were copied. -/
theorem byte_overlays_eq_zero_iff {values : List (List UInt8)} (hvalues : ∀ v ∈ values, 0 ∉ v)
    (i : ℕ) : ∀ data : Buffer, (data.overlays values).byte i = 0 ↔
      (∀ v ∈ values, v.length ≤ i) ∧ data.byte i = 0 := by
  induction values with
  | nil => simp
  | cons v values ih =>
    intro data
    obtain ⟨hv, hvalues⟩ := List.forall_mem_cons.mp hvalues
    rw [overlays_cons, ih hvalues, byte_overlay_eq_zero_iff hv, List.forall_mem_cons]
    constructor
    · rintro ⟨hle, hlen, hbyte⟩
      exact ⟨⟨hlen, hle⟩, hbyte⟩
    · rintro ⟨⟨hlen, hle⟩, hbyte⟩
      exact ⟨hle, hlen, hbyte⟩

/-- The string that was copied is the one in the array if a zero follows it.

**Proof sketch.** The string is looked up in the copied bytes and the byte behind them. If that byte
is no zero, the string found is longer than what was copied. -/
lemma string_overlay_iff {data : Buffer} {v : List UInt8} (hv : 0 ∉ v)
    (hlen : v.length < data.size) :
    (data.overlay 0 v).string = .ok v ↔ data.byte v.length = 0 := by
  obtain ⟨k, hk⟩ : ∃ k, data.size = v.length + (k + 1) := ⟨data.size - v.length - 1, by omega⟩
  have hbyte : (data.overlay 0 v).byte v.length = data.byte v.length := by
    simp only [overlay, Nat.zero_add, Nat.lt_irrefl, and_false, if_false]
  rw [string, overlay_size, hk, slice_add, slice_overlay, Nat.zero_add, slice_succ, hbyte]
  constructor
  · intro h
    by_contra hne
    rw [cString] at h
    split_ifs at h with hmem
    have htake := Except.ok.inj h
    rw [List.takeWhile_append_of_pos (fun c hc => by
        rw [decide_eq_true_iff]
        exact fun h => hv (h ▸ hc)), List.takeWhile_cons_of_pos (by simpa using hne)] at htake
    simp at htake
  · intro h
    rw [h]
    exact cString_append hv _

/-- **When the string in the array is the last one copied**: no earlier one is longer, and the array
held a zero at its end. -/
theorem string_overlays_iff {data : Buffer} {values : List (List UInt8)} {v : List UInt8}
    (hvalues : ∀ u ∈ values, 0 ∉ u) (hv : 0 ∉ v) (hlen : v.length < data.size) :
    (data.overlays (values ++ [v])).string = .ok v ↔
      (∀ u ∈ values, u.length ≤ v.length) ∧ data.byte v.length = 0 := by
  rw [overlays_append, string_overlay_iff hv (by rw [overlays_size]; exact hlen),
    byte_overlays_eq_zero_iff hvalues]

end Buffer

/-! ## Copying a string with its end -/

/-- A string, without the NUL that ends it. -/
def Str := { s : List UInt8 // 0 ∉ s }
  deriving DecidableEq

/-- An array of `n` characters. -/
def CharArray (n : ℕ) := { data : Buffer // data.size = n }

namespace CharArray

variable {n : ℕ}

/-- An array of static storage duration. -/
def zeroed (n : ℕ) : CharArray n := ⟨⟨n, fun _ => 0⟩, rfl⟩

/-- The string in an array. -/
def string (data : CharArray n) : Except Undefined (List UInt8) := data.val.string

/-- The array with a string and its NUL at its beginning. -/
def put (data : CharArray n) (s : Str) : CharArray n :=
  ⟨data.val.overlay 0 (s.val ++ [0]), data.property⟩

/-- `strcpy`. -/
def strcpy (data : CharArray n) (s : Str) : Except Fault (CharArray n) :=
  if s.val.length < n then .ok (data.put s) else .error (.outOfBounds n)

/-- A string that fits is copied. -/
theorem strcpy_eq (data : CharArray n) {s : Str} (h : s.val.length < n) :
    data.strcpy s = .ok (data.put s) := if_pos h

/-- **A string that has been copied is the one in the array**. -/
theorem string_put (data : CharArray n) {s : Str} (h : s.val.length < n) :
    (data.put s).string = .ok s.val := by
  obtain ⟨k, hk⟩ : ∃ k, data.val.size = (s.val ++ [0]).length + k := by
    rw [data.property, List.length_append, List.length_singleton]
    exact ⟨n - (s.val.length + 1), by omega⟩
  change cString (slice (data.val.overlay 0 (s.val ++ [0])).byte 0 data.val.size) = _
  rw [hk, slice_add, Buffer.slice_overlay, List.append_assoc]
  exact cString_append s.property _

end CharArray

end JzPretest

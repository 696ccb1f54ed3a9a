import Mathlib.Data.Int.Notation
import Mathlib.Data.List.Basic
import Mathlib.Data.Nat.Notation
import Mathlib.Algebra.Group.Int.Defs
import Mathlib.Algebra.Group.Nat.Defs

set_option relaxedAutoImplicit false
set_option autoImplicit false

/-!
# Conversions of `sscanf`

The conversions `%s`, `%x` and `%d` as readers, which take what they convert from the front of a
string. A reader fails when the string does not match, and its behaviour is undefined when what it
converts does not fit its variable.

A string that holds several lines is read line by line: what a reader makes of the first line does
not depend on the lines after it. A line that has been cut is safe to read: where the whole line
could be converted, the behaviour on its beginning is defined.

## Main definitions

* `JzPretest.Reader` — readers, a monad.
* `JzPretest.Reader.word`, `JzPretest.Reader.hexInt`, `JzPretest.Reader.decInt` — the conversions.
* `JzPretest.Reader.LineLocal` — readers that do not look past the line.
* `JzPretest.Reader.Cut` — what a reader makes of the beginning of a line.

## Main results

* `JzPretest.Reader.LineLocal.bind`, `JzPretest.Reader.Cut.bind` — the rules for sequences.
-/

namespace JzPretest

/-- What makes the behaviour of a call of `sscanf` undefined. -/
inductive Undefined where
  /-- There is no NUL in the buffer. -/
  | unterminated
  /-- A word and its NUL do not fit the array. -/
  | tooLong
  /-- A number does not fit the variable. -/
  | notRepresentable
  deriving DecidableEq, Repr

/-- The string at the beginning of a buffer. -/
def cString (buf : List UInt8) : Except Undefined (List UInt8) :=
  if 0 ∈ buf then .ok (buf.takeWhile (· ≠ 0)) else .error .unterminated

/-- A string that is followed by a NUL. -/
theorem cString_append {s : List UInt8} (h : 0 ∉ s) (tail : List UInt8) :
    cString (s ++ 0 :: tail) = .ok s := by
  have hne : ∀ v ∈ s, decide (v ≠ 0) = true := by
    intro v hv
    rw [decide_eq_true_eq]
    rintro rfl
    exact h hv
  rw [cString, if_pos (by simp), List.takeWhile_append_of_pos hne,
    List.takeWhile_cons_of_neg (by simp), List.append_nil]

/-! ## Beginnings of lists -/

section Beginnings

variable {α : Type} {p s : List α}

/-- What is taken of a beginning is a beginning of what is taken of the whole. -/
theorem takeWhile_beginning (h : p <+: s) (f : α → Bool) : p.takeWhile f <+: s.takeWhile f := by
  obtain ⟨t, rfl⟩ := h
  rw [List.takeWhile_append]
  split
  · exact (List.takeWhile_prefix f).trans (List.prefix_append p _)
  · exact List.prefix_refl _

/-- The same for what is left. -/
theorem dropWhile_beginning (h : p <+: s) (f : α → Bool) : p.dropWhile f <+: s.dropWhile f := by
  obtain ⟨t, rfl⟩ := h
  rw [List.dropWhile_append]
  split
  · rename_i hempty
    rw [List.isEmpty_iff.mp hempty]
    exact List.nil_prefix
  · exact List.prefix_append _ t

end Beginnings

/-- A reader: the value it converts and what it leaves of the string; `none` when the string does
not match. -/
def Reader (α : Type) : Type := List UInt8 → Except Undefined (Option (α × List UInt8))

namespace Reader

variable {α β : Type}

/-- What a sequence makes of the outcome of its first part. -/
def andRead (f : α → Reader β) :
    Except Undefined (Option (α × List UInt8)) → Except Undefined (Option (β × List UInt8))
  | .error e => .error e
  | .ok none => .ok none
  | .ok (some (a, rest)) => f a rest

instance : Monad Reader where
  pure a := fun s => .ok (some (a, s))
  bind r f := fun s => andRead f (r s)

/-- A value that may be undefined; nothing is read for it. -/
def ofExcept (x : Except Undefined α) : Reader α := fun s => x.map fun a => some (a, s)

/-- A sequence reads what its first part reads, and then what the second part reads. -/
theorem bind_eq_some {r : Reader α} {f : α → Reader β} {s rest : List UInt8} {b : β} :
    (r >>= f) s = .ok (some (b, rest)) ↔
      ∃ a mid, r s = .ok (some (a, mid)) ∧ f a mid = .ok (some (b, rest)) := by
  change andRead f (r s) = _ ↔ _
  rcases r s with e | (_ | ⟨a, mid⟩)
  · simp [andRead]
  · simp [andRead]
  · simp [andRead]

/-- A sequence, when its first reader has read something. -/
theorem bind_of_some {r : Reader α} {s mid : List UInt8} {a : α}
    (h : r s = .ok (some (a, mid))) (f : α → Reader β) : (r >>= f) s = f a mid := by
  change andRead f (r s) = _
  rw [h, andRead]

/-- A sequence, when its first reader has failed. -/
theorem bind_of_none {r : Reader α} {s : List UInt8} (h : r s = .ok none) (f : α → Reader β) :
    (r >>= f) s = .ok none := by
  change andRead f (r s) = _
  rw [h, andRead]

/-! ## The conversions -/

/-- `isspace`. -/
def isSpace (v : UInt8) : Bool := v == 32 || (9 ≤ v && v ≤ 13)

/-- The white space that a conversion skips. -/
def skipping (r : Reader α) : Reader α := fun s => r (s.dropWhile isSpace)

/-- `%s`, into an array of `capacity` bytes. -/
def word (capacity : ℕ) : Reader (List UInt8) := fun s =>
  match s.takeWhile fun v => !isSpace v with
  | [] => .ok none
  | v :: vs =>
    if (v :: vs).length < capacity then .ok (some (v :: vs, s.dropWhile fun v => !isSpace v))
    else .error .tooLong

/-- The value of a digit; 16 for what is not a digit. -/
def digitValue (v : UInt8) : ℕ :=
  if 48 ≤ v ∧ v ≤ 57 then v.toNat - 48
  else if 97 ≤ v ∧ v ≤ 102 then v.toNat - 87
  else if 65 ≤ v ∧ v ≤ 70 then v.toNat - 55
  else 16

/-- The digits of a base are those with a smaller value. -/
def isDigit (base : ℕ) (v : UInt8) : Bool := digitValue v < base

/-- The number that some digits stand for. -/
def ofDigits (base : ℕ) (ds : List UInt8) : ℕ := ds.foldl (fun n v => base * n + digitValue v) 0

/-- At least one digit. -/
def digits (base : ℕ) : Reader ℕ := fun s =>
  match s.takeWhile (isDigit base) with
  | [] => .ok none
  | v :: vs => .ok (some (ofDigits base (v :: vs), s.dropWhile (isDigit base)))

/-- The string after `0x`, if it begins with it. -/
def dropMarker : List UInt8 → List UInt8
  | a :: b :: s => if a = 48 ∧ (b = 120 ∨ b = 88) then s else a :: b :: s
  | s => s

/-- The digits of `%x`. -/
def hexDigits : Reader ℕ := fun s => digits 16 (dropMarker s)

/-- A sign, if there is one; there is none at the end of the string. -/
def sign : Reader Bool
  | [] => .ok none
  | c :: s =>
    if c = 45 then .ok (some (true, s))
    else if c = 43 then .ok (some (false, s))
    else .ok (some (false, c :: s))

/-- The `unsigned int` with a sign and digits. -/
def toUnsigned (negative : Bool) (n : ℕ) : Except Undefined UInt32 :=
  if n < 2 ^ 32 then .ok (if negative then 0 - UInt32.ofNat n else UInt32.ofNat n)
  else .error .notRepresentable

/-- The `int` with a sign and digits. -/
def toInt (negative : Bool) (n : ℕ) : Except Undefined Int32 :=
  if negative then
    if n ≤ 2 ^ 31 then .ok (Int32.ofInt (-n)) else .error .notRepresentable
  else
    if n < 2 ^ 31 then .ok (Int32.ofInt n) else .error .notRepresentable

/-- A number: its sign, and then its digits. -/
def number (magnitude : Reader ℕ) (convert : Bool → ℕ → Except Undefined α) : Reader α := do
  let negative ← sign
  let n ← magnitude
  ofExcept (convert negative n)

/-- `%x`. -/
def hexInt : Reader UInt32 := number hexDigits toUnsigned

/-- `%d`. -/
def decInt : Reader Int32 := number (digits 10) toInt

/-! ## Readers that do not look past the line -/

/-- **A reader that does not look past the line**: if it can convert a line, then it converts it to
the same when more lines follow. -/
def LineLocal (r : Reader α) : Prop :=
  ∀ s a rest tail, r s = .ok (some (a, rest)) →
    r (s ++ 10 :: tail) = .ok (some (a, rest ++ 10 :: tail))

namespace LineLocal

/-- Nothing is read. -/
theorem pure (a : α) : LineLocal (Pure.pure a : Reader α) := by
  intro s b rest tail h
  obtain ⟨rfl, rfl⟩ : a = b ∧ s = rest := by simpa [Pure.pure] using h
  rfl

/-- A sequence of readers that read inside of a line. -/
theorem bind {r : Reader α} {f : α → Reader β} (hr : LineLocal r) (hf : ∀ a, LineLocal (f a)) :
    LineLocal (r >>= f) := by
  intro s b rest tail h
  obtain ⟨a, mid, ha, hb⟩ := bind_eq_some.mp h
  exact bind_eq_some.mpr ⟨a, _, hr s a mid tail ha, hf a mid b rest tail hb⟩

/-- A value, or something undefined, without reading. -/
lemma ofExcept (x : Except Undefined α) : LineLocal (Reader.ofExcept x) := by
  cases x with
  | error e =>
    intro s a rest tail h
    simp [Reader.ofExcept, Except.map] at h
  | ok a => exact pure a

/-- The end of the line is white space, but then there is nothing left to convert. -/
theorem skipping {r : Reader α} (hr : LineLocal r) (hnil : r [] = .ok none) :
    LineLocal (Reader.skipping r) := by
  intro s a rest tail h
  unfold Reader.skipping at h ⊢
  have hne : (s.dropWhile isSpace).isEmpty ≠ true := by
    intro hempty
    rw [List.isEmpty_iff.mp hempty, hnil] at h
    simp at h
  rw [List.dropWhile_append, if_neg hne]
  exact hr _ a rest tail h

end LineLocal

/-- What is taken from the front of a line does not reach past its end. -/
private lemma takeWhile_line (f : UInt8 → Bool) (hf : f 10 = false) (s tail : List UInt8) :
    (s ++ 10 :: tail).takeWhile f = s.takeWhile f := by
  rw [List.takeWhile_append, List.takeWhile_cons_of_neg (by simp [hf]), List.append_nil]
  split
  · exact ((List.takeWhile_prefix f).eq_of_length ‹_›).symm
  · rfl

/-- What is skipped ends at the end of the line. -/
private lemma dropWhile_line (f : UInt8 → Bool) (hf : f 10 = false) (s tail : List UInt8) :
    (s ++ 10 :: tail).dropWhile f = s.dropWhile f ++ 10 :: tail := by
  rw [List.dropWhile_append, List.dropWhile_cons_of_neg (by simp [hf])]
  split
  · rename_i hempty
    rw [List.isEmpty_iff.mp hempty, List.nil_append]
  · rfl

/-- A word ends inside of its line. -/
theorem lineLocal_word (capacity : ℕ) : LineLocal (word capacity) := by
  intro s a rest tail h
  unfold word at h ⊢
  rw [takeWhile_line _ (by decide), dropWhile_line _ (by decide)]
  split at h
  · simp at h
  · split_ifs at h with hlen
    simp only [Except.ok.injEq, Option.some.injEq, Prod.mk.injEq] at h
    obtain ⟨rfl, rfl⟩ := h
    exact if_pos hlen

/-- So do digits. -/
theorem lineLocal_digits {base : ℕ} (hbase : base ≤ 16) : LineLocal (digits base) := by
  have hend : isDigit base 10 = false := by
    have : digitValue 10 = 16 := by decide
    simp only [isDigit, this, decide_eq_false_iff_not]
    omega
  intro s a rest tail h
  unfold digits at h ⊢
  rw [takeWhile_line _ hend, dropWhile_line _ hend]
  split at h
  · simp at h
  · simp only [Except.ok.injEq, Option.some.injEq, Prod.mk.injEq] at h
    obtain ⟨rfl, rfl⟩ := h
    rfl

/-- The end of the line is no part of a `0x`. -/
lemma dropMarker_line (s tail : List UInt8) :
    dropMarker (s ++ 10 :: tail) = dropMarker s ++ 10 :: tail := by
  match s with
  | [] => cases tail <;> rfl
  | [a] =>
    change (if a = 48 ∧ ((10 : UInt8) = 120 ∨ (10 : UInt8) = 88) then tail else a :: 10 :: tail) = _
    rw [if_neg (by rintro ⟨-, h | h⟩ <;> exact absurd h (by decide))]
    rfl
  | a :: b :: s =>
    change (if a = 48 ∧ (b = 120 ∨ b = 88) then s ++ 10 :: tail else a :: b :: (s ++ 10 :: tail)) =
      (if a = 48 ∧ (b = 120 ∨ b = 88) then s else a :: b :: s) ++ 10 :: tail
    split <;> rfl

/-- So do digits with a marker. -/
theorem lineLocal_hexDigits : LineLocal hexDigits := by
  intro s a rest tail h
  unfold hexDigits at h ⊢
  rw [dropMarker_line]
  exact lineLocal_digits (Nat.le_refl 16) _ a rest tail h

/-- A sign is in its line. -/
lemma lineLocal_sign : LineLocal sign := by
  intro s a rest tail h
  cases s with
  | nil => simp [sign] at h
  | cons c s =>
    rw [List.cons_append, sign]
    rw [sign] at h
    split_ifs at h ⊢ <;>
      · simp only [Except.ok.injEq, Option.some.injEq, Prod.mk.injEq] at h
        obtain ⟨rfl, rfl⟩ := h
        rfl

/-- A number is in its line, if its digits are. -/
theorem lineLocal_number {magnitude : Reader ℕ} (h : LineLocal magnitude)
    (convert : Bool → ℕ → Except Undefined α) : LineLocal (number magnitude convert) :=
  lineLocal_sign.bind fun _ => h.bind fun _ => LineLocal.ofExcept _

/-! ## Lines that have been cut -/

/-- **A line that has been cut**: if `r` can convert a line, then the behaviour of `r'` on each
beginning of it is defined; where `r'` can convert that, its value is related to that of `r`. -/
def Cut (R : α → α → Prop) (r' r : Reader α) : Prop :=
  ∀ p s a rest, p <+: s → r s = .ok (some (a, rest)) →
    r' p = .ok none ∨ ∃ a' rest', r' p = .ok (some (a', rest')) ∧ R a' a ∧ rest' <+: rest

namespace Cut

variable {R : α → α → Prop} {R' : β → β → Prop}

/-- Values that may be undefined, when they are related. -/
lemma ofExcept {x' x : Except Undefined α} (h : ∀ a, x = .ok a → ∃ a', x' = .ok a' ∧ R a' a) :
    Cut R (Reader.ofExcept x') (Reader.ofExcept x) := by
  intro p s a rest hp hs
  cases x with
  | error e => simp [Reader.ofExcept, Except.map] at hs
  | ok b =>
    obtain ⟨rfl, rfl⟩ : b = a ∧ s = rest := by simpa [Reader.ofExcept, Except.map] using hs
    obtain ⟨a', rfl, ha'⟩ := h b rfl
    exact Or.inr ⟨a', p, rfl, ha', hp⟩

/-- Values that are related. -/
theorem pure {a' a : α} (h : R a' a) : Cut R (Pure.pure a') (Pure.pure a) := by
  change Cut R (Reader.ofExcept (.ok a')) (Reader.ofExcept (.ok a))
  refine ofExcept ?_
  intro b hb
  obtain rfl : a = b := Except.ok.inj hb
  exact ⟨a', rfl, h⟩

/-- A sequence of readers, each on what the one before it has left. -/
theorem bind {r' r : Reader α} {f' f : α → Reader β} (hr : Cut R r' r)
    (hf : ∀ a' a, R a' a → Cut R' (f' a') (f a)) : Cut R' (r' >>= f') (r >>= f) := by
  intro p s b rest hp hs
  obtain ⟨a, mid, ha, hb⟩ := bind_eq_some.mp hs
  rcases hr p s a mid hp ha with hnone | ⟨a', mid', ha', haa, hmid⟩
  · exact Or.inl (bind_of_none hnone f')
  · rw [bind_of_some ha']
    exact hf a' a haa mid' mid b rest hmid hb

/-- White space in front makes no difference. -/
theorem skipping {r' r : Reader α} (hr : Cut R r' r) :
    Cut R (Reader.skipping r') (Reader.skipping r) := by
  intro p s a rest hp hs
  exact hr _ _ a rest (dropWhile_beginning hp isSpace) hs

end Cut

/-- A word that has been cut is not longer.

**Proof sketch.** Taking and dropping while there is no white space give beginnings of what they
give for the whole line, so the cut word is no longer than the whole one. -/
theorem cut_word (capacity : ℕ) : Cut (fun _ _ => True) (word capacity) (word capacity) := by
  intro p s a rest hp hs
  have hword := takeWhile_beginning hp fun v => !isSpace v
  have hrest := dropWhile_beginning hp fun v => !isSpace v
  unfold word at hs ⊢
  split at hs
  · simp at hs
  · rename_i v vs hv
    split_ifs at hs with hlen
    simp only [Except.ok.injEq, Option.some.injEq, Prod.mk.injEq] at hs
    obtain ⟨rfl, rfl⟩ := hs
    rw [hv] at hword
    split
    · exact Or.inl rfl
    · rename_i w ws hw
      rw [hw] at hword
      rw [if_pos (Nat.lt_of_le_of_lt hword.length_le hlen)]
      exact Or.inr ⟨_, _, rfl, trivial, hrest⟩

/-- Fewer digits stand for a smaller number. -/
lemma ofDigits_le {base : ℕ} (hbase : 0 < base) {ds es : List UInt8} (h : ds <+: es) :
    ofDigits base ds ≤ ofDigits base es := by
  have key : ∀ (l : List UInt8) (n : ℕ), n ≤ l.foldl (fun n v => base * n + digitValue v) n := by
    intro l
    induction l with
    | nil => exact fun n => Nat.le_refl n
    | cons v l ih =>
      intro n
      calc n ≤ base * n := Nat.le_mul_of_pos_left n hbase
        _ ≤ base * n + digitValue v := Nat.le_add_right _ _
        _ ≤ _ := ih _
  obtain ⟨t, rfl⟩ := h
  rw [ofDigits, ofDigits, List.foldl_append]
  exact key t _

/-- Digits that are cut off stand for a smaller number.

**Proof sketch.** The digits of a beginning are a beginning of the digits, and each digit more makes
the number larger. -/
lemma cut_digits {base : ℕ} (hbase : 0 < base) : Cut (· ≤ ·) (digits base) (digits base) := by
  intro p s a rest hp hs
  have hdigits := takeWhile_beginning hp (isDigit base)
  have hrest := dropWhile_beginning hp (isDigit base)
  unfold digits at hs ⊢
  split at hs
  · simp at hs
  · rename_i v vs hv
    simp only [Except.ok.injEq, Option.some.injEq, Prod.mk.injEq] at hs
    obtain ⟨rfl, rfl⟩ := hs
    rw [hv] at hdigits
    split
    · exact Or.inl rfl
    · rename_i w ws hw
      rw [hw] at hdigits
      exact Or.inr ⟨_, _, rfl, ofDigits_le hbase hdigits, hrest⟩

/-- Where the line has been cut inside `0x`, the number is `0`.

**Proof sketch.** By the length of the cut line. A single digit may be the first character of a
marker `0x`, and then it is the number zero; with two characters the marker is seen in both lines or
in neither, and `cut_digits` applies. -/
lemma cut_hexDigits : Cut (· ≤ ·) hexDigits hexDigits := by
  intro p s a rest hp hs
  match p, hp with
  | [], _ => exact Or.inl rfl
  | [v], hp =>
    by_cases hv : isDigit 16 v = true
    · by_cases hmark : dropMarker s = s
      · unfold hexDigits at hs ⊢
        rw [hmark] at hs
        exact cut_digits (by decide) [v] s a rest hp hs
      · have hzero : v = 48 := by
          match s, hp, hmark with
          | [], _, hmark => exact absurd rfl hmark
          | [_], _, hmark => exact absurd rfl hmark
          | x :: y :: s, hp, hmark =>
            obtain rfl : v = x := (List.cons_prefix_cons.mp hp).1
            by_contra hne
            exact hmark (if_neg fun h => hne h.1)
        subst hzero
        exact Or.inr ⟨0, [], rfl, Nat.zero_le a, List.nil_prefix⟩
    · refine Or.inl ?_
      change digits 16 [v] = _
      rw [digits, List.takeWhile_cons_of_neg hv]
  | v :: w :: p, hp =>
    obtain ⟨t, rfl⟩ := hp
    unfold hexDigits at hs ⊢
    have hmark : dropMarker (v :: w :: p) <+: dropMarker (v :: w :: p ++ t) := by
      simp only [dropMarker, List.cons_append]
      split
      · exact List.prefix_append p t
      · exact List.prefix_append (v :: w :: p) t
    exact cut_digits (by decide) _ _ a rest hmark hs

/-- The sign stays as it is. -/
lemma cut_sign : Cut (· = ·) sign sign := by
  intro p s a rest hp hs
  cases p with
  | nil => exact Or.inl rfl
  | cons c p =>
    obtain ⟨t, rfl⟩ := hp
    rw [List.cons_append, sign] at hs
    rw [sign]
    split_ifs at hs ⊢ <;>
      · simp only [Except.ok.injEq, Option.some.injEq, Prod.mk.injEq] at hs
        obtain ⟨rfl, rfl⟩ := hs
        exact Or.inr ⟨_, _, rfl, rfl, by simp⟩

/-- A number that has been cut fits if the whole number does. -/
lemma cut_number {magnitude : Reader ℕ} {convert : Bool → ℕ → Except Undefined α}
    (hmag : Cut (· ≤ ·) magnitude magnitude)
    (hconvert : ∀ b m n a, m ≤ n → convert b n = .ok a → ∃ a', convert b m = .ok a') :
    Cut (fun _ _ => True) (number magnitude convert) (number magnitude convert) := by
  refine cut_sign.bind ?_
  rintro b _ rfl
  refine hmag.bind ?_
  intro m n hmn
  refine Cut.ofExcept ?_
  intro a ha
  obtain ⟨a', ha'⟩ := hconvert b m n a hmn ha
  exact ⟨a', ha', trivial⟩

/-- A number for `%x` that is cut off is one too, if the whole can be represented. -/
theorem cut_hexInt : Cut (fun _ _ => True) hexInt hexInt := by
  refine cut_number cut_hexDigits ?_
  intro b m n a hmn h
  unfold toUnsigned at h ⊢
  split_ifs at h with hn
  · exact ⟨_, if_pos (by omega)⟩
  · exact ⟨_, if_pos (by omega)⟩

/-- The same for `%d`. -/
theorem cut_decInt : Cut (fun _ _ => True) decInt decInt := by
  refine cut_number (cut_digits (by decide)) ?_
  intro b m n a hmn h
  unfold toInt at h ⊢
  split_ifs at h ⊢
  · exact ⟨_, rfl⟩
  · omega
  · exact ⟨_, rfl⟩
  · omega

end Reader

end JzPretest

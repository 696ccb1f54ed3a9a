import JzPretest.Semantics.Scanf

set_option relaxedAutoImplicit false
set_option autoImplicit false

/-!
# Words with white space between them

What the conversions of `fscanf` make of a text in words, with any white space behind each of them:
a conversion whose word it is takes the word, and the next one goes on with the next word.

## Main definitions

* `JzPretest.Reader.Spaced`, `JzPretest.Reader.Rest` — texts in words, and what is left of them.
* `JzPretest.Reader.Takes` — a reader that takes a word; `JzPretest.Reader.Within` — a reader that
  leaves no more than there was.
* `JzPretest.Reader.Numeral`, `JzPretest.Reader.IsHex`, `JzPretest.Reader.IsDec` — words for
  numbers.

## Main results

* `JzPretest.Reader.Takes.bind` — a sequence of readers takes the words one by one.
* `JzPretest.Reader.takes_wordMax`, `JzPretest.Reader.takes_hexInt`, `JzPretest.Reader.takes_decInt`
  — the words that the conversions take.
* `JzPretest.Reader.exists_numeral` — every number is written with some digits.
* `JzPretest.Reader.Within.bind` — a sequence of readers leaves no more than there was.
-/

namespace JzPretest.Reader

variable {α β : Type}

/-! ## Texts in words -/

/-- A word: there is something in it, and no white space. -/
structure IsWord (w : List UInt8) : Prop where
  ne_nil : w ≠ []
  no_space : ∀ v ∈ w, isSpace v = false

/-- White space. -/
def IsGap (gap : List UInt8) : Prop := ∀ v ∈ gap, isSpace v = true

/-- Some words, each with white space behind it. -/
inductive Spaced : List (List UInt8) → List UInt8 → Prop
  | nil : Spaced [] []
  | cons {w gap s : List UInt8} {ws : List (List UInt8)} (hw : IsWord w) (hne : gap ≠ [])
      (hgap : IsGap gap) (h : Spaced ws s) : Spaced (w :: ws) (w ++ (gap ++ s))

/-- What is left of a text: white space, and then some words. -/
def Rest (ws : List (List UInt8)) (s : List UInt8) : Prop :=
  ∃ gap s', IsGap gap ∧ Spaced ws s' ∧ s = gap ++ s'

/-- A word ends here: with the text, or at white space. -/
def AtGap (s : List UInt8) : Prop := ∀ v t, s = v :: t → isSpace v = true

/-- Words can be laid out with blanks. -/
theorem spaced_blank {ws : List (List UInt8)} (h : ∀ w ∈ ws, IsWord w) :
    Spaced ws (ws.flatMap fun w => w ++ [32]) := by
  induction ws with
  | nil => exact Spaced.nil
  | cons w ws ih =>
    obtain ⟨hw, hws⟩ := List.forall_mem_cons.mp h
    rw [List.flatMap_cons, List.append_assoc]
    exact Spaced.cons hw (List.cons_ne_nil _ _) (by simp [IsGap, isSpace]) (ih hws)

/-- White space in front may be missing. -/
theorem Spaced.rest {ws : List (List UInt8)} {s : List UInt8} (h : Spaced ws s) : Rest ws s :=
  ⟨[], s, by simp [IsGap], h, rfl⟩

/-- White space in front of words is skipped. -/
theorem dropWhile_isSpace {gap s : List UInt8} {ws : List (List UInt8)} (hgap : IsGap gap)
    (h : Spaced ws s) : (gap ++ s).dropWhile isSpace = s := by
  rw [List.dropWhile_append_of_pos hgap]
  cases h with
  | nil => rfl
  | cons hw hne hgap h =>
    rename_i w gap s ws
    obtain ⟨v, w, rfl⟩ := List.exists_cons_of_ne_nil hw.ne_nil
    rw [List.cons_append]
    exact List.dropWhile_cons_of_neg (by simp [hw.no_space v (by simp)])

/-- A word ends at the white space behind it. -/
lemma atGap_append {gap : List UInt8} (hne : gap ≠ []) (hgap : IsGap gap) (s : List UInt8) :
    AtGap (gap ++ s) := by
  obtain ⟨v, gap, rfl⟩ := List.exists_cons_of_ne_nil hne
  intro v' t h
  obtain ⟨rfl, -⟩ := List.cons.inj h
  exact hgap v (by simp)

/-! ## Readers that take a word -/

/-- **A reader that takes a word**, whatever follows the white space behind it. -/
def Takes (r : Reader α) (w : List UInt8) (a : α) : Prop :=
  ∀ s, AtGap s → r (w ++ s) = .ok (some (a, s))

/-- The word that comes next is taken. -/
theorem Takes.bind {r : Reader α} {w : List UInt8} {a : α} (hr : Takes r w a)
    {ws : List (List UInt8)} {s : List UInt8} (h : Rest (w :: ws) s) :
    ∃ s', Rest ws s' ∧ ∀ f : α → Reader β, (skipping r >>= f) s = f a s' := by
  obtain ⟨gap, s', hgap, hspaced, rfl⟩ := h
  have hskip := dropWhile_isSpace hgap hspaced
  cases hspaced with
  | cons hw hne hgap' h' =>
    rename_i gap' s''
    refine ⟨gap' ++ s'', ⟨gap', s'', hgap', h', rfl⟩, fun f => ?_⟩
    refine bind_of_some ?_ f
    rw [skipping, hskip]
    exact hr _ (atGap_append hne hgap' s'')

/-- White space in a format. -/
def skipSpace : Reader Unit := fun s => .ok (some ((), s.dropWhile isSpace))

/-- It is skipped. -/
theorem skipSpace_bind {ws : List (List UInt8)} {s : List UInt8} (h : Rest ws s) :
    ∃ s', Spaced ws s' ∧ ∀ f : Unit → Reader β, (skipSpace >>= f) s = f () s' := by
  obtain ⟨gap, s', hgap, hspaced, rfl⟩ := h
  refine ⟨s', hspaced, fun f => bind_of_some ?_ f⟩
  rw [skipSpace, dropWhile_isSpace hgap hspaced]

/-- What is taken up to a gap. -/
lemma takeWhile_atGap {f : UInt8 → Bool} (hf : ∀ v, isSpace v = true → f v = false)
    {w s : List UInt8} (hw : ∀ v ∈ w, f v = true) (hs : AtGap s) :
    (w ++ s).takeWhile f = w ∧ (w ++ s).dropWhile f = s := by
  rw [List.takeWhile_append_of_pos hw, List.dropWhile_append_of_pos hw]
  cases s with
  | nil => exact ⟨List.append_nil w, rfl⟩
  | cons v t =>
    have hv : ¬ f v = true := by simp [hf v (hs v t rfl)]
    rw [List.takeWhile_cons_of_neg hv, List.dropWhile_cons_of_neg hv, List.append_nil]
    exact ⟨rfl, rfl⟩

/-! ## The conversions -/

/-- `%s` with a width, into an array of one byte more. -/
def wordMax (width : ℕ) : Reader (List UInt8) := fun s =>
  match (s.takeWhile fun v => !isSpace v).take width with
  | [] => .ok none
  | v :: vs => .ok (some (v :: vs, s.drop (v :: vs).length))

/-- `%s` takes a word that is short enough. -/
theorem takes_wordMax {width : ℕ} {w : List UInt8} (hw : IsWord w) (hlen : w.length ≤ width) :
    Takes (wordMax width) w w := by
  intro s hs
  obtain ⟨htake, -⟩ := takeWhile_atGap (f := fun v => !isSpace v) (fun v hv => by simp [hv])
    (fun v hv => by simp [hw.no_space v hv]) hs
  unfold wordMax
  rw [htake, List.take_of_length_le hlen]
  obtain ⟨v, vs, rfl⟩ := List.exists_cons_of_ne_nil hw.ne_nil
  simp

/-- The digits of a number. -/
structure Numeral (base : ℕ) (w : List UInt8) (n : ℕ) : Prop where
  ne_nil : w ≠ []
  digit : ∀ v ∈ w, isDigit base v = true
  value : ofDigits base w = n

/-- White space is no digit. -/
lemma isDigit_of_isSpace {base : ℕ} (hbase : base ≤ 16) (v : UInt8) (hv : isSpace v = true) :
    isDigit base v = false := by
  have hnat : v.toNat = 32 ∨ 9 ≤ v.toNat ∧ v.toNat ≤ 13 := by
    simpa [isSpace, UInt8.le_iff_toNat_le, ← UInt8.toNat_inj] using hv
  have hvalue : digitValue v = 16 := by
    simp only [digitValue, UInt8.le_iff_toNat_le, UInt8.reduceToNat]
    rw [if_neg (by omega), if_neg (by omega), if_neg (by omega)]
  simp only [isDigit, hvalue, decide_eq_false_iff_not]
  omega

/-- Digits are a word. -/
theorem Numeral.isWord {base : ℕ} (hbase : base ≤ 16) {w : List UInt8} {n : ℕ}
    (h : Numeral base w n) : IsWord w := by
  refine ⟨h.ne_nil, fun v hv => ?_⟩
  by_contra hspace
  rw [Bool.not_eq_false] at hspace
  have := h.digit v hv
  rw [isDigit_of_isSpace hbase v hspace] at this
  cases this

/-- Digits are taken up to white space, and stand for their number. -/
lemma takes_digits {base : ℕ} (hbase : base ≤ 16) {w : List UInt8} {n : ℕ}
    (h : Numeral base w n) : Takes (digits base) w n := by
  intro s hs
  obtain ⟨htake, hdrop⟩ := takeWhile_atGap (isDigit_of_isSpace hbase) h.digit hs
  have hvalue := h.value
  obtain ⟨v, vs, rfl⟩ := List.exists_cons_of_ne_nil h.ne_nil
  unfold digits
  rw [htake, hdrop, ← hvalue]

/-- Digits do not begin with `0x`. -/
lemma dropMarker_numeral {w : List UInt8} {n : ℕ} (h : Numeral 16 w n) {s : List UInt8}
    (hs : AtGap s) : dropMarker (w ++ s) = w ++ s := by
  have hx : ∀ v : UInt8, isDigit 16 v = true ∨ isSpace v = true → ¬ (v = 120 ∨ v = 88) := by
    rintro v hv (rfl | rfl) <;> revert hv <;> decide
  obtain ⟨v, w, rfl⟩ := List.exists_cons_of_ne_nil h.ne_nil
  cases w with
  | cons u w =>
    exact if_neg fun hmark => hx u (.inl (h.digit u (by simp))) hmark.2
  | nil =>
    cases s with
    | nil => rfl
    | cons u t => exact if_neg fun hmark => hx u (.inr (hs u t rfl)) hmark.2

/-- Digits begin with no sign. -/
lemma sign_numeral {base : ℕ} (hbase : base ≤ 16) {w : List UInt8} {n : ℕ}
    (h : Numeral base w n) (s : List UInt8) : sign (w ++ s) = .ok (some (false, w ++ s)) := by
  obtain ⟨v, w, rfl⟩ := List.exists_cons_of_ne_nil h.ne_nil
  have hv := h.digit v (by simp)
  have hsign : ∀ c : UInt8, c = 45 ∨ c = 43 → digitValue c = 16 := by
    rintro c (rfl | rfl) <;> rfl
  have hne : ∀ c : UInt8, c = 45 ∨ c = 43 → v ≠ c := by
    rintro c hc rfl
    simp only [isDigit, hsign v hc, decide_eq_true_eq] at hv
    omega
  rw [List.cons_append, sign, if_neg (hne 45 (.inl rfl)), if_neg (hne 43 (.inr rfl))]

/-- The words that `%x` reads. -/
def IsHex (w : List UInt8) (n : UInt32) : Prop := Numeral 16 w n.toNat

/-- `%x` takes the digits of a number. -/
theorem takes_hexInt {w : List UInt8} {n : UInt32} (h : IsHex w n) : Takes hexInt w n := by
  intro s hs
  have hdigits : hexDigits (w ++ s) = .ok (some (n.toNat, s)) := by
    rw [hexDigits, dropMarker_numeral h hs]
    exact takes_digits (Nat.le_refl 16) h s hs
  have hconvert : toUnsigned false n.toNat = .ok n := by
    rw [toUnsigned, if_pos n.toNat_lt]
    simp
  rw [hexInt, number, bind_of_some (sign_numeral (Nat.le_refl 16) h s), bind_of_some hdigits,
    hconvert]
  rfl

/-- The words that `%d` reads. -/
inductive IsDec : List UInt8 → Int32 → Prop
  | natural {w : List UInt8} {i : Int32} {n : ℕ} (hw : Numeral 10 w n) (hi : i.toInt = n) :
      IsDec w i
  | negative {w : List UInt8} {i : Int32} {n : ℕ} (hw : Numeral 10 w n) (hi : i.toInt = -n) :
      IsDec (45 :: w) i

/-- A number with its sign is a word. -/
theorem IsDec.isWord {w : List UInt8} {i : Int32} (h : IsDec w i) : IsWord w := by
  cases h with
  | natural hw hi => exact hw.isWord (by decide)
  | negative hw hi =>
    refine ⟨List.cons_ne_nil _ _, fun v hv => ?_⟩
    rcases List.mem_cons.mp hv with rfl | hv
    · rfl
    · exact (hw.isWord (by decide)).no_space v hv

/-- `%d` takes the digits of a number, and a sign in front of them.

**Proof sketch.** The sign decides the case, the digits are taken up to the white space
(`takes_digits`), and the number is one that can be represented, since it is that of an `Int32`. -/
theorem takes_decInt {w : List UInt8} {i : Int32} (h : IsDec w i) : Takes decInt w i := by
  intro s hs
  have hlow := i.le_toInt
  have hhigh := i.toInt_lt
  cases h with
  | natural hw hi =>
    rename_i n
    have hconvert : toInt false n = .ok i := by
      rw [toInt, if_neg (by decide), if_pos (by omega), ← hi, Int32.ofInt_toInt]
    rw [decInt, number, bind_of_some (sign_numeral (by decide) hw s),
      bind_of_some (takes_digits (by decide) hw s hs), hconvert]
    rfl
  | negative hw hi =>
    rename_i w n
    have hconvert : toInt true n = .ok i := by
      rw [toInt, if_pos rfl, if_pos (by omega), ← hi, Int32.ofInt_toInt]
    rw [decInt, number,
      bind_of_some (show sign (45 :: w ++ s) = .ok (some (true, w ++ s)) from rfl),
      bind_of_some (takes_digits (by decide) hw s hs), hconvert]
    rfl

/-! ## Every number has a word -/

/-- The digit of a value below sixteen. -/
def digitByte (d : ℕ) : UInt8 := if d < 10 then UInt8.ofNat (48 + d) else UInt8.ofNat (87 + d)

/-- It has this value. -/
lemma digitValue_digitByte {d : ℕ} (h : d < 16) : digitValue (digitByte d) = d := by
  have hall : ∀ d : Fin 16, digitValue (digitByte d) = d := by decide
  exact hall ⟨d, h⟩

/-- **Every number is written with some digits**, in any base from two to sixteen.

**Proof sketch.** By strong induction on the number. A number below the base is one digit; any other
one is written like its quotient by the base, with the digit of the remainder behind it. -/
theorem exists_numeral {base : ℕ} (hlow : 2 ≤ base) (hhigh : base ≤ 16) (n : ℕ) :
    ∃ w, Numeral base w n := by
  have hdigit : ∀ d, d < base → isDigit base (digitByte d) = true := by
    intro d hd
    rw [isDigit, digitValue_digitByte (by omega)]
    exact decide_eq_true hd
  induction n using Nat.strongRecOn with
  | ind n ih =>
    by_cases hn : n < base
    · refine ⟨[digitByte n], List.cons_ne_nil _ _, by simpa using hdigit n hn, ?_⟩
      simp [ofDigits, digitValue_digitByte (show n < 16 by omega)]
    · have hmod : n % base < base := Nat.mod_lt n (by omega)
      obtain ⟨w, hw⟩ := ih (n / base) (Nat.div_lt_self (by omega) hlow)
      refine ⟨w ++ [digitByte (n % base)], by simp, fun v hv => ?_, ?_⟩
      · rcases List.mem_append.mp hv with hv | hv
        · exact hw.digit v hv
        · rw [List.mem_singleton.mp hv]
          exact hdigit _ hmod
      · have hvalue := hw.value
        rw [ofDigits] at hvalue
        rw [ofDigits, List.foldl_append, hvalue, List.foldl_cons, List.foldl_nil,
          digitValue_digitByte (by omega), Nat.div_add_mod]

/-- Every number has a word for `%x`. -/
theorem exists_isHex (n : UInt32) : ∃ w, IsHex w n :=
  exists_numeral (by decide) (Nat.le_refl 16) n.toNat

/-- Every number has a word for `%d`. -/
theorem exists_isDec (i : Int32) : ∃ w, IsDec w i := by
  obtain ⟨w, hw⟩ := exists_numeral (show 2 ≤ 10 by decide) (by decide) i.toInt.natAbs
  by_cases hi : 0 ≤ i.toInt
  · exact ⟨w, .natural hw (Int.natAbs_of_nonneg hi).symm⟩
  · exact ⟨45 :: w, .negative hw (by omega)⟩

/-! ## What is left of a text -/

/-- A reader leaves no more than there was. -/
def Within (r : Reader α) : Prop :=
  ∀ s a rest, r s = .ok (some (a, rest)) → rest.length ≤ s.length

/-- A sequence of readers leaves no more than there was. -/
theorem Within.bind {r : Reader α} {f : α → Reader β} (hr : Within r) (hf : ∀ a, Within (f a)) :
    Within (r >>= f) := by
  intro s b rest h
  obtain ⟨a, mid, ha, hb⟩ := bind_eq_some.mp h
  exact Nat.le_trans (hf a mid b rest hb) (hr s a mid ha)

/-- Reading nothing leaves what there was. -/
theorem Within.pure (a : α) : Within (Pure.pure a : Reader α) := by
  intro s b rest h
  obtain ⟨rfl, rfl⟩ : a = b ∧ s = rest := by simpa [Pure.pure] using h
  exact Nat.le_refl _

/-- White space in front makes it less. -/
theorem Within.skipping {r : Reader α} (hr : Within r) : Within (Reader.skipping r) := by
  intro s a rest h
  exact Nat.le_trans (hr _ a rest h) (List.dropWhile_suffix isSpace).length_le

/-- Skipping white space leaves no more. -/
theorem within_skipSpace : Within skipSpace := by
  intro s a rest h
  obtain ⟨-, rfl⟩ := Prod.mk.inj (Option.some.inj (Except.ok.inj h))
  exact (List.dropWhile_suffix isSpace).length_le

/-- Neither does reading digits. -/
lemma within_digits (base : ℕ) : Within (digits base) := by
  intro s a rest h
  unfold digits at h
  split at h
  · cases h
  · obtain ⟨-, rfl⟩ := Prod.mk.inj (Option.some.inj (Except.ok.inj h))
    exact (List.dropWhile_suffix _).length_le

/-- Neither does skipping the marker in front of them. -/
lemma within_hexDigits : Within hexDigits := by
  intro s a rest h
  refine Nat.le_trans (within_digits 16 _ a rest h) ?_
  unfold dropMarker
  split
  · split_ifs
    · simp only [List.length_cons]
      omega
    · exact Nat.le_refl _
  · exact Nat.le_refl _

/-- Neither does a sign. -/
lemma within_sign : Within sign := by
  intro s a rest h
  cases s with
  | nil => cases h
  | cons c s =>
    rw [sign] at h
    split_ifs at h <;>
      · obtain ⟨-, rfl⟩ := Prod.mk.inj (Option.some.inj (Except.ok.inj h))
        simp only [List.length_cons]
        omega

/-- Neither does a number. -/
lemma within_number {magnitude : Reader ℕ} (h : Within magnitude)
    (convert : Bool → ℕ → Except Undefined α) : Within (number magnitude convert) := by
  refine within_sign.bind fun b => h.bind fun n => ?_
  intro s a rest hs
  rw [Reader.ofExcept] at hs
  cases hconvert : convert b n with
  | error e =>
    rw [hconvert] at hs
    cases hs
  | ok x =>
    rw [hconvert] at hs
    obtain ⟨-, rfl⟩ := Prod.mk.inj (Option.some.inj (Except.ok.inj hs))
    exact Nat.le_refl _

/-- Neither does `%x`. -/
theorem within_hexInt : Within hexInt := within_number within_hexDigits toUnsigned

/-- Neither does `%d`. -/
theorem within_decInt : Within decInt := within_number (within_digits 10) toInt

/-- A word is not empty, so there is less behind it. -/
theorem length_lt_of_wordMax {width : ℕ} {s w rest : List UInt8}
    (h : wordMax width s = .ok (some (w, rest))) : rest.length < s.length := by
  unfold wordMax at h
  split at h
  · cases h
  · rename_i v vs htake
    obtain ⟨-, rfl⟩ := Prod.mk.inj (Option.some.inj (Except.ok.inj h))
    have hle : (v :: vs).length ≤ s.length := by
      rw [← htake]
      exact Nat.le_trans (List.take_prefix _ _).length_le (List.takeWhile_prefix _).length_le
    simp only [List.length_cons, List.length_drop] at hle ⊢
    omega

end JzPretest.Reader

import JzPretest.TestSpeaker.Options
import Mathlib.Algebra.Order.Ring.Int
import Mathlib.Tactic.Ring

set_option relaxedAutoImplicit false
set_option autoImplicit false

/-!
# The length of a recording

The length of a recording is computed twice: by `main`, which writes it to the header of the file,
and by `record`, which counts it down. `main` multiplies by an `unsigned int`, `record` by an `int`;
both products wrap around.

## Main definitions

* `JzPretest.Sndkit.headerRecordLen`, `JzPretest.Sndkit.recordParams` — `main`, when it records.
* `JzPretest.Sndkit.RecordsExactly` — both lengths are the length of the recording.

## Main results

* `JzPretest.Sndkit.headerRecordLen_eq` — the two lengths are always the same.
* `JzPretest.Sndkit.recordsExactly_iff` — they are the length of the recording exactly when neither
  the bits of a second nor the bytes of the recording exceed an `int`.
-/

namespace JzPretest.Sndkit

/-- The settings when `main` records: the header of the file that is played at the same time, if
there is one, decides what the user has not. -/
def Settings.adoptHeader (s : Settings) (header : Option WavInfo) : Settings :=
  match header with
  | none => s
  | some info => { s with toOptions := s.toOptions.adopt info }

/-- `record_len` of `main`. The quotient is an `int`, `duration` an `unsigned int`. -/
def headerRecordLen (s : Settings) : Int32 :=
  ((formatBits s.format * s.channels * s.speed / 8).toUInt32 * s.duration).toInt32

/-- `record_params`, as `main` sets it. -/
def recordParams (s : Settings) : RecordParams where
  bufferSize := s.bufferSize
  duration := s.duration.toInt32
  format := s.format
  channels := s.channels
  speed := s.speed
  fileType := s.fileType

/-- The bits of a second. -/
def bitsPerSecond (s : Settings) : ℤ :=
  (formatBits s.format).toInt * s.channels.toInt * s.speed.toInt

/-- The bytes of a second. -/
def bytesPerSecond (s : Settings) : ℤ :=
  (formatBits s.format).toInt / 8 * s.channels.toInt * s.speed.toInt

/-- The two lengths are the same, positive, and the length of the recording. -/
structure RecordsExactly (s : Settings) : Prop where
  same : headerRecordLen s = recordLen (recordParams s)
  pos : 0 < (recordLen (recordParams s)).toInt
  exact : (recordLen (recordParams s)).toInt = bytesPerSecond s * s.duration.toNat

/-- **The two lengths** are the same, whatever wraps around. -/
theorem headerRecordLen_eq (s : Settings) : headerRecordLen s = recordLen (recordParams s) := rfl

/-! ## Products that wrap around -/

/-- A number that fits is not changed. -/
lemma bmod_eq_self {x : ℤ} (hle : -2 ^ 31 ≤ x) (hlt : x < 2 ^ 31) : x.bmod (2 ^ 32) = x :=
  Int.bmod_eq_of_le (by omega) (by omega)

/-- The eighth part of a product that has wrapped around. -/
private lemma exists_tdiv_bmod (q : ℤ) : ∃ k : ℤ, ((8 * q).bmod (2 ^ 32)).tdiv 8 = q - 2 ^ 29 * k ∧
    -2 ^ 28 ≤ q - 2 ^ 29 * k ∧ q - 2 ^ 29 * k < 2 ^ 28 := by
  have hle : -2 ^ 31 ≤ (8 * q).bmod (2 ^ 32) := Int.le_bmod (by decide)
  have hlt : (8 * q).bmod (2 ^ 32) < 2 ^ 31 := Int.bmod_lt (by decide)
  obtain ⟨k, hk⟩ := Int.dvd_self_sub_bmod (x := 8 * q) (m := 2 ^ 32)
  have hk : 8 * q - (8 * q).bmod (2 ^ 32) = 2 ^ 32 * k := hk
  have heq : (8 * q).bmod (2 ^ 32) = 8 * (q - 2 ^ 29 * k) := by omega
  refine ⟨k, ?_, by omega, by omega⟩
  rw [heq, Int.mul_tdiv_cancel_left _ (by decide)]

/-- **When the product is exact**: neither `8 * q`, of which the eighth part is taken, nor `q * d`
wraps around.

**Proof sketch.** If `8 * q` has wrapped around `k` times, then the product is too small by
`2 ^ 29 * k * d`. It would have to be a multiple of `2 ^ 32`; but `k * d` is less than `8`, since
otherwise `q * d` would not fit either. -/
theorem bmod_tdiv_mul_iff {q d : ℤ} (hq : 0 < q) (hd : 0 < d) :
    ((((8 * q).bmod (2 ^ 32)).tdiv 8 * d).bmod (2 ^ 32) = q * d) ↔
      8 * q < 2 ^ 31 ∧ q * d < 2 ^ 31 := by
  obtain ⟨k, hk, hle, hlt⟩ := exists_tdiv_bmod q
  rw [hk]
  constructor
  · intro h
    have hfits : q * d < 2 ^ 31 := h ▸ Int.bmod_lt (by decide)
    refine ⟨?_, hfits⟩
    by_contra hlarge
    obtain ⟨j, hj⟩ := Int.dvd_self_sub_bmod (x := (q - 2 ^ 29 * k) * d) (m := 2 ^ 32)
    rw [h] at hj
    have hj : (q - 2 ^ 29 * k) * d - q * d = 2 ^ 32 * j := hj
    have hmul : k * d = 8 * -j := by
      have hexpand : (q - 2 ^ 29 * k) * d - q * d = -(2 ^ 29 * (k * d)) := by ring
      omega
    have hk1 : 1 ≤ k := by omega
    have hkd : 0 < k * d := Int.mul_pos (by omega) hd
    have hd8 : 2 ^ 28 * d ≤ q * d := Int.mul_le_mul_of_nonneg_right (by omega) (by omega)
    have hk8 : 2 ^ 29 * k * d ≤ (q + 2 ^ 28) * d :=
      Int.mul_le_mul_of_nonneg_right (by omega) (by omega)
    have hsum : (q + 2 ^ 28) * d = q * d + 2 ^ 28 * d := by ring
    have hassoc : 2 ^ 29 * k * d = 2 ^ 29 * (k * d) := by ring
    omega
  · rintro ⟨hq8, hfits⟩
    obtain rfl : k = 0 := by omega
    have hnonneg : 0 < q * d := Int.mul_pos hq hd
    rw [Int.mul_zero, Int.sub_zero]
    exact bmod_eq_self (by omega) hfits

/-! ## The length -/

/-- A sample of any format is made of whole bytes. -/
private lemma bitsPerSecond_eq (s : Settings) : bitsPerSecond s = 8 * bytesPerSecond s := by
  have hbits : (formatBits s.format).toInt = 8 * ((formatBits s.format).toInt / 8) := by
    unfold formatBits
    split_ifs <;> rfl
  unfold bitsPerSecond bytesPerSecond
  rw [← Int.mul_assoc, ← Int.mul_assoc, ← hbits]

/-- What `record` computes. -/
private lemma toInt_recordLen (s : Settings) : (recordLen (recordParams s)).toInt =
    (((bitsPerSecond s).bmod (2 ^ 32)).tdiv 8 * s.duration.toInt32.toInt).bmod (2 ^ 32) := by
  have height : (8 : Int32).toInt = 8 := rfl
  simp only [recordLen, recordParams, Int32.toInt_mul, Int32.toInt_div, height, Int.bmod_mul_bmod]
  rfl

/-- A duration of less than `2 ^ 31` seconds is the same as an `int`. -/
private lemma toInt_duration {d : UInt32} (h : d.toNat < 2 ^ 31) : d.toInt32.toInt = d.toNat := by
  have hbmod : d.toInt32.toInt = Int.bmod d.toNat (2 ^ 32) := BitVec.toInt_eq_toNat_bmod d.toBitVec
  rw [hbmod]
  exact bmod_eq_self (by omega) (by omega)

/-- The bytes of a second of sound, of whatever `main` goes on with. -/
private lemma bytesPerSecond_pos {s : Settings} (hchannels : 1 ≤ s.channels.toInt)
    (hrate : rateIsSupported s.speed = true) : 0 < bytesPerSecond s := by
  have hbytes : 0 < (formatBits s.format).toInt / 8 := by
    unfold formatBits
    split_ifs <;> decide
  have hrates : supportRates.all (fun rate => 0 < rate.toInt) = true := rfl
  have hspeed : 0 < s.speed.toInt :=
    of_decide_eq_true (List.all_eq_true.mp hrates _ (by simpa [rateIsSupported] using hrate))
  exact Int.mul_pos (Int.mul_pos hbytes (by omega)) hspeed

/-- **When the length of a recording is right**: for whatever options `main` accepts, both lengths
are the length of the recording if and only if neither the bits of a second nor the bytes of the
whole recording exceed an `int`.

**Proof sketch.** The checks of `main` make the duration and the bytes of a second positive. Both
lengths are then right if and only if none of the products wraps around (`bmod_tdiv_mul_iff`). -/
theorem recordsExactly_iff (stack : ℕ → UInt8) (os : List Opt) (s : Settings)
    (header : Option WavInfo)
    (hloop : optionLoop os (Settings.start stack) = .ok (.again s))
    (hchannels : 1 ≤ (s.adoptHeader header).channels.toInt)
    (hduration : s.duration.toNat < 2 ^ 31)
    (hrate : rateIsSupported (s.adoptHeader header).speed = true) :
    RecordsExactly (s.adoptHeader header) ↔
      bitsPerSecond (s.adoptHeader header) < 2 ^ 31 ∧
        bytesPerSecond (s.adoptHeader header) * s.duration.toNat < 2 ^ 31 := by
  have hsame : (s.adoptHeader header).duration = s.duration := by
    cases header <;> rfl
  have hzero := (accepted_of_optionLoop (accepted_start stack) hloop).duration
  have hpositive : 0 < (s.duration.toNat : ℤ) := by
    have hne : s.duration.toNat ≠ 0 := fun h => hzero (UInt32.toNat_inj.mp h)
    omega
  have hbytes := bytesPerSecond_pos hchannels hrate
  have hlen := toInt_recordLen (s.adoptHeader header)
  rw [hsame, toInt_duration hduration, bitsPerSecond_eq] at hlen
  rw [bitsPerSecond_eq, ← bmod_tdiv_mul_iff hbytes hpositive, ← hlen]
  constructor
  · rintro ⟨-, -, hexact⟩
    rw [hexact, hsame]
  · intro h
    refine ⟨headerRecordLen_eq _, ?_, by rw [h, hsame]⟩
    rw [h]
    exact Int.mul_pos hbytes hpositive

/-- `-R -d 20000`, with the default format: the length of the recording is negative, and nothing is
recorded. -/
theorem recordLen_negative : ∃ s,
    optionLoop [.record, .duration (text ['2', '0', '0', '0', '0'])]
      (Settings.start fun _ => 0) = .ok (.again s) ∧
    (recordLen (recordParams s)).toInt = -766967296 ∧ ¬ RecordsExactly s := by
  refine ⟨_, rfl, by decide, fun h => ?_⟩
  exact absurd h.pos (by decide)

/-- The same settings, and why. -/
theorem recordsExactly_iff_long : ∃ s,
    optionLoop [.record, .duration (text ['2', '0', '0', '0', '0'])]
      (Settings.start fun _ => 0) = .ok (.again s) ∧
    (RecordsExactly s ↔ bitsPerSecond s < 2 ^ 31 ∧ bytesPerSecond s * 20000 < 2 ^ 31) :=
  ⟨_, rfl, recordsExactly_iff (fun _ => 0)
    [.record, .duration (text ['2', '0', '0', '0', '0'])] _ none rfl (by decide) (by decide) rfl⟩

end JzPretest.Sndkit

import JzPretest.Semantics.ByteIO
import Mathlib.Data.Nat.Bitwise

set_option relaxedAutoImplicit false
set_option autoImplicit false

/-!
# Net masks and prefix lengths

`ifc_utils.c` turns a prefix length into a net mask, and a net mask into a prefix length by counting
the ones that it begins with. `fill_ip_info` of `dhcp_utils.c` counts them too, but refuses a mask
with ones behind a zero.

## Main definitions

* `JzPretest.Dhcp.prefixLengthToIpv4Netmask`, `JzPretest.Dhcp.ipv4NetmaskToPrefixLength` — the two
  functions of `ifc_utils.c`.
* `JzPretest.Dhcp.maskLoop` — the loop of `fill_ip_info`.

## Main results

* `JzPretest.Dhcp.prefixLength_netmask` — a prefix length is found again in its mask.
* `JzPretest.Dhcp.maskLoop_eq_some_iff` — `fill_ip_info` takes the masks of prefix lengths, and
  finds the same prefix length as `ipv4NetmaskToPrefixLength`.
-/

namespace JzPretest.Dhcp

/-- `htonl` and `ntohl`: the network has the highest byte first. -/
abbrev htonl (v : UInt32) : UInt32 := swap32 v

@[inherit_doc htonl] abbrev ntohl (v : UInt32) : UInt32 := swap32 v

/-- `prefixLengthToIpv4Netmask`. -/
def prefixLengthToIpv4Netmask (prefixLength : ℤ) : UInt32 :=
  if prefixLength ≤ 0 ∨ prefixLength > 32 then 0
  else htonl (~~~(0 : UInt32) <<< UInt32.ofNat (32 - prefixLength).toNat)

/-- A bit at the top, in a word of 32 bits. -/
lemma and_top_ne_zero_iff (m : UInt32) :
    m &&& (0x80000000 : UInt32) ≠ 0 ↔ 2 ^ 31 ≤ m.toNat := by
  have hlt := m.toNat_lt
  have hand : m.toNat &&& 2 ^ 31 = (m.toNat.testBit 31).toNat * 2 ^ 31 := Nat.and_two_pow _ _
  have htop : m.toNat.testBit 31 = decide (2 ^ 31 ≤ m.toNat) := by
    rw [Nat.testBit_eq_decide_div_mod_eq, decide_eq_decide]
    omega
  rw [ne_eq, ← UInt32.toNat_inj, UInt32.toNat_and,
    show (0x80000000 : UInt32).toNat = 2 ^ 31 from rfl, hand, htop]
  simp

/-- What is left after the bit at the top has been shifted out. -/
lemma toNat_shiftLeft_one {m : UInt32} (h : 2 ^ 31 ≤ m.toNat) :
    (m <<< (1 : UInt32)).toNat = 2 * m.toNat - 2 ^ 32 := by
  have hlt := m.toNat_lt
  rw [UInt32.toNat_shiftLeft]
  simp only [UInt32.reduceToNat, Nat.reduceMod, Nat.shiftLeft_eq]
  omega

/-- The loop of `ipv4NetmaskToPrefixLength`. -/
def prefixLoop (m : UInt32) (prefixLength : ℕ) : ℕ :=
  if m &&& (0x80000000 : UInt32) ≠ 0 then prefixLoop (m <<< (1 : UInt32)) (prefixLength + 1)
  else prefixLength
termination_by m.toNat
decreasing_by
  have htop := (and_top_ne_zero_iff m).mp ‹_›
  have hlt := m.toNat_lt
  rw [toNat_shiftLeft_one htop]
  omega

/-- `ipv4NetmaskToPrefixLength`. -/
def ipv4NetmaskToPrefixLength (mask : UInt32) : ℕ := prefixLoop (ntohl mask) 0

/-- The loop of `fill_ip_info` over the 32 bits of a mask; `none` when it returns `-1`. -/
def maskLoop : ℕ → UInt32 → ℕ → Option ℕ
  | 0, _, p => some p
  | n + 1, mask, p =>
    if mask = 0 then some p
    else if mask &&& (0x80000000 : UInt32) = 0 then none
    else maskLoop n (mask <<< (1 : UInt32)) (p + 1)

/-! ## The ones at the top -/

/-- `p` ones at the top of 32 bits, and zeros behind them. -/
def ones (p : ℕ) : ℕ := 2 ^ 32 - 2 ^ (32 - p)

/-- `m` begins with `p` ones, which a zero follows if there are bits left. -/
structure BeginsWithOnes (m p : ℕ) : Prop where
  le : p ≤ 32
  ones_le : ones p ≤ m
  lt_ones : p < 32 → m < ones (p + 1)

/-- One more one. -/
private lemma ones_succ {p : ℕ} (h : p < 32) : ones (p + 1) = ones p + 2 ^ (31 - p) := by
  have hpow : 2 ^ (32 - p) = 2 * 2 ^ (31 - p) := by
    rw [← Nat.pow_succ', show 32 - p = 31 - p + 1 by omega]
  have hle : 2 ^ (32 - p) ≤ 2 ^ 32 := Nat.pow_le_pow_right (by decide) (Nat.sub_le 32 p)
  unfold ones
  rw [show 32 - (p + 1) = 31 - p by omega]
  omega

/-- More ones are more. -/
lemma ones_mono {p q : ℕ} (h : p ≤ q) : ones p ≤ ones q := by
  have : 2 ^ (32 - q) ≤ 2 ^ (32 - p) := Nat.pow_le_pow_right (by decide) (by omega)
  unfold ones
  omega

/-- Ones and zeros begin with these ones only. -/
private lemma beginsWithOnes_ones {p : ℕ} (h : p ≤ 32) : BeginsWithOnes (ones p) p where
  le := h
  ones_le := Nat.le_refl _
  lt_ones hlt := by
    have := Nat.two_pow_pos (31 - p)
    rw [ones_succ hlt]
    omega

/-- There is one number of leading ones. -/
lemma BeginsWithOnes.unique {m p q : ℕ} (hp : BeginsWithOnes m p) (hq : BeginsWithOnes m q) :
    p = q := by
  rcases Nat.lt_trichotomy p q with hlt | heq | hlt
  · have h1 := hp.lt_ones (by have := hq.le; omega)
    have h2 := ones_mono (show p + 1 ≤ q by omega)
    have h3 := hq.ones_le
    omega
  · exact heq
  · have h1 := hq.lt_ones (by have := hp.le; omega)
    have h2 := ones_mono (show q + 1 ≤ p by omega)
    have h3 := hp.ones_le
    omega

/-- After a one has been shifted out, there is one less.

**Proof sketch.** Shifting the one out doubles what is behind it, so the bounds on the rest of the
mask are those on what is behind the one, doubled. -/
lemma BeginsWithOnes.shift {m p : ℕ} (htop : 2 ^ 31 ≤ m) (hm : m < 2 ^ 32)
    (h : BeginsWithOnes (2 * m - 2 ^ 32) p) : BeginsWithOnes m (p + 1) := by
  have hp : p < 32 := by
    rcases Nat.lt_or_eq_of_le h.le with hlt | rfl
    · exact hlt
    · have := h.ones_le
      simp only [ones, Nat.sub_self, Nat.pow_zero] at this
      omega
  have hpow : 2 ^ (32 - p) = 2 * 2 ^ (31 - p) := by
    rw [← Nat.pow_succ', show 32 - p = 31 - p + 1 by omega]
  have hones : ones (p + 1) = 2 ^ 32 - 2 ^ (31 - p) := by
    rw [ones, show 32 - (p + 1) = 31 - p by omega]
  refine ⟨hp, ?_, fun hp1 => ?_⟩
  · have h1 := h.ones_le
    have h2 := Nat.pow_le_pow_right (n := 2) (by decide) (show 31 - p ≤ 31 by omega)
    rw [ones, hpow] at h1
    rw [hones]
    omega
  · have h1 := h.lt_ones hp
    have hpow' : 2 ^ (31 - p) = 2 * 2 ^ (30 - p) := by
      rw [← Nat.pow_succ', show 31 - p = 30 - p + 1 by omega]
    have h2 := Nat.pow_le_pow_right (n := 2) (by decide) (show 30 - p ≤ 30 by omega)
    rw [hones] at h1
    rw [ones, show 32 - (p + 1 + 1) = 30 - p by omega]
    omega

/-- **The loop** counts the ones at the top.

**Proof sketch.** Induction along the loop: a one at the top is shifted out and counted
(`BeginsWithOnes.shift`), and a zero there ends it. -/
theorem beginsWithOnes_prefixLoop (m : UInt32) (k : ℕ) :
    ∃ p, prefixLoop m k = k + p ∧ BeginsWithOnes m.toNat p := by
  induction m, k using prefixLoop.induct with
  | case1 m k htop ih =>
    obtain ⟨p, hloop, hp⟩ := ih
    rw [and_top_ne_zero_iff] at htop
    rw [toNat_shiftLeft_one htop] at hp
    refine ⟨p + 1, ?_, hp.shift htop m.toNat_lt⟩
    rw [prefixLoop, if_pos ((and_top_ne_zero_iff m).mpr htop), hloop]
    omega
  | case2 m k hzero =>
    refine ⟨0, ?_, Nat.zero_le 32, ?_, fun _ => ?_⟩
    · rw [prefixLoop, if_neg hzero, Nat.add_zero]
    · simp [ones]
    · rw [and_top_ne_zero_iff] at hzero
      simp only [ones]
      omega

/-- **The prefix length** of any mask is the number of ones that it begins with. -/
theorem beginsWithOnes_prefixLength (mask : UInt32) :
    BeginsWithOnes (ntohl mask).toNat (ipv4NetmaskToPrefixLength mask) := by
  obtain ⟨p, hloop, hp⟩ := beginsWithOnes_prefixLoop (ntohl mask) 0
  rw [Nat.zero_add] at hloop
  rwa [ipv4NetmaskToPrefixLength, hloop]

/-- **The net mask** of a prefix length has that many ones.

**Proof sketch.** Shifting all ones by `32 - p` leaves the upper `p` of them; for `p = 0` the code
has the mask as a case of its own. -/
theorem toNat_ntohl_netmask {p : ℕ} (h : p ≤ 32) :
    (ntohl (prefixLengthToIpv4Netmask p)).toNat = ones p := by
  unfold prefixLengthToIpv4Netmask
  by_cases h0 : p = 0
  · subst h0
    rfl
  · have hk : (UInt32.ofNat (32 - p)).toNat % 32 = 32 - p := by
      rw [UInt32.toNat_ofNat']
      omega
    rw [if_neg (by omega), htonl, ntohl, swap32_swap32,
      show ((32 : ℤ) - p).toNat = 32 - p by omega]
    have hpos := Nat.two_pow_pos (32 - p)
    have hle : 2 ^ (32 - p) ≤ 2 ^ 32 := Nat.pow_le_pow_right (by decide) (Nat.sub_le 32 p)
    have hshift : (2 ^ 32 - 1) * 2 ^ (32 - p) =
        2 ^ 32 - 2 ^ (32 - p) + 2 ^ 32 * (2 ^ (32 - p) - 1) := by
      rw [Nat.mul_sub, Nat.sub_mul]
      omega
    rw [UInt32.toNat_shiftLeft, hk, Nat.shiftLeft_eq,
      show (~~~(0 : UInt32)).toNat = 2 ^ 32 - 1 from rfl, hshift, Nat.add_mul_mod_self_left,
      Nat.mod_eq_of_lt (by omega), ones]

/-- **A prefix length** is found again in its net mask. -/
theorem prefixLength_netmask {p : ℕ} (h : p ≤ 32) :
    ipv4NetmaskToPrefixLength (prefixLengthToIpv4Netmask p) = p := by
  have hones := beginsWithOnes_prefixLength (prefixLengthToIpv4Netmask p)
  rw [toNat_ntohl_netmask h] at hones
  exact hones.unique (beginsWithOnes_ones h)

/-- A mask is that of a prefix length if it consists of that many ones and zeros. -/
private lemma netmask_eq_iff {mask : UInt32} {p : ℕ} (h : p ≤ 32) :
    prefixLengthToIpv4Netmask p = mask ↔ (ntohl mask).toNat = ones p := by
  rw [← toNat_ntohl_netmask h, UInt32.toNat_inj]
  constructor
  · rintro rfl
    rfl
  · intro heq
    have h2 := congrArg swap32 heq
    rw [ntohl, ntohl, swap32_swap32, swap32_swap32] at h2
    exact h2.symm

/-- Shifting a one out of ones and zeros. -/
private lemma two_mul_sub_eq_ones_iff {m p : ℕ} (htop : 2 ^ 31 ≤ m) (hp : p < 32) :
    2 * m - 2 ^ 32 = ones p ↔ m = ones (p + 1) := by
  have hpow : 2 ^ (32 - p) = 2 * 2 ^ (31 - p) := by
    rw [← Nat.pow_succ', show 32 - p = 31 - p + 1 by omega]
  have hle := Nat.pow_le_pow_right (n := 2) (by decide) (show 31 - p ≤ 31 by omega)
  rw [ones, ones, hpow, show 32 - (p + 1) = 31 - p by omega]
  omega

/-- The first one is the highest bit. -/
private lemma ones_pos {p : ℕ} (h : 0 < p) : 2 ^ 31 ≤ ones p := by
  have := ones_mono (show 1 ≤ p by omega)
  simp only [ones] at this ⊢
  omega

/-- **The loop of `fill_ip_info`** on what is left of a mask: it ends with a number if ones and
zeros are left.

**Proof sketch.** Induction on the bits that are left. If nothing is left, the ones have been
counted; a zero at the top with something behind it is no mask; a one is shifted out, and the rest
is a mask if and only if the whole is. -/
theorem maskLoop_iff {n : ℕ} {m : UInt32} {k q : ℕ} (hle : n ≤ 32)
    (hlow : 2 ^ (32 - n) ∣ m.toNat) :
    maskLoop n m k = some q ↔ ∃ p ≤ n, q = k + p ∧ m.toNat = ones p := by
  induction n generalizing m k with
  | zero =>
    have hm : m.toNat = 0 := Nat.eq_zero_of_dvd_of_lt hlow m.toNat_lt
    rw [maskLoop, Option.some_inj]
    constructor
    · rintro rfl
      exact ⟨0, Nat.le_refl 0, rfl, hm⟩
    · rintro ⟨p, hp, rfl, -⟩
      omega
  | succ n ih =>
    rw [maskLoop]
    by_cases hm : m = 0
    · rw [if_pos hm, Option.some_inj]
      constructor
      · rintro rfl
        exact ⟨0, Nat.zero_le _, rfl, by rw [hm]; rfl⟩
      · rintro ⟨p, hp, rfl, hones⟩
        by_cases h0 : 0 < p
        · have := ones_pos h0
          rw [← hones, hm] at this
          simp at this
        · omega
    · rw [if_neg hm]
      by_cases htop : m &&& (0x80000000 : UInt32) = 0
      · have hlt : m.toNat < 2 ^ 31 := by
          by_contra hge
          exact (and_top_ne_zero_iff m).mpr (by omega) htop
        rw [if_pos htop]
        refine iff_of_false (by simp) ?_
        rintro ⟨p, hp, rfl, hones⟩
        by_cases h0 : 0 < p
        · have := ones_pos h0
          omega
        · obtain rfl : p = 0 := by omega
          exact hm (UInt32.toNat_inj.mp hones)
      · have htop' := (and_top_ne_zero_iff m).mp htop
        have hshift := toNat_shiftLeft_one htop'
        have hlow' : 2 ^ (32 - n) ∣ (m <<< (1 : UInt32)).toNat := by
          rw [hshift, show 32 - n = 32 - (n + 1) + 1 by omega, Nat.pow_succ']
          refine Nat.dvd_sub (Nat.mul_dvd_mul_left 2 hlow) ?_
          rw [← Nat.pow_succ']
          exact Nat.pow_dvd_pow 2 (by omega)
        rw [if_neg htop, ih (by omega) hlow', hshift]
        constructor
        · rintro ⟨p, hp, rfl, hones⟩
          exact ⟨p + 1, by omega, by omega, (two_mul_sub_eq_ones_iff htop' (by omega)).mp hones⟩
        · rintro ⟨p, hp, rfl, hones⟩
          cases p with
          | zero =>
            simp only [ones] at hones
            omega
          | succ p =>
            exact ⟨p, by omega, by omega, (two_mul_sub_eq_ones_iff htop' (by omega)).mpr hones⟩

/-- **Both ways of reading a net mask**: `fill_ip_info` takes the masks that a prefix length stands
for, and finds the prefix length that `ipv4NetmaskToPrefixLength` finds, from 0 to 32. -/
theorem maskLoop_eq_some_iff (mask : UInt32) (p : ℕ) :
    maskLoop 32 (ntohl mask) 0 = some p ↔
      p ≤ 32 ∧ prefixLengthToIpv4Netmask (ipv4NetmaskToPrefixLength mask) = mask ∧
        ipv4NetmaskToPrefixLength mask = p := by
  rw [maskLoop_iff (Nat.le_refl 32) (by simp)]
  constructor
  · rintro ⟨q, hq, rfl, hones⟩
    rw [← netmask_eq_iff hq] at hones
    subst hones
    rw [prefixLength_netmask hq, Nat.zero_add]
    exact ⟨hq, rfl, rfl⟩
  · rintro ⟨hle, hmask, rfl⟩
    exact ⟨_, hle, (Nat.zero_add _).symm, (netmask_eq_iff hle).mp hmask⟩

end JzPretest.Dhcp

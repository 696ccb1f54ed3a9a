import Mathlib.Algebra.Group.Nat.Defs
import Mathlib.Data.Int.Notation
import Mathlib.Data.List.Basic
import Mathlib.Data.List.Range
import Mathlib.Data.Nat.Notation

set_option relaxedAutoImplicit false
set_option autoImplicit false

/-!
# Bytes in memory and on devices

The ground under programs that copy bytes with `read` and `write`: blocks of memory whose
accesses are checked, and devices that transfer as many bytes of a request as they like, or
fail. A device follows a schedule, so that every way of cutting a stream into transfers is one
run.

## Main definitions

* `JzPretest.Buffer` — a block of memory, with checked accesses; `JzPretest.Buffer.Holds` — the
  bytes that stand in it.
* `JzPretest.Schedule` — how a device answers its requests.
* `JzPretest.Source`, `JzPretest.Sink` — a stream to read, and one to write.

## Main results

* `JzPretest.Buffer.loadAll_eq`, `JzPretest.Buffer.storeAll_eq` — accesses inside a block.
* `JzPretest.Source.read_cases`, `JzPretest.Sink.write_cases` — everything a transfer can do.
* `JzPretest.Source.flatten_blocks` — the blocks that are read make up the stream.
-/

namespace JzPretest

/-- What stops a program: an access outside a block, or an assertion that fails. -/
inductive Fault where
  | outOfBounds (i : ℤ)
  | assertionFailed (text : String)
  deriving DecidableEq, Repr

/-- A sequence has a value if its first part has one, and the second part for it. -/
theorem bind_eq_ok {φ α β : Type} {x : Except φ α} {f : α → Except φ β} {b : β} :
    x >>= f = .ok b ↔ ∃ a, x = .ok a ∧ f a = .ok b := by
  cases x with
  | error e => simp [bind, Except.bind]
  | ok a => simp [bind, Except.bind]

/-! ## Pieces of a sequence of bytes -/

/-- The `n` bytes from `pos` on. -/
def slice (f : ℕ → UInt8) (pos n : ℕ) : List UInt8 := (List.range n).map fun i => f (pos + i)

/-- No bytes. -/
@[simp] theorem slice_zero (f : ℕ → UInt8) (pos : ℕ) : slice f pos 0 = [] := rfl

/-- As many bytes as are asked for. -/
@[simp] theorem length_slice (f : ℕ → UInt8) (pos n : ℕ) : (slice f pos n).length = n := by
  simp [slice]

/-- The first byte, and those behind it. -/
theorem slice_succ (f : ℕ → UInt8) (pos n : ℕ) :
    slice f pos (n + 1) = f pos :: slice f (pos + 1) n := by
  simp only [slice, List.range_succ_eq_map, List.map_cons, List.map_map, Nat.add_zero]
  congr 1
  apply List.map_congr_left
  intro i _
  simp only [Function.comp_apply]
  congr 1
  omega

/-- Two pieces one after the other. -/
theorem slice_add (f : ℕ → UInt8) (pos n m : ℕ) :
    slice f pos (n + m) = slice f pos n ++ slice f (pos + n) m := by
  induction n generalizing pos with
  | zero => simp
  | succ n ih =>
    rw [Nat.succ_add, slice_succ, slice_succ, ih, List.cons_append,
      show pos + 1 + n = pos + (n + 1) by omega]

/-- The beginning of a piece. -/
theorem take_slice (f : ℕ → UInt8) (pos : ℕ) {n m : ℕ} (h : n ≤ m) :
    (slice f pos m).take n = slice f pos n := by
  obtain ⟨k, rfl⟩ := Nat.exists_eq_add_of_le h
  rw [slice_add, List.take_append_of_le_length (by simp), List.take_of_length_le (by simp)]

/-- The rest of a piece. -/
theorem drop_slice (f : ℕ → UInt8) (pos : ℕ) {n m : ℕ} (h : n ≤ m) :
    (slice f pos m).drop n = slice f (pos + n) (m - n) := by
  obtain ⟨k, rfl⟩ := Nat.exists_eq_add_of_le h
  rw [slice_add, List.drop_left' (length_slice _ _ _), Nat.add_sub_cancel_left]

/-- A piece of a piece. -/
theorem slice_of_slice {f : ℕ → UInt8} {pos n : ℕ} {l : List UInt8} (h : slice f pos n = l)
    {k m : ℕ} (hk : k + m ≤ n) : slice f (pos + k) m = (l.drop k).take m := by
  rw [← h, drop_slice f pos (by omega), take_slice f _ (by omega)]

/-- A beginning of a piece is a prefix of it. -/
theorem slice_prefix_slice (f : ℕ → UInt8) (pos : ℕ) {n m : ℕ} (h : n ≤ m) :
    slice f pos n <+: slice f pos m := by
  obtain ⟨k, rfl⟩ := Nat.exists_eq_add_of_le h
  rw [slice_add]
  exact List.prefix_append _ _

/-- Two pieces are equal if their bytes are. -/
theorem slice_congr {f g : ℕ → UInt8} {pos pos' n : ℕ} (h : ∀ i < n, f (pos + i) = g (pos' + i)) :
    slice f pos n = slice g pos' n := by
  apply List.map_congr_left
  intro i hi
  exact h i (List.mem_range.mp hi)

/-- The bytes of a list, read back. -/
theorem slice_getD (l : List UInt8) : slice (fun i => l.getD i 0) 0 l.length = l := by
  induction l with
  | nil => rfl
  | cons a l ih =>
    rw [List.length_cons, slice_succ]
    congr 1
    calc slice (fun i => (a :: l).getD i 0) (0 + 1) l.length
        = slice (fun i => l.getD i 0) 0 l.length := by
          apply slice_congr
          intro i _
          rw [Nat.zero_add, Nat.zero_add, Nat.add_comm, List.getD_cons_succ]
      _ = l := ih

/-- A byte of a piece. -/
theorem getD_slice (f : ℕ → UInt8) (pos : ℕ) {n i : ℕ} (h : i < n) :
    (slice f pos n).getD i 0 = f (pos + i) := by
  simp [slice, h]

/-! ## Numbers as bytes -/

/-- The `k` lowest bytes of a number, the lowest one first. -/
def littleEndian : ℕ → ℕ → List UInt8
  | 0, _ => []
  | k + 1, v => UInt8.ofNat v :: littleEndian k (v / 256)

/-- The number that bytes stand for, the lowest one first. -/
def ofLittleEndian : List UInt8 → ℕ
  | [] => 0
  | b :: bs => b.toNat + 256 * ofLittleEndian bs

/-- A number is stored in as many bytes as are asked for. -/
@[simp] theorem length_littleEndian (k v : ℕ) : (littleEndian k v).length = k := by
  induction k generalizing v with
  | zero => rfl
  | succ k ih => rw [littleEndian, List.length_cons, ih]

/-- **Reading a number back** gives it without what is above its `k` lowest bytes. -/
theorem ofLittleEndian_littleEndian (k v : ℕ) :
    ofLittleEndian (littleEndian k v) = v % 256 ^ k := by
  induction k generalizing v with
  | zero => rw [Nat.pow_zero, Nat.mod_one]; rfl
  | succ k ih =>
    rw [littleEndian, ofLittleEndian, ih, Nat.pow_succ', Nat.mod_mul]
    rfl

/-- Some bytes stand for a number below a power of 256. -/
lemma ofLittleEndian_lt (l : List UInt8) : ofLittleEndian l < 256 ^ l.length := by
  induction l with
  | nil => simp [ofLittleEndian]
  | cons b bs ih =>
    have hb := b.toNat_lt
    rw [ofLittleEndian, List.length_cons, Nat.pow_succ]
    omega

/-- **The bytes of a number** that bytes stand for are these bytes. -/
theorem littleEndian_ofLittleEndian (l : List UInt8) :
    littleEndian l.length (ofLittleEndian l) = l := by
  induction l with
  | nil => rfl
  | cons b bs ih =>
    have hb := b.toNat_lt
    rw [List.length_cons, littleEndian, ofLittleEndian,
      show (b.toNat + 256 * ofLittleEndian bs) / 256 = ofLittleEndian bs by omega, ih]
    congr 1
    apply UInt8.toNat_inj.mp
    rw [UInt8.toNat_ofNat']
    omega

/-- The `unsigned short` with its bytes in the other order. -/
def swap16 (v : UInt16) : UInt16 :=
  UInt16.ofNat (ofLittleEndian (littleEndian 2 v.toNat).reverse)

/-- The `unsigned int` with its bytes in the other order. -/
def swap32 (v : UInt32) : UInt32 :=
  UInt32.ofNat (ofLittleEndian (littleEndian 4 v.toNat).reverse)

/-- What the bytes stand for is stored as these bytes. -/
private lemma littleEndian_mod {k : ℕ} {l : List UInt8} (h : l.length = k) :
    littleEndian k (ofLittleEndian l % 256 ^ k) = l := by
  subst h
  rw [Nat.mod_eq_of_lt (ofLittleEndian_lt l), littleEndian_ofLittleEndian]

/-- Swapping the bytes of a number with two bytes turns them around. -/
lemma littleEndian_swap16 (v : UInt16) :
    littleEndian 2 (swap16 v).toNat = (littleEndian 2 v.toNat).reverse :=
  littleEndian_mod rfl

/-- The same with four bytes. -/
lemma littleEndian_swap32 (v : UInt32) :
    littleEndian 4 (swap32 v).toNat = (littleEndian 4 v.toNat).reverse :=
  littleEndian_mod rfl

/-- Changing the order twice. -/
@[simp] theorem swap16_swap16 (v : UInt16) : swap16 (swap16 v) = v := by
  have hlt : v.toNat < 256 ^ 2 := v.toNat_lt
  rw [swap16, littleEndian_swap16, List.reverse_reverse, ofLittleEndian_littleEndian,
    Nat.mod_eq_of_lt hlt, UInt16.ofNat_toNat]

/-- Swapping the bytes twice changes nothing. -/
@[simp] theorem swap32_swap32 (v : UInt32) : swap32 (swap32 v) = v := by
  have hlt : v.toNat < 256 ^ 4 := v.toNat_lt
  rw [swap32, littleEndian_swap32, List.reverse_reverse, ofLittleEndian_littleEndian,
    Nat.mod_eq_of_lt hlt, UInt32.ofNat_toNat]

/-! ## Blocks of memory -/

/-- A block of memory; bytes beyond its size are not part of it. -/
@[ext] structure Buffer where
  size : ℕ
  byte : ℕ → UInt8

namespace Buffer

/-- `data[i]`. -/
def load (data : Buffer) (i : ℤ) : Except Fault UInt8 :=
  if 0 ≤ i ∧ i < data.size then .ok (data.byte i.toNat) else .error (.outOfBounds i)

/-- `data[i] = v`. -/
def store (data : Buffer) (i : ℤ) (v : UInt8) : Except Fault Buffer :=
  if 0 ≤ i ∧ i < data.size then
    .ok { data with byte := fun j => if j = i.toNat then v else data.byte j }
  else .error (.outOfBounds i)

/-- The `n` bytes from `pos` on. -/
def loadAll (data : Buffer) : ℕ → ℕ → Except Fault (List UInt8)
  | _, 0 => .ok []
  | pos, n + 1 => do
    let v ← data.load pos
    let vs ← data.loadAll (pos + 1) n
    return v :: vs

/-- The bytes are stored one after another from `pos` on. -/
def storeAll (data : Buffer) : ℕ → List UInt8 → Except Fault Buffer
  | _, [] => .ok data
  | pos, v :: vs => do
    let data ← data.store pos v
    data.storeAll (pos + 1) vs

/-- An `unsigned short` in memory. -/
def load16 (data : Buffer) (pos : ℕ) : Except Fault UInt16 := do
  let bytes ← data.loadAll pos 2
  return UInt16.ofNat (ofLittleEndian bytes)

/-- An `unsigned int` in memory. -/
def load32 (data : Buffer) (pos : ℕ) : Except Fault UInt32 := do
  let bytes ← data.loadAll pos 4
  return UInt32.ofNat (ofLittleEndian bytes)

/-- The block with some of its bytes replaced. -/
def overlay (data : Buffer) (pos : ℕ) (bytes : List UInt8) : Buffer :=
  { data with
    byte := fun i =>
      if pos ≤ i ∧ i < pos + bytes.length then bytes.getD (i - pos) 0 else data.byte i }

/-- Storing bytes leaves the size. -/
@[simp] theorem overlay_size (data : Buffer) (pos : ℕ) (bytes : List UInt8) :
    (data.overlay pos bytes).size = data.size := rfl

/-- Storing nothing leaves the block. -/
@[simp] theorem overlay_nil (data : Buffer) (pos : ℕ) : data.overlay pos [] = data := by
  ext i
  · rfl
  · simp only [overlay, List.length_nil, Nat.add_zero]
    rw [if_neg (by omega)]

/-- Bytes before the replaced ones. -/
theorem overlay_byte_of_lt (data : Buffer) {pos i : ℕ} (bytes : List UInt8) (h : i < pos) :
    (data.overlay pos bytes).byte i = data.byte i := by
  simp only [overlay]
  rw [if_neg (by omega)]

/-- A load from inside. -/
theorem load_eq {data : Buffer} {i : ℤ} (h0 : 0 ≤ i) (h1 : i < data.size) :
    data.load i = .ok (data.byte i.toNat) :=
  if_pos ⟨h0, h1⟩

/-- A store into it. -/
theorem store_eq {data : Buffer} {i : ℤ} (h0 : 0 ≤ i) (h1 : i < data.size) (v : UInt8) :
    data.store i v = .ok { data with byte := fun j => if j = i.toNat then v else data.byte j } :=
  if_pos ⟨h0, h1⟩

/-- Loading inside the block. -/
theorem loadAll_eq {data : Buffer} {pos n : ℕ} (h : pos + n ≤ data.size) :
    data.loadAll pos n = .ok (slice data.byte pos n) := by
  induction n generalizing pos with
  | zero => rfl
  | succ n ih =>
    have h1 : ((pos : ℕ) : ℤ) < data.size := by omega
    rw [loadAll, load_eq (Int.natCast_nonneg pos) h1, ih (by omega), slice_succ]
    rfl

/-- What has been loaded was inside the block.

**Proof sketch.** Induction on the number of bytes: the load of the first byte puts its place inside
the block, and the rest are inside by induction. -/
theorem le_size_of_loadAll {data : Buffer} {pos n : ℕ} {bytes : List UInt8} (hn : n ≠ 0)
    (h : data.loadAll pos n = .ok bytes) : pos + n ≤ data.size := by
  induction n generalizing pos bytes with
  | zero => exact absurd rfl hn
  | succ n ih =>
    rw [loadAll] at h
    obtain ⟨v, hv, h⟩ := bind_eq_ok.mp h
    obtain ⟨vs, hvs, -⟩ := bind_eq_ok.mp h
    have hpos : pos < data.size := by
      unfold load at hv
      split_ifs at hv with hin
      omega
    by_cases hn0 : n = 0
    · omega
    · have := ih hn0 hvs
      omega

/-- Storing inside the block.

**Proof sketch.** Induction on the bytes. One store is the overlay of one byte; what the rest write
over that is compared with the overlay of all of them, place by place. -/
theorem storeAll_eq {data : Buffer} {pos : ℕ} {bytes : List UInt8}
    (h : pos + bytes.length ≤ data.size) :
    data.storeAll pos bytes = .ok (data.overlay pos bytes) := by
  induction bytes generalizing data pos with
  | nil => rw [storeAll, overlay_nil]
  | cons v vs ih =>
    rw [List.length_cons] at h
    have h1 : ((pos : ℕ) : ℤ) < data.size := by omega
    rw [storeAll, store_eq (Int.natCast_nonneg pos) h1]
    change storeAll _ (pos + 1) vs = _
    rw [ih (by dsimp only; omega)]
    simp only [overlay, List.length_cons, Int.toNat_natCast]
    congr 2
    funext i
    by_cases hi : i = pos
    · subst hi
      rw [if_neg (by omega), if_pos rfl, if_pos (by omega), Nat.sub_self]
      rfl
    · rw [if_neg hi]
      by_cases hr : pos + 1 ≤ i ∧ i < pos + 1 + vs.length
      · rw [if_pos hr, if_pos (by omega), show i - pos = i - (pos + 1) + 1 by omega,
          List.getD_cons_succ]
      · rw [if_neg hr, if_neg (by omega)]

/-- Storing one list after another. -/
theorem storeAll_append (data : Buffer) (pos : ℕ) (a b : List UInt8) :
    data.storeAll pos (a ++ b) = (do
      let data ← data.storeAll pos a
      data.storeAll (pos + a.length) b) := by
  induction a generalizing data pos with
  | nil => rfl
  | cons v vs ih =>
    rw [List.cons_append, storeAll, storeAll]
    cases data.store pos v with
    | error e => rfl
    | ok data =>
      change data.storeAll (pos + 1) (vs ++ b) = _
      rw [ih, List.length_cons, Nat.add_assoc, Nat.add_comm 1]
      rfl

/-- Loading an `unsigned short` that has been stored. -/
lemma load16_eq {data : Buffer} {pos : ℕ} {v : UInt16} (h : pos + 2 ≤ data.size)
    (hv : slice data.byte pos 2 = littleEndian 2 v.toNat) : data.load16 pos = .ok v := by
  rw [load16, loadAll_eq h, hv]
  have hlt : v.toNat < 256 ^ 2 := v.toNat_lt
  change Except.ok (UInt16.ofNat (ofLittleEndian (littleEndian 2 v.toNat))) = _
  rw [ofLittleEndian_littleEndian, Nat.mod_eq_of_lt hlt, UInt16.ofNat_toNat]

/-- Loading an `unsigned int` that has been stored. -/
lemma load32_eq {data : Buffer} {pos : ℕ} {v : UInt32} (h : pos + 4 ≤ data.size)
    (hv : slice data.byte pos 4 = littleEndian 4 v.toNat) : data.load32 pos = .ok v := by
  rw [load32, loadAll_eq h, hv]
  have hlt : v.toNat < 256 ^ 4 := v.toNat_lt
  change Except.ok (UInt32.ofNat (ofLittleEndian (littleEndian 4 v.toNat))) = _
  rw [ofLittleEndian_littleEndian, Nat.mod_eq_of_lt hlt, UInt32.ofNat_toNat]

/-- The `unsigned short` that these bytes are. -/
def field16 (data : Buffer) (pos : ℕ) : UInt16 :=
  UInt16.ofNat (ofLittleEndian (slice data.byte pos 2))

/-- The `unsigned int` that these bytes are. -/
def field32 (data : Buffer) (pos : ℕ) : UInt32 :=
  UInt32.ofNat (ofLittleEndian (slice data.byte pos 4))

/-- The number at a position, when its bytes are known. -/
theorem field16_eq {data : Buffer} {pos : ℕ} {v : UInt16}
    (h : slice data.byte pos 2 = littleEndian 2 v.toNat) : data.field16 pos = v := by
  have hlt : v.toNat < 256 ^ 2 := v.toNat_lt
  rw [field16, h, ofLittleEndian_littleEndian, Nat.mod_eq_of_lt hlt, UInt16.ofNat_toNat]

/-- The same with four bytes. -/
theorem field32_eq {data : Buffer} {pos : ℕ} {v : UInt32}
    (h : slice data.byte pos 4 = littleEndian 4 v.toNat) : data.field32 pos = v := by
  have hlt : v.toNat < 256 ^ 4 := v.toNat_lt
  rw [field32, h, ofLittleEndian_littleEndian, Nat.mod_eq_of_lt hlt, UInt32.ofNat_toNat]

/-- The bytes of a number in memory. -/
theorem slice_field16 (data : Buffer) (pos : ℕ) :
    slice data.byte pos 2 = littleEndian 2 (data.field16 pos).toNat := by
  rw [field16, UInt16.toNat_ofNat']
  exact (littleEndian_mod (length_slice _ _ _)).symm

/-- Four bytes are those of the number that they stand for. -/
theorem slice_field32 (data : Buffer) (pos : ℕ) :
    slice data.byte pos 4 = littleEndian 4 (data.field32 pos).toNat := by
  rw [field32, UInt32.toNat_ofNat']
  exact (littleEndian_mod (length_slice _ _ _)).symm

/-- **Loading a number**: its bytes have to lie in the block. -/
theorem loadAll_bind_eq_ok_iff {α : Type} {data : Buffer} {pos n : ℕ} (hn : n ≠ 0)
    {f : List UInt8 → α} {v : α} :
    (data.loadAll pos n >>= fun bytes => pure (f bytes)) = .ok v ↔
      pos + n ≤ data.size ∧ f (slice data.byte pos n) = v := by
  rw [bind_eq_ok]
  constructor
  · rintro ⟨bytes, hbytes, hv⟩
    have hsize := le_size_of_loadAll hn hbytes
    rw [loadAll_eq hsize] at hbytes
    obtain rfl := Except.ok.inj hbytes
    exact ⟨hsize, Except.ok.inj hv⟩
  · rintro ⟨hsize, rfl⟩
    exact ⟨_, loadAll_eq hsize, rfl⟩

/-- A load of two bytes succeeds inside the block, with what is there. -/
theorem load16_eq_ok_iff {data : Buffer} {pos : ℕ} {v : UInt16} :
    data.load16 pos = .ok v ↔ pos + 2 ≤ data.size ∧ data.field16 pos = v :=
  loadAll_bind_eq_ok_iff (by decide)

/-- The same with four bytes. -/
theorem load32_eq_ok_iff {data : Buffer} {pos : ℕ} {v : UInt32} :
    data.load32 pos = .ok v ↔ pos + 4 ≤ data.size ∧ data.field32 pos = v :=
  loadAll_bind_eq_ok_iff (by decide)

/-- What has been stored is there. -/
theorem slice_overlay (data : Buffer) (pos : ℕ) (bytes : List UInt8) :
    slice (data.overlay pos bytes).byte pos bytes.length = bytes := by
  conv_rhs => rw [← slice_getD bytes]
  apply slice_congr
  intro i hi
  simp only [overlay]
  rw [if_pos (by omega), Nat.zero_add, Nat.add_sub_cancel_left]

/-- Bytes beside the replaced ones. -/
theorem slice_overlay_of_disjoint (data : Buffer) {pos p n : ℕ} {bytes : List UInt8}
    (h : p + n ≤ pos ∨ pos + bytes.length ≤ p) :
    slice (data.overlay pos bytes).byte p n = slice data.byte p n := by
  apply slice_congr
  intro i hi
  simp only [overlay]
  rw [if_neg (by omega)]

/-! ### What a block holds -/

/-- These bytes stand in the block, from `pos` on. -/
def Holds (data : Buffer) (pos : ℕ) (bytes : List UInt8) : Prop :=
  pos + bytes.length ≤ data.size ∧ slice data.byte pos bytes.length = bytes

/-- Two lists one after the other. -/
theorem holds_append {data : Buffer} {pos : ℕ} {a b : List UInt8} :
    data.Holds pos (a ++ b) ↔ data.Holds pos a ∧ data.Holds (pos + a.length) b := by
  unfold Holds
  rw [List.length_append, slice_add]
  constructor
  · rintro ⟨hsize, hbytes⟩
    obtain ⟨ha, hb⟩ := List.append_inj hbytes (length_slice _ _ _)
    exact ⟨⟨by omega, ha⟩, by omega, hb⟩
  · rintro ⟨⟨-, ha⟩, hsize, hb⟩
    exact ⟨by omega, by rw [ha, hb]⟩

instance (data : Buffer) (pos : ℕ) (bytes : List UInt8) : Decidable (data.Holds pos bytes) :=
  inferInstanceAs (Decidable (_ ∧ _))

/-- The block that consists of these bytes. -/
def ofBytes (bytes : List UInt8) : Buffer := ⟨bytes.length, fun i => bytes.getD i 0⟩

/-- A block of some bytes is as large as there are bytes. -/
@[simp] lemma ofBytes_size (bytes : List UInt8) : (ofBytes bytes).size = bytes.length := rfl

/-- It has these bytes. -/
theorem holds_ofBytes (bytes : List UInt8) : (ofBytes bytes).Holds 0 bytes :=
  ⟨by rw [Nat.zero_add, ofBytes_size], slice_getD bytes⟩

/-- What has been stored is there. -/
theorem holds_overlay {data : Buffer} {pos : ℕ} {bytes : List UInt8}
    (h : pos + bytes.length ≤ data.size) : (data.overlay pos bytes).Holds pos bytes :=
  ⟨h, slice_overlay data pos bytes⟩

/-- A load of the two bytes that are there. -/
theorem Holds.load16 {data : Buffer} {pos : ℕ} {v : UInt16}
    (h : data.Holds pos (littleEndian 2 v.toNat)) : data.load16 pos = .ok v := by
  obtain ⟨hsize, hbytes⟩ := h
  rw [length_littleEndian] at hsize hbytes
  exact load16_eq hsize hbytes

/-- The same with four bytes. -/
theorem Holds.load32 {data : Buffer} {pos : ℕ} {v : UInt32}
    (h : data.Holds pos (littleEndian 4 v.toNat)) : data.load32 pos = .ok v := by
  obtain ⟨hsize, hbytes⟩ := h
  rw [length_littleEndian] at hsize hbytes
  exact load32_eq hsize hbytes

end Buffer

/-! ## Devices -/

/-- How a device answers: on its `i`-th call, asked for `q` bytes, it transfers at most `q` of
them, or it fails. -/
structure Schedule where
  /-- The number of bytes transferred; `none` when the call fails. -/
  answer : ℕ → ℕ → Option ℕ
  /-- Never more than were asked for. -/
  le : ∀ i q n, answer i q = some n → n ≤ q

/-- A transfer that does not fail moves at least one byte, if any is asked for. -/
def Schedule.Productive (s : Schedule) : Prop :=
  ∀ i q n, 0 < q → s.answer i q = some n → 0 < n

/-- No transfer fails. -/
def Schedule.Reliable (s : Schedule) : Prop := ∀ i q, s.answer i q ≠ none

namespace Schedule

/-- The schedule that transfers at most `k` bytes at a time, and as many as it can. -/
def atMost (k : ℕ) : Schedule where
  answer _ q := some (min k q)
  le _ q n h := by
    obtain rfl : min k q = n := Option.some.inj h
    exact Nat.min_le_right k q

/-- It makes progress if `k` is positive. -/
theorem atMost_productive {k : ℕ} (hk : 0 < k) : (atMost k).Productive := by
  intro i q n hq h
  obtain rfl : min k q = n := Option.some.inj h
  omega

/-- It never fails. -/
theorem atMost_reliable (k : ℕ) : (atMost k).Reliable := fun _ _ => by simp [atMost]

end Schedule

/-- A stream to read. -/
structure Source where
  /-- The bytes. -/
  content : ℕ → UInt8
  /-- How many there are; `none` when the stream does not end. -/
  size : Option ℕ
  schedule : Schedule
  /-- How many have been read. -/
  pos : ℕ
  /-- How many calls of `read` there have been. -/
  calls : ℕ
  /-- Whether one of them has failed. -/
  failed : Bool

/-- A stream to write. -/
structure Sink where
  /-- The bytes written so far. -/
  written : List UInt8
  schedule : Schedule
  /-- How many calls of `write` there have been. -/
  calls : ℕ
  /-- Whether one of them has failed. -/
  failed : Bool

namespace Source

/-- How many of `n` bytes there are left to read. -/
def available (s : Source) (n : ℕ) : ℕ :=
  match s.size with
  | none => n
  | some k => min n (k - s.pos)

/-- After `n` bytes more have been read. -/
def advance (s : Source) (n : ℕ) : Source := { s with pos := s.pos + n, calls := s.calls + 1 }

/-- After a call has failed. -/
def fail (s : Source) : Source := { s with calls := s.calls + 1, failed := true }

/-- `read`: the bytes that were read, none at the end of the stream; or a failure. -/
def read (s : Source) (q : ℕ) : Option (List UInt8) × Source :=
  match s.schedule.answer s.calls q with
  | none => (none, s.fail)
  | some n => (some (slice s.content s.pos (s.available n)), s.advance (s.available n))

/-- The position moves behind what has been read. -/
@[simp] theorem advance_pos (s : Source) (n : ℕ) : (s.advance n).pos = s.pos + n := rfl

/-- Reading leaves the content. -/
@[simp] lemma advance_content (s : Source) (n : ℕ) : (s.advance n).content = s.content := rfl

/-- Reading leaves the size. -/
@[simp] theorem advance_size (s : Source) (n : ℕ) : (s.advance n).size = s.size := rfl

/-- Reading leaves the schedule. -/
@[simp] theorem advance_schedule (s : Source) (n : ℕ) : (s.advance n).schedule = s.schedule := rfl

/-- A call that succeeds is no failure. -/
@[simp] theorem advance_failed (s : Source) (n : ℕ) : (s.advance n).failed = s.failed := rfl

/-- One that fails is remembered. -/
@[simp] theorem fail_failed (s : Source) : s.fail.failed = true := rfl

/-- **Everything a call of `read` can do**: it fails, or it reads at most the bytes asked for, at
least one of them unless the stream is at its end.

**Proof sketch.** By the answer of the schedule. A number of bytes is limited by what was asked for
and by what is left of the stream; a productive schedule answers at least one, so nothing is read
only at the end. -/
theorem read_cases (s : Source) (hs : s.schedule.Productive) {q : ℕ} (hq : 0 < q) :
    (s.schedule.answer s.calls q = none ∧ s.read q = (none, s.fail)) ∨
    ∃ n ≤ q, s.read q = (some (slice s.content s.pos n), s.advance n) ∧
      (∀ k, s.size = some k → n ≤ k - s.pos) ∧ (n = 0 → ∃ k, s.size = some k ∧ k ≤ s.pos) := by
  unfold read
  cases ha : s.schedule.answer s.calls q with
  | none => exact Or.inl ⟨rfl, rfl⟩
  | some n =>
    have hpos := hs _ _ _ hq ha
    have hle := s.schedule.le _ _ _ ha
    refine Or.inr ⟨s.available n, ?_, rfl, ?_, ?_⟩
    · unfold available
      split <;> omega
    · intro k hk
      simp only [available, hk]
      omega
    · intro h
      unfold available at h
      split at h
      · omega
      · exact ⟨_, ‹_›, by omega⟩

/-- No more bytes are read than were asked for. -/
theorem length_le_of_read {s s' : Source} {q : ℕ} {bytes : List UInt8}
    (h : s.read q = (some bytes, s')) : bytes.length ≤ q ∧ s'.schedule = s.schedule := by
  unfold read at h
  cases ha : s.schedule.answer s.calls q with
  | none => simp [ha] at h
  | some n =>
    have hle := s.schedule.le _ _ _ ha
    rw [ha] at h
    simp only [Prod.mk.injEq, Option.some.injEq] at h
    obtain ⟨rfl, rfl⟩ := h
    refine ⟨?_, rfl⟩
    rw [length_slice, available]
    split <;> omega

/-- A file that is opened for reading. -/
def ofFile (bytes : List UInt8) (schedule : Schedule) : Source :=
  ⟨fun i => bytes.getD i 0, some bytes.length, schedule, 0, 0, false⟩

/-- The content of a file is its bytes. -/
theorem slice_ofFile (bytes : List UInt8) (schedule : Schedule) :
    slice (ofFile bytes schedule).content 0 bytes.length = bytes :=
  slice_getD bytes

/-- `lseek`: the next byte to read is the one at `pos`. -/
def seek (s : Source) (pos : ℕ) : Source := { s with pos := pos }

/-- A read in full. -/
theorem read_full {s : Source} {q k : ℕ} (hfull : s.schedule.answer s.calls q = some q)
    (hsize : s.size = some k) (hk : s.pos + q ≤ k) :
    s.read q = (some (slice s.content s.pos q), s.advance q) := by
  have havail : s.available q = q := by
    simp only [available, hsize]
    omega
  simp only [read, hfull, havail]

/-- Reading no further than the end of a reliable stream. -/
theorem read_of_le {s : Source} (hprod : s.schedule.Productive) (hrel : s.schedule.Reliable) {q : ℕ}
    (hq : ∀ k, s.size = some k → s.pos + q ≤ k) :
    ∃ n ≤ q, (0 < q → 0 < n) ∧ s.read q = (some (slice s.content s.pos n), s.advance n) := by
  obtain ⟨n, hn⟩ := Option.ne_none_iff_exists'.mp (hrel s.calls q)
  have hle := s.schedule.le _ _ _ hn
  have havail : s.available n = n := by
    unfold available
    split
    · rfl
    · have := hq _ ‹_›
      omega
  refine ⟨n, hle, fun hpos => hprod _ _ _ hpos hn, ?_⟩
  simp only [read, hn, havail]

/-- The stream goes on with these bytes. -/
def GoesOn (s : Source) (bytes : List UInt8) : Prop :=
  slice s.content s.pos bytes.length = bytes ∧ ∀ k, s.size = some k → s.pos + bytes.length ≤ k

/-- What comes after the first bytes that the stream goes on with. -/
theorem GoesOn.append {s : Source} {a b : List UInt8} (h : s.GoesOn (a ++ b)) :
    s.GoesOn a ∧ GoesOn { s with pos := s.pos + a.length } b := by
  obtain ⟨hbytes, hsize⟩ := h
  rw [List.length_append] at hsize
  rw [List.length_append, slice_add] at hbytes
  obtain ⟨ha, hb⟩ := List.append_inj hbytes (length_slice _ _ _)
  refine ⟨⟨ha, fun k hk => ?_⟩, hb, fun k hk => ?_⟩
  · have := hsize k hk
    omega
  · have := hsize k hk
    dsimp only
    omega

/-- A reliable stream can always be read. -/
theorem exists_read {s : Source} (hs : s.schedule.Reliable) (q : ℕ) :
    ∃ bytes s', s.read q = (some bytes, s') := by
  unfold read
  cases ha : s.schedule.answer s.calls q with
  | none => exact absurd ha (hs _ _)
  | some n => exact ⟨_, _, rfl⟩

/-- The blocks that reads of `q` bytes deliver one after another, up to the end of the stream;
there are at most `n` of them. -/
def blocks (q : ℕ) : ℕ → Source → List (List UInt8)
  | 0, _ => []
  | n + 1, s =>
    match s.read q with
    | (some (v :: vs), s') => (v :: vs) :: blocks q n s'
    | _ => []

/-- A read that is not at the end of the stream delivers a block. -/
theorem blocks_succ {s s' : Source} {q : ℕ} {bytes : List UInt8}
    (h : s.read q = (some bytes, s')) (hne : bytes ≠ []) (n : ℕ) :
    blocks q (n + 1) s = bytes :: blocks q n s' := by
  cases bytes with
  | nil => exact absurd rfl hne
  | cons v vs => rw [blocks, h]

/-- There are no blocks at the end of the stream. -/
theorem blocks_eq_nil {s : Source} (hs : s.size = some s.pos) (q n : ℕ) : s.blocks q n = [] := by
  cases n with
  | zero => rfl
  | succ n =>
    rw [blocks, read]
    cases s.schedule.answer s.calls q with
    | none => rfl
    | some k =>
      have hzero : s.available k = 0 := by
        simp only [available, hs]
        omega
      simp only [hzero]
      rfl

/-- **The blocks make up the stream**: read to the end, without a failure.

**Proof sketch.** Induction on the number of blocks. With no failure, a read gives a part of what is
left: if it is empty the stream is at its end, else it is the first block and the rest of the stream
is that of the advanced source. -/
theorem flatten_blocks {q : ℕ} (hq : 0 < q) (n : ℕ) : ∀ {s : Source} {left : ℕ},
    s.schedule.Productive → s.schedule.Reliable → s.size = some (s.pos + left) → left ≤ n →
      (s.blocks q n).flatten = slice s.content s.pos left := by
  induction n with
  | zero =>
    intro s left _ _ _ hleft
    obtain rfl : left = 0 := by omega
    rfl
  | succ n ih =>
    intro s left hprod hrel hsize hleft
    rcases s.read_cases hprod hq with ⟨hans, -⟩ | ⟨k, -, hr, hk, hzero⟩
    · exact absurd hans (hrel _ _)
    · have hkleft : k ≤ left := by
        have := hk _ hsize
        omega
      by_cases hk0 : k = 0
      · obtain ⟨m, hm, hend⟩ := hzero hk0
        rw [hsize, Option.some.injEq] at hm
        obtain rfl : left = 0 := by omega
        subst hk0
        rw [blocks, hr]
        rfl
      · have hne : slice s.content s.pos k ≠ [] := by
          apply List.ne_nil_of_length_pos
          rw [length_slice]
          omega
        have hsize' : (s.advance k).size = some ((s.advance k).pos + (left - k)) := by
          rw [advance_size, hsize, advance_pos]
          congr 1
          omega
        rw [blocks_succ hr hne, List.flatten_cons,
          ih (s := s.advance k) hprod hrel hsize' (by omega), advance_pos, advance_content,
          ← slice_add, Nat.add_sub_cancel' hkleft]

/-- The blocks are a beginning of what is left of the stream.

**Proof sketch.** Induction on the number of blocks: a block that has been read is the slice at the
position, and what follows begins behind it. -/
theorem flatten_blocks_eq_slice (q n : ℕ) (s : Source) :
    (s.blocks q n).flatten = slice s.content s.pos (s.blocks q n).flatten.length := by
  induction n generalizing s with
  | zero => rfl
  | succ n ih =>
    rw [blocks, read]
    cases s.schedule.answer s.calls q with
    | none => rfl
    | some k =>
      dsimp only
      split
      · rename_i v vs s' heq
        simp only [Prod.mk.injEq, Option.some.injEq] at heq
        obtain ⟨hbytes, rfl⟩ := heq
        rw [List.flatten_cons, List.length_append, ← hbytes, length_slice, slice_add]
        congr 1
        exact ih (s.advance (s.available k))
      · rfl

end Source

namespace Sink

/-- A new file. -/
def fresh (schedule : Schedule) : Sink := ⟨[], schedule, 0, false⟩

/-- Nothing has been written before the first call. -/
@[simp] theorem fresh_written (schedule : Schedule) : (fresh schedule).written = [] := rfl

/-- After some bytes more have been written. -/
def advance (s : Sink) (bytes : List UInt8) : Sink :=
  { s with written := s.written ++ bytes, calls := s.calls + 1 }

/-- After a call has failed. -/
def fail (s : Sink) : Sink := { s with calls := s.calls + 1, failed := true }

/-- `write`: how many of the bytes were written; or a failure. -/
def write (s : Sink) (bytes : List UInt8) : Option ℕ × Sink :=
  match s.schedule.answer s.calls bytes.length with
  | none => (none, s.fail)
  | some n => (some n, s.advance (bytes.take n))

/-- What is written comes behind what has been written. -/
@[simp] theorem advance_written (s : Sink) (bytes : List UInt8) :
    (s.advance bytes).written = s.written ++ bytes := rfl

/-- Writing leaves the schedule. -/
@[simp] theorem advance_schedule (s : Sink) (bytes : List UInt8) :
    (s.advance bytes).schedule = s.schedule := rfl

/-- A call that succeeds is no failure. -/
@[simp] theorem advance_failed (s : Sink) (bytes : List UInt8) :
    (s.advance bytes).failed = s.failed := rfl

/-- One that fails is remembered. -/
@[simp] theorem fail_failed (s : Sink) : s.fail.failed = true := rfl

/-- **Everything a call of `write` can do**: it fails, or it writes at least one of the bytes. -/
theorem write_cases (s : Sink) (hs : s.schedule.Productive) {bytes : List UInt8}
    (hb : bytes ≠ []) :
    (s.schedule.answer s.calls bytes.length = none ∧ s.write bytes = (none, s.fail)) ∨
    ∃ n, 0 < n ∧ n ≤ bytes.length ∧ s.write bytes = (some n, s.advance (bytes.take n)) := by
  unfold write
  cases ha : s.schedule.answer s.calls bytes.length with
  | none => exact Or.inl ⟨rfl, rfl⟩
  | some n =>
    exact Or.inr ⟨n, hs _ _ _ (List.length_pos_of_ne_nil hb) ha, s.schedule.le _ _ _ ha, rfl⟩

end Sink

end JzPretest

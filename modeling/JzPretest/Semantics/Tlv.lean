import Mathlib.Data.List.ReduceOption
import Mathlib.Data.Nat.Notation

set_option relaxedAutoImplicit false
set_option autoImplicit false

/-!
# Sequences of types, lengths and values

A sequence of items, each of which is a code, the length of its value in one byte, and the value.
One code stands alone and fills gaps, another one ends the sequence.

## Main definitions

* `JzPretest.Tlv.Item`, `JzPretest.Tlv.encode` — items, and the bytes of a sequence of them.
* `JzPretest.Tlv.read` — the items that any bytes begin with, each with what follows it.

## Main results

* `JzPretest.Tlv.items_encode` — reading what has been written.
-/

namespace JzPretest.Tlv

/-- An item: its code and its value. -/
structure Item where
  code : UInt8
  value : List UInt8
  deriving DecidableEq, Repr

/-- The bytes of an item. -/
def Item.bytes (i : Item) : List UInt8 := i.code :: UInt8.ofNat i.value.length :: i.value

/-- The bytes of a sequence; `none` is the code that fills a gap. -/
def encode (pad : UInt8) (l : List (Option Item)) : List UInt8 :=
  l.flatMap fun i => i.elim [pad] Item.bytes

/-- An item that can be written: its code is none of the two special ones, and its value is not too
long. -/
structure Item.Fits (pad stop : UInt8) (i : Item) : Prop where
  ne_pad : i.code ≠ pad
  ne_stop : i.code ≠ stop
  length_lt : i.value.length < 256

/-- An item that has been read, and the bytes behind it. -/
structure Found extends Item where
  rest : List UInt8
  deriving DecidableEq, Repr

/-- Reading a sequence: it ends with the bytes, at the code that ends it, or before an item whose
value is not all there. -/
def read (pad stop : UInt8) : List UInt8 → List Found
  | [] => []
  | [_] => []
  | c :: n :: bs =>
    if c = pad then read pad stop (n :: bs)
    else if c = stop then []
    else if n.toNat ≤ bs.length then
      ⟨⟨c, bs.take n.toNat⟩, bs.drop n.toNat⟩ :: read pad stop (bs.drop n.toNat)
    else []
termination_by bs => bs.length
decreasing_by
  · exact Nat.lt_succ_self _
  · exact Nat.lt_succ_of_le (Nat.le_succ_of_le (List.drop_sublist _ _).length_le)

/-- The items that have been read. -/
def items (pad stop : UInt8) (bs : List UInt8) : List Item :=
  (read pad stop bs).map Found.toItem

variable {pad stop : UInt8}

/-- A pad is skipped. -/
theorem read_pad (bs : List UInt8) : read pad stop (pad :: bs) = read pad stop bs := by
  cases bs with
  | nil => rw [read, read]
  | cons n bs => rw [read, if_pos rfl]

/-- Nothing is read behind the end. -/
theorem read_stop (h : stop ≠ pad) (bs : List UInt8) : read pad stop (stop :: bs) = [] := by
  cases bs with
  | nil => rw [read]
  | cons n bs => rw [read, if_neg h, if_pos rfl]

/-- An item at the beginning. -/
theorem read_item {c n : UInt8} (hpad : c ≠ pad) (hstop : c ≠ stop) {bs : List UInt8}
    (h : n.toNat ≤ bs.length) :
    read pad stop (c :: n :: bs) =
      ⟨⟨c, bs.take n.toNat⟩, bs.drop n.toNat⟩ :: read pad stop (bs.drop n.toNat) := by
  rw [read, if_neg hpad, if_neg hstop, if_pos h]

/-- A value that is not all there. -/
theorem read_short {c n : UInt8} (hpad : c ≠ pad) {bs : List UInt8} (h : bs.length < n.toNat) :
    read pad stop (c :: n :: bs) = [] := by
  rw [read, if_neg hpad]
  split_ifs
  · rfl
  · omega
  · rfl

/-- **Reading what has been written**, with anything behind it.

**Proof sketch.** Induction on the items. Padding is skipped; an item is neither padding nor the
end, and its length byte tells the reader to take its value and nothing behind it. -/
theorem items_encode {l : List (Option Item)} (h : ∀ i, some i ∈ l → i.Fits pad stop)
    (bs : List UInt8) :
    items pad stop (encode pad l ++ bs) = l.reduceOption ++ items pad stop bs := by
  induction l with
  | nil => rfl
  | cons o l ih =>
    have ih := ih fun i hi => h i (List.mem_cons_of_mem o hi)
    rw [encode, List.flatMap_cons, List.append_assoc, ← encode]
    cases o with
    | none =>
      rw [List.reduceOption_cons_of_none, ← ih]
      simp only [Option.elim_none, List.singleton_append, items, read_pad]
    | some i =>
      obtain ⟨hpad, hstop, hlen⟩ := h i List.mem_cons_self
      have hn : (UInt8.ofNat i.value.length).toNat = i.value.length := by
        rw [UInt8.toNat_ofNat']
        omega
      rw [List.reduceOption_cons_of_some, List.cons_append, ← ih]
      simp only [Option.elim_some, Item.bytes, List.cons_append, items]
      rw [read_item hpad hstop (by rw [hn, List.length_append]; omega), hn, List.map_cons,
        List.take_left, List.drop_left]

end JzPretest.Tlv

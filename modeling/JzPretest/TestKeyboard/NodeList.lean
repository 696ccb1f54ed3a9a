import JzPretest.Semantics.ByteIO
import JzPretest.Semantics.Chain
import JzPretest.Semantics.Prog
import JzPretest.TestKeyboard.Setup
import Mathlib.Data.Fintype.Card

set_option relaxedAutoImplicit false
set_option autoImplicit false

/-!
# Lists of widgets

`list.c` keeps the widgets in nodes that point to each other. The operations that take a position
expect a header node, behind which the elements are; those that add an element at the end make the
first node an element itself.

## Main definitions

* `JzPretest.NodeList.Heap` — the nodes.
* `JzPretest.NodeList.insertButton`, `JzPretest.NodeList.deleteList`, `JzPretest.NodeList.addButton`
  and the others — the operations.
* `JzPretest.NodeList.Owns` — the nodes of a list.
* `JzPretest.NodeList.Holds`, `JzPretest.NodeList.Elements` — the elements behind a header node, and
  from the first node on.

## Main results

* `JzPretest.NodeList.ends_insertNode`, `JzPretest.NodeList.ends_deleteList`,
  `JzPretest.NodeList.ends_lengthList` — what the operations with a position do.
* `JzPretest.NodeList.ends_addNode` — what adding does.
* `JzPretest.NodeList.list_operations` — the operations with a position are those of sequences.
* `JzPretest.NodeList.not_agrees` — but not on the lists that adding makes.
-/

namespace JzPretest.NodeList

open Widget

/-! ## Nodes -/

/-- The address of a node, in units of eight bytes: a node is two pointers of 32 bits, and `malloc`
gives out multiples of eight. -/
abbrev NodePtr : Type := Fin (2 ^ 29)

/-- The nodes. -/
structure Heap where
  pNext : NodePtr → Option NodePtr
  /-- The button or the keyboard. -/
  widget : NodePtr → Ptr
  /-- Whether `malloc` has given out the node, and nobody has freed it. -/
  live : NodePtr → Bool

/-- What `malloc` may return: `NULL`, or a node that is not in use. -/
def Heap.MayReturn (h : Heap) (pNew : Option NodePtr) : Prop := ∀ a ∈ pNew, h.live a = false

/-- A new node. -/
def Heap.alloc (h : Heap) (a : NodePtr) (widget : Ptr) (pNext : Option NodePtr) : Heap where
  pNext := Function.update h.pNext a pNext
  widget := Function.update h.widget a widget
  live := Function.update h.live a true

/-- `p->pNext = q`. -/
def Heap.setNext (h : Heap) (p : NodePtr) (q : Option NodePtr) : Heap :=
  { h with pNext := Function.update h.pNext p q }

/-- `free`. -/
def Heap.free (h : Heap) (a : NodePtr) : Heap := { h with live := Function.update h.live a false }

/-! ## The operations -/

/-- `initialize_list`: the new value of `*pHead`. -/
def initializeList : Option NodePtr := none

/-- `is_empty`. -/
def isEmpty (h : Heap) (pHead : NodePtr) : Int32 :=
  match h.pNext pHead with
  | none => 1
  | some _ => 0

/-- The loop of `length_list`, on `p` and `len`. -/
def lengthPass (h : Heap) (s : Option NodePtr × Int32) :
    Prog Fault (Pass (Option NodePtr × Int32) Int32) :=
  match s.1 with
  | none => return .leave s.2
  | some p => return .again (h.pNext p, s.2 + 1)

/-- `length_list`. -/
def lengthList (h : Heap) (pHead : NodePtr) : Prog Fault Int32 :=
  Prog.loop (lengthPass h) (h.pNext pHead, 0)

/-- The loop of `insert_button` and `insert_keyboard`, on `p` and `i`. -/
def insertPass (h : Heap) (pos : Int32) (s : Option NodePtr × Int32) :
    Prog Fault (Pass (Option NodePtr × Int32) (Option NodePtr × Int32)) :=
  match s.1 with
  | none => return .leave s
  | some p => if s.2 < pos - 1 then return .again (h.pNext p, s.2 + 1) else return .leave s

/-- What `insert_button` and `insert_keyboard` have in common: all but the value that they return
when the position is not in the list. The node that `malloc` returns is given. -/
def insertNode (outside : Int32) (h : Heap) (pHead : Option NodePtr) (pos : Int32) (widget : Ptr)
    (pNew : Option NodePtr) : Prog Fault (Int32 × Heap) := do
  let s ← Prog.loop (insertPass h pos) (pHead, 0)
  match s.1 with
  | none => return (outside, h)
  | some p =>
    if s.2 > pos - 1 then return (outside, h)
    else
      match pNew with
      | none => return (-1, h)
      | some a => return (0, (h.alloc a widget (h.pNext p)).setNext p (some a))

/-- `insert_button`. -/
def insertButton :
    Heap → Option NodePtr → Int32 → Ptr → Option NodePtr → Prog Fault (Int32 × Heap) :=
  insertNode 0

/-- `insert_keyboard`. -/
def insertKeyboard :
    Heap → Option NodePtr → Int32 → Ptr → Option NodePtr → Prog Fault (Int32 × Heap) :=
  insertNode (-1)

/-- The loop of `add_button` and `add_keyboard`, on `scan`. -/
def addPass (h : Heap) (scan : NodePtr) : Prog Fault (Pass NodePtr NodePtr) :=
  match h.pNext scan with
  | none => return .leave scan
  | some q => return .again q

/-- `add_button` and `add_keyboard`, which do the same: the returned value, `*pHead` and the
nodes. -/
def addNode (h : Heap) (pHead : Option NodePtr) (widget : Ptr) (pNew : Option NodePtr) :
    Prog Fault (Int32 × Option NodePtr × Heap) :=
  match pNew with
  | none => return (-1, pHead, h)
  | some a =>
    match pHead with
    | none => return (0, some a, h.alloc a widget none)
    | some scan => do
      let last ← Prog.loop (addPass (h.alloc a widget none)) scan
      return (0, some scan, (h.alloc a widget none).setNext last (some a))

/-- `add_button`. -/
def addButton : Heap → Option NodePtr → Ptr → Option NodePtr →
    Prog Fault (Int32 × Option NodePtr × Heap) := addNode

/-- `add_keyboard`. -/
def addKeyboard : Heap → Option NodePtr → Ptr → Option NodePtr →
    Prog Fault (Int32 × Option NodePtr × Heap) := addNode

/-- The loop of `delete_list`, on `p` and `i`. -/
def deletePass (h : Heap) (pos : Int32) (s : NodePtr × Int32) :
    Prog Fault (Pass (NodePtr × Int32) (NodePtr × Int32)) :=
  match h.pNext s.1 with
  | none => return .leave s
  | some q => if s.2 < pos - 1 then return .again (q, s.2 + 1) else return .leave s

/-- `delete_list`. -/
def deleteList (h : Heap) (pHead : NodePtr) (pos : Int32) : Prog Fault (Int32 × Heap) := do
  let s ← Prog.loop (deletePass h pos) (pHead, 0)
  if s.2 > pos - 1 then return (-1, h)
  else
    match h.pNext s.1 with
    | none => return (-1, h)
    | some q => return (0, (h.setNext s.1 (h.pNext q)).free q)

/-! ## Walking -/

section Walk

variable {h : Heap} {p : Option NodePtr} {l : List NodePtr}

/-- The nodes of a chain are fewer than an `int` counts. -/
private lemma length_le_of_chained (hl : Chained h.pNext p l) : l.length ≤ 2 ^ 29 := by
  have hcard := List.Nodup.length_le_card hl.nodup
  rwa [Fintype.card_fin] at hcard

/-- `i + 1`, where it does not overflow. -/
private lemma toInt_add_one {i : Int32} (hi : 0 ≤ i.toInt) (hlt : i.toInt < 2 ^ 31 - 1) :
    (i + 1).toInt = i.toInt + 1 := by
  have hone : (1 : Int32).toInt = 1 := rfl
  rw [Int32.toInt_add, hone]
  exact Int.bmod_eq_of_le (by omega) (by omega)

/-- **Counting the nodes**.

**Proof sketch.** Induction on the chain: each node counts one, and the counter does not
overflow. -/
theorem ends_lengthPass (hl : Chained h.pNext p l) {len : Int32} (hlen : 0 ≤ len.toInt)
    (hfits : len.toInt + l.length < 2 ^ 31) :
    (Prog.loop (lengthPass h) (p, len)).Ends fun x =>
      ∃ r : Int32, x = .ok r ∧ r.toInt = len.toInt + l.length := by
  induction l generalizing p len with
  | nil =>
    obtain rfl : p = none := hl
    rw [Prog.ends_loop]
    exact (Prog.ends_pure _).mpr ⟨len, rfl, by simp⟩
  | cons a l ih =>
    obtain ⟨rfl, hl⟩ := hl
    rw [List.length_cons] at hfits
    have hone := toInt_add_one hlen (by omega)
    rw [Prog.ends_loop, lengthPass]
    dsimp only
    refine (Prog.ends_pure _).mpr ((ih hl (by omega) (by omega)).imp ?_)
    rintro _ ⟨r, rfl, hr⟩
    refine ⟨r, rfl, ?_⟩
    rw [List.length_cons]
    omega

/-- **The walk to a position**, over all nodes of a chain: it stops at the node in that place, or
behind the last one.

**Proof sketch.** Induction on the chain: the walk goes on while the counter is below the place
before the position, and stops there or behind the last node. -/
theorem ends_insertPass (hl : Chained h.pNext p l) (pos : Int32) {i : Int32} (hi : 0 ≤ i.toInt)
    (hfits : i.toInt + l.length < 2 ^ 31) :
    (Prog.loop (insertPass h pos) (p, i)).Ends fun x => ∃ i' : Int32,
      x = .ok (l[((pos - 1).toInt - i.toInt).toNat]?, i') ∧
        i'.toInt = i.toInt + min ((pos - 1).toInt - i.toInt).toNat l.length := by
  induction l generalizing p i with
  | nil =>
    obtain rfl : p = none := hl
    rw [Prog.ends_loop]
    exact (Prog.ends_pure _).mpr ⟨i, rfl, by simp⟩
  | cons a l ih =>
    obtain ⟨rfl, hl⟩ := hl
    rw [List.length_cons] at hfits
    rw [Prog.ends_loop, insertPass]
    by_cases hlt : i < pos - 1
    · have hint := Int32.lt_iff_toInt_lt.mp hlt
      have hone := toInt_add_one hi (by omega)
      simp only [if_pos hlt]
      refine (Prog.ends_pure _).mpr ((ih hl (by omega) (by omega)).imp ?_)
      rintro _ ⟨i', rfl, hi'⟩
      have hk : ((pos - 1).toInt - i.toInt).toNat =
          ((pos - 1).toInt - (i + 1).toInt).toNat + 1 := by omega
      refine ⟨i', ?_, ?_⟩
      · rw [hk, List.getElem?_cons_succ]
      · rw [hk, List.length_cons]
        omega
    · have hint := Int32.le_iff_toInt_le.mp (Int32.not_lt.mp hlt)
      have hk : ((pos - 1).toInt - i.toInt).toNat = 0 := by omega
      simp only [if_neg hlt]
      refine (Prog.ends_pure _).mpr ⟨i, ?_, ?_⟩
      · rw [hk, List.getElem?_cons_zero]
      · rw [hk, List.length_cons]
        omega

/-- The walk of `delete_list`, which stops one node before that, and does not go behind the last
one.

**Proof sketch.** Induction on the chain, as for `ends_insertPass`, except that the walk stays on
the last node. -/
private lemma ends_deletePass {a : NodePtr} (hl : Chained h.pNext (some a) (a :: l)) (pos : Int32)
    {i : Int32} (hi : 0 ≤ i.toInt) (hfits : i.toInt + l.length < 2 ^ 31) :
    (Prog.loop (deletePass h pos) (a, i)).Ends fun x => ∃ b, ∃ i' : Int32, x = .ok (b, i') ∧
      (a :: l)[min ((pos - 1).toInt - i.toInt).toNat l.length]? = some b ∧
        i'.toInt = i.toInt + min ((pos - 1).toInt - i.toInt).toNat l.length := by
  induction l generalizing a i with
  | nil =>
    have hnone : h.pNext a = none := hl.2
    rw [Prog.ends_loop, deletePass, hnone]
    exact (Prog.ends_pure _).mpr ⟨a, i, rfl, by simp, by simp⟩
  | cons b l ih =>
    have hsome : h.pNext a = some b := hl.2.1
    rw [List.length_cons] at hfits
    rw [Prog.ends_loop, deletePass, hsome]
    by_cases hlt : i < pos - 1
    · have hint := Int32.lt_iff_toInt_lt.mp hlt
      have hone := toInt_add_one hi (by omega)
      simp only [if_pos hlt]
      have htail : Chained h.pNext (some b) (b :: l) := hsome ▸ hl.2
      refine (Prog.ends_pure _).mpr ((ih htail (by omega) (by omega)).imp ?_)
      rintro _ ⟨c, i', rfl, hc, hi'⟩
      have hk : min ((pos - 1).toInt - i.toInt).toNat (l.length + 1) =
          min ((pos - 1).toInt - (i + 1).toInt).toNat l.length + 1 := by omega
      refine ⟨c, i', rfl, ?_, ?_⟩
      · rw [List.length_cons, hk, List.getElem?_cons_succ, hc]
      · rw [List.length_cons, hk]
        omega
    · have hint := Int32.le_iff_toInt_le.mp (Int32.not_lt.mp hlt)
      have hk : ((pos - 1).toInt - i.toInt).toNat = 0 := by omega
      simp only [if_neg hlt]
      refine (Prog.ends_pure _).mpr ⟨a, i, rfl, ?_, ?_⟩
      · rw [hk, Nat.zero_min, List.getElem?_cons_zero]
      · rw [hk, Nat.zero_min]
        omega

/-- The walk to the last node. -/
private lemma ends_addPass {a : NodePtr} (hl : Chained h.pNext (some a) (a :: l)) :
    (Prog.loop (addPass h) a).Ends fun x => ∃ b, x = .ok b ∧ (a :: l)[l.length]? = some b := by
  induction l generalizing a with
  | nil =>
    have hnone : h.pNext a = none := hl.2
    rw [Prog.ends_loop, addPass, hnone]
    exact (Prog.ends_pure _).mpr ⟨a, rfl, rfl⟩
  | cons b l ih =>
    have hsome : h.pNext a = some b := hl.2.1
    rw [Prog.ends_loop, addPass, hsome]
    have htail : Chained h.pNext (some b) (b :: l) := hsome ▸ hl.2
    refine (Prog.ends_pure _).mpr ((ih htail).imp ?_)
    rintro _ ⟨c, rfl, hc⟩
    exact ⟨c, rfl, hc⟩

end Walk

/-! ## Lists that own their nodes -/

/-- The list from the pointer `p` goes through these nodes, and all of them are in use. -/
structure Owns (h : Heap) (p : Option NodePtr) (l : List NodePtr) : Prop where
  chained : Chained h.pNext p l
  live : ∀ a ∈ l, h.live a = true

namespace Owns

variable {h : Heap} {p : Option NodePtr} {l : List NodePtr} {k : ℕ} {a b : NodePtr}

/-- A node that is not in use is none of the list. -/
lemma not_mem (hl : Owns h p l) (hb : h.MayReturn (some b)) : b ∉ l := by
  intro hmem
  have hfree := hb b rfl
  rw [hl.live b hmem] at hfree
  exact absurd hfree (by decide)

/-- **A new node** is linked in behind another one. -/
theorem link (hl : Owns h p l) (ha : l[k]? = some a) (hb : h.MayReturn (some b)) (widget : Ptr) :
    Owns ((h.alloc b widget (h.pNext a)).setNext a (some b)) p (l.insertIdx (k + 1) b) := by
  refine ⟨hl.chained.insertIdx ha (hl.not_mem hb), fun c hc => ?_⟩
  change Function.update h.live b true c = true
  rcases List.eq_or_mem_of_mem_insertIdx hc with rfl | hc
  · exact Function.update_self ..
  · rw [Function.update_of_ne (ne_of_mem_of_not_mem hc (hl.not_mem hb)), hl.live c hc]

/-- **The node behind another one** is linked out, and freed. -/
theorem unlink (hl : Owns h p l) (ha : l[k]? = some a) (hb : l[k + 1]? = some b) :
    Owns ((h.setNext a (h.pNext b)).free b) p (l.eraseIdx (k + 1)) := by
  refine ⟨hl.chained.eraseIdx ha hb, fun c hc => ?_⟩
  obtain ⟨i, hi, hic⟩ := List.mem_eraseIdx_iff_getElem?.mp hc
  have hcb : c ≠ b := by
    rintro rfl
    obtain ⟨hlt, -⟩ := List.getElem?_eq_some_iff.mp hic
    exact hi ((List.getElem?_inj hlt hl.chained.nodup).mp (hic.trans hb.symm))
  change Function.update h.live b false c = true
  rw [Function.update_of_ne hcb, hl.live c (List.mem_of_mem_eraseIdx hc)]

/-- A new node does not touch the list. -/
private lemma alloc (hl : Owns h p l) (hb : h.MayReturn (some b)) (widget : Ptr)
    (q : Option NodePtr) :
    Owns (h.alloc b widget q) p l := by
  have hne : ∀ c ∈ l, c ≠ b := fun c hc => ne_of_mem_of_not_mem hc (hl.not_mem hb)
  refine ⟨hl.chained.congr fun c hc => Function.update_of_ne (hne c hc) .., fun c hc => ?_⟩
  change Function.update h.live b true c = true
  rw [Function.update_of_ne (hne c hc), hl.live c hc]

/-- The first node, in an empty list. -/
private lemma single (hb : h.MayReturn (some b)) (widget : Ptr) :
    Owns (h.alloc b widget none) (some b) [b] := by
  refine ⟨⟨rfl, Function.update_self ..⟩, fun c hc => ?_⟩
  obtain rfl := List.mem_singleton.mp hc
  exact Function.update_self ..

end Owns

/-- What other nodes hold does not change. -/
lemma map_update_widget {h : Heap} {l : List NodePtr} {b : NodePtr} (hb : b ∉ l) (widget : Ptr) :
    l.map (Function.update h.widget b widget) = l.map h.widget :=
  List.map_congr_left fun _ hc => Function.update_of_ne (ne_of_mem_of_not_mem hc hb) ..

/-! ## Elements behind a header node -/

/-- The elements behind a header node. -/
def Holds (h : Heap) (pHead : NodePtr) (xs : List Ptr) : Prop :=
  ∃ l, Owns h (some pHead) (pHead :: l) ∧ l.map h.widget = xs

section Operations

variable {h : Heap} {pHead : NodePtr} {xs : List Ptr}

/-- The elements are fewer than an `int` counts. -/
lemma Holds.length_lt (hl : Holds h pHead xs) : xs.length < 2 ^ 29 := by
  obtain ⟨l, hown, rfl⟩ := hl
  have hle := length_le_of_chained hown.chained
  rw [List.length_cons] at hle
  rw [List.length_map]
  omega

/-- **Where a walk stops** that goes `n` nodes at most: at the node before the position, if there
are that many; else the counter tells that the position is too small, or it has gone all the way. At
the least `int` the position before wraps around, to one that is too large.

**Proof sketch.** Away from the least `int` the position before is the one less, and linear
arithmetic decides. At the least `int` it wraps around to the greatest, so the walk goes all the
way. -/
private theorem stop_cases (pos : Int32) {n : ℕ} (hn : n < 2 ^ 31) {i : Int32}
    (hi : i.toInt = 0 + (min (pos - 1).toInt.toNat n : ℕ)) :
    (∃ k : ℕ, pos.toInt = k + 1 ∧ k < n ∧ (pos - 1).toInt.toNat = k ∧ ¬ i > pos - 1) ∨
      (¬ (1 ≤ pos.toInt ∧ pos.toInt ≤ n) ∧
        ((pos - 1).toInt.toNat = 0 ∧ i > pos - 1 ∨ n ≤ (pos - 1).toInt.toNat)) := by
  have hone : (1 : Int32).toInt = 1 := rfl
  have hlo := pos.le_toInt
  have hhi := pos.toInt_lt
  have hgt : i > pos - 1 ↔ (pos - 1).toInt < i.toInt := Int32.lt_iff_toInt_lt
  have hsub : (pos - 1).toInt = (pos.toInt - 1).bmod (2 ^ 32) := by rw [Int32.toInt_sub, hone]
  rw [hgt]
  by_cases hmin : pos.toInt = -2 ^ 31
  · have hwrap : (pos.toInt - 1).bmod (2 ^ 32) = 2 ^ 31 - 1 := by rw [hmin]; rfl
    exact Or.inr ⟨by omega, Or.inr (by omega)⟩
  · have hplain : (pos.toInt - 1).bmod (2 ^ 32) = pos.toInt - 1 :=
      Int.bmod_eq_of_le (by omega) (by omega)
    by_cases hin : 1 ≤ pos.toInt ∧ pos.toInt ≤ n
    · exact Or.inl ⟨(pos.toInt - 1).toNat, by omega, by omega, by omega, by omega⟩
    · exact Or.inr ⟨hin, by omega⟩

/-- `length_list` counts the elements. -/
theorem ends_lengthList (hl : Holds h pHead xs) :
    (lengthList h pHead).Ends fun x => ∃ r : Int32, x = .ok r ∧ r.toInt = xs.length := by
  have hlt := hl.length_lt
  obtain ⟨l, hown, rfl⟩ := hl
  rw [List.length_map] at hlt ⊢
  have hzero : (0 : Int32).toInt = 0 := rfl
  refine (ends_lengthPass hown.chained.2 hzero.ge (by omega)).imp ?_
  rintro _ ⟨r, rfl, hr⟩
  exact ⟨r, rfl, by omega⟩

/-- `is_empty` tells whether there are elements. -/
private lemma isEmpty_eq (hl : Holds h pHead xs) : isEmpty h pHead = if xs = [] then 1 else 0 := by
  obtain ⟨l, hown, rfl⟩ := hl
  rw [isEmpty, hown.chained.2.eq_head?]
  cases l <;> rfl

/-- **Inserting** before a position.

**Proof sketch.** `ends_insertPass` from the header on, and `stop_cases` for where it stops: at the
node before the position the new one is linked in, and in the other cases nothing has changed. -/
theorem ends_insertNode (hl : Holds h pHead xs) (outside pos : Int32) (widget : Ptr)
    {pNew : Option NodePtr} (hnew : h.MayReturn pNew) :
    (insertNode outside h (some pHead) pos widget pNew).Ends fun x =>
      if 1 ≤ pos.toInt ∧ pos.toInt ≤ xs.length + 1 then
        if pNew = none then x = .ok (-1, h)
        else ∃ h', x = .ok (0, h') ∧ Holds h' pHead (xs.insertIdx (pos.toInt.toNat - 1) widget)
      else x = .ok (outside, h) := by
  have hlt := hl.length_lt
  obtain ⟨l, hown, rfl⟩ := hl
  rw [List.length_map] at hlt ⊢
  have hzero : (0 : Int32).toInt = 0 := rfl
  have hlen : (pHead :: l).length = l.length + 1 := List.length_cons
  rw [insertNode, Prog.ends_bind]
  refine (ends_insertPass hown.chained pos hzero.ge (by omega)).imp ?_
  rintro _ ⟨i', rfl, hi'⟩
  rw [hzero, Int.sub_zero] at hi'
  rw [hzero, Int.sub_zero, Prog.andThen_ok]
  rcases stop_cases pos (by omega) hi' with ⟨k, hk, hkl, hpos, hstop⟩ | ⟨hout, hside⟩
  · obtain ⟨a, ha⟩ : ∃ a, (pHead :: l)[k]? = some a := ⟨_, List.getElem?_eq_getElem hkl⟩
    have hidx : pos.toInt.toNat - 1 = k := by omega
    have hin : 1 ≤ pos.toInt ∧ pos.toInt ≤ (l.length : ℤ) + 1 := by omega
    rw [hpos, ha, hidx]
    simp only [if_neg hstop, if_pos hin]
    cases pNew with
    | none => exact (Prog.ends_pure _).mpr rfl
    | some b =>
      have hmem := List.not_mem_of_not_mem_cons (hown.not_mem hnew)
      refine (Prog.ends_pure _).mpr ⟨_, rfl, l.insertIdx k b, hown.link ha hnew widget, ?_⟩
      change (l.insertIdx k b).map (Function.update h.widget b widget) = _
      rw [List.map_insertIdx, Function.update_self, map_update_widget hmem]
  · have hnot : ¬ (1 ≤ pos.toInt ∧ pos.toInt ≤ (l.length : ℤ) + 1) := by omega
    simp only [if_neg hnot]
    rcases hside with ⟨hpos, hstop⟩ | hbig
    · rw [hpos, List.getElem?_cons_zero]
      simp only [if_pos hstop]
      exact (Prog.ends_pure _).mpr rfl
    · rw [List.getElem?_eq_none hbig]
      exact (Prog.ends_pure _).mpr rfl

/-- **Deleting** at a position.

**Proof sketch.** `ends_deletePass` from the header on, and `stop_cases`: the node behind the one
where the walk stops is linked out, if there is one. -/
theorem ends_deleteList (hl : Holds h pHead xs) (pos : Int32) :
    (deleteList h pHead pos).Ends fun x =>
      if 1 ≤ pos.toInt ∧ pos.toInt ≤ xs.length then
        ∃ h', x = .ok (0, h') ∧ Holds h' pHead (xs.eraseIdx (pos.toInt.toNat - 1))
      else x = .ok (-1, h) := by
  have hlt := hl.length_lt
  obtain ⟨l, hown, rfl⟩ := hl
  rw [List.length_map] at hlt ⊢
  have hzero : (0 : Int32).toInt = 0 := rfl
  have hlen : (pHead :: l).length = l.length + 1 := List.length_cons
  rw [deleteList, Prog.ends_bind]
  refine (ends_deletePass hown.chained pos hzero.ge (by omega)).imp ?_
  rintro _ ⟨a, i', rfl, ha, hi'⟩
  rw [hzero, Int.sub_zero] at ha hi'
  rw [Prog.andThen_ok]
  have hnext := hown.chained.next_eq ha
  rcases stop_cases pos (by omega) hi' with ⟨k, hk, hkl, hpos, hstop⟩ | ⟨hout, hside⟩
  · rw [hpos, Nat.min_eq_left hkl.le] at ha hnext
    obtain ⟨b, hb⟩ : ∃ b, (pHead :: l)[k + 1]? = some b :=
      ⟨_, List.getElem?_eq_getElem (by omega)⟩
    have hidx : pos.toInt.toNat - 1 = k := by omega
    have hin : 1 ≤ pos.toInt ∧ pos.toInt ≤ (l.length : ℤ) := by omega
    rw [hidx, hnext, hb]
    simp only [if_neg hstop, if_pos hin]
    exact (Prog.ends_pure _).mpr
      ⟨_, rfl, l.eraseIdx k, hown.unlink ha hb, (List.eraseIdx_map ..).symm⟩
  · simp only [if_neg hout]
    rcases hside with ⟨-, hstop⟩ | hbig
    · simp only [if_pos hstop]
      exact (Prog.ends_pure _).mpr rfl
    · rw [hnext, Nat.min_eq_right hbig, List.getElem?_eq_none (by omega)]
      split_ifs
      · exact (Prog.ends_pure _).mpr rfl
      · exact (Prog.ends_pure _).mpr rfl

end Operations

/-- **The operations with a position** are those of a sequence, counting from one. A node that is
inserted and then deleted leaves the sequence as it was.

**Proof sketch.** The parts are `ends_insertNode`, `ends_deleteList`, `ends_lengthList` and
`isEmpty_eq`; the two insertions differ in what they return outside the range. Deleting at the
position of an insertion takes out the same element. -/
theorem list_operations {h : Heap} {pHead : NodePtr} {xs : List Ptr} (hl : Holds h pHead xs)
    (pos : Int32) :
    (∀ insert, insert = insertButton ∨ insert = insertKeyboard → ∀ widget pNew, h.MayReturn pNew →
      (insert h (some pHead) pos widget pNew).Ends fun x => ∃ r h', x = .ok (r, h') ∧
        if 1 ≤ pos.toInt ∧ pos.toInt ≤ xs.length + 1 ∧ pNew ≠ none then
          r = 0 ∧ Holds h' pHead (xs.insertIdx (pos.toInt.toNat - 1) widget) ∧
            (deleteList h' pHead pos).Ends fun y => ∃ h'', y = .ok (0, h'') ∧ Holds h'' pHead xs
        else h' = h) ∧
      ((deleteList h pHead pos).Ends fun x =>
        if 1 ≤ pos.toInt ∧ pos.toInt ≤ xs.length then
          ∃ h', x = .ok (0, h') ∧ Holds h' pHead (xs.eraseIdx (pos.toInt.toNat - 1))
        else x = .ok (-1, h)) ∧
      ((lengthList h pHead).Ends fun x => ∃ r : Int32, x = .ok r ∧ r.toInt = xs.length) ∧
      isEmpty h pHead = if xs = [] then 1 else 0 := by
  refine ⟨fun insert hinsert widget pNew hnew => ?_, ends_deleteList hl pos, ends_lengthList hl,
    isEmpty_eq hl⟩
  obtain ⟨outside, rfl⟩ : ∃ outside, insert = insertNode outside := by
    rcases hinsert with rfl | rfl
    · exact ⟨0, rfl⟩
    · exact ⟨-1, rfl⟩
  refine (ends_insertNode hl outside pos widget hnew).imp ?_
  intro x hx
  by_cases hin : 1 ≤ pos.toInt ∧ pos.toInt ≤ (xs.length : ℤ) + 1
  · rw [if_pos hin] at hx
    by_cases hnone : pNew = none
    · rw [if_pos hnone] at hx
      exact ⟨-1, h, hx, by rw [if_neg fun hc => hc.2.2 hnone]⟩
    · rw [if_neg hnone] at hx
      obtain ⟨h', rfl, hl'⟩ := hx
      refine ⟨0, h', rfl, ?_⟩
      rw [if_pos ⟨hin.1, hin.2, hnone⟩]
      refine ⟨rfl, hl', (ends_deleteList hl' pos).imp ?_⟩
      intro y hy
      have hlen := List.length_insertIdx_of_le_length
        (show pos.toInt.toNat - 1 ≤ xs.length by omega) widget
      rw [if_pos ⟨hin.1, by omega⟩, List.eraseIdx_insertIdx_self] at hy
      exact hy
  · rw [if_neg hin] at hx
    exact ⟨outside, h, hx, by rw [if_neg fun hc => hin ⟨hc.1, hc.2.1⟩]⟩

/-- A header node, and a node behind it. -/
private def oneElement : Heap where
  pNext := fun a => if a = 0 then some 1 else none
  widget := fun _ => 7
  live := fun a => a = 0 ∨ a = 1

/-- It has one element. -/
private lemma holds_oneElement : Holds oneElement 0 [7] :=
  ⟨[1], ⟨⟨rfl, rfl, rfl⟩, by simp [oneElement]⟩, rfl⟩

/-- The second position of a list with one element is the one behind it. -/
theorem list_operations_append :
    (insertKeyboard oneElement (some 0) 2 9 (some 2)).Ends fun x => ∃ r h', x = .ok (r, h') ∧
      r = 0 ∧ Holds h' 0 [7, 9] ∧
        (deleteList h' 0 2).Ends fun y => ∃ h'', y = .ok (0, h'') ∧ Holds h'' 0 [7] :=
  (list_operations holds_oneElement 2).1 insertKeyboard (.inr rfl) 9 (some 2) (by
    intro a ha
    obtain rfl := Option.some.inj ha
    decide)

/-! ## Elements from the first node on -/

/-- The elements of a list without a header node. -/
def Elements (h : Heap) (pHead : Option NodePtr) (xs : List Ptr) : Prop :=
  ∃ l, Owns h pHead l ∧ l.map h.widget = xs

/-- What the operations with a position take for the elements: all but the first one, which they
take for the header. -/
lemma Elements.holds_tail {h : Heap} {pHead : NodePtr} {xs : List Ptr}
    (hl : Elements h (some pHead) xs) : Holds h pHead xs.tail := by
  obtain ⟨l, hown, rfl⟩ := hl
  cases l with
  | nil => exact absurd hown.chained (by simp [Chained])
  | cons a l =>
    obtain rfl : pHead = a := Option.some.inj hown.chained.1
    exact ⟨l, hown, rfl⟩

/-- **Adding** an element, which is what it is on the chain.

**Proof sketch.** On an empty list the new node is the first. Otherwise the walk ends at the last
node, behind which the new one is linked in. -/
theorem ends_addNode {h : Heap} {pHead : Option NodePtr} {xs : List Ptr} (hl : Elements h pHead xs)
    (widget : Ptr) {a : NodePtr} (ha : h.MayReturn (some a)) :
    (addNode h pHead widget (some a)).Ends fun x => ∃ p' h', x = .ok (0, some p', h') ∧
      Elements h' (some p') (Widget.addButton xs widget) := by
  obtain ⟨l, hown, rfl⟩ := hl
  rw [addButton_eq_concat]
  cases l with
  | nil =>
    obtain rfl : pHead = none := hown.chained
    refine (Prog.ends_pure _).mpr ⟨a, _, rfl, [a], Owns.single ha widget, ?_⟩
    exact congrArg (· :: []) (Function.update_self ..)
  | cons scan l =>
    obtain rfl := hown.chained.1
    have hmem := hown.not_mem ha
    rw [addNode, Prog.ends_bind]
    refine (ends_addPass (hown.alloc ha widget none).chained).imp ?_
    rintro _ ⟨last, rfl, hlast⟩
    have hnext : h.pNext last = none :=
      (hown.chained.next_eq hlast).trans (List.getElem?_eq_none (by rw [List.length_cons]))
    have hlink := hown.link hlast ha widget
    rw [hnext, ← List.length_cons, List.insertIdx_length_self] at hlink
    refine (Prog.ends_pure _).mpr ⟨scan, _, rfl, scan :: l ++ [a], hlink, ?_⟩
    change (scan :: l ++ [a]).map (Function.update h.widget a widget) = _
    rw [List.map_append, map_update_widget hmem]
    exact congrArg (_ ++ [·]) (Function.update_self ..)

/-- **A list that is built** from the one of `initialize_list`, by calls of `add_button` and
`add_keyboard` that get a node: the elements added. -/
inductive Built : Option NodePtr → Heap → List Ptr → Prop
  | init (h : Heap) : Built initializeList h []
  | add {pHead p' : Option NodePtr} {h h' : Heap} {xs : List Ptr} {r : Int32}
      (hb : Built pHead h xs)
      (f : Heap → Option NodePtr → Ptr → Option NodePtr →
        Prog Fault (Int32 × Option NodePtr × Heap))
      (hf : f = addButton ∨ f = addKeyboard) (widget : Ptr) (a : NodePtr)
      (ha : h.MayReturn (some a))
      (hadd : (f h pHead widget (some a)).Ends (· = .ok (r, p', h'))) : Built p' h' (xs ++ [widget])

/-- What has been added are the elements. -/
lemma Built.elements {pHead : Option NodePtr} {h : Heap} {xs : List Ptr} (hb : Built pHead h xs) :
    Elements h pHead xs := by
  induction hb with
  | init h => exact ⟨[], ⟨rfl, by simp⟩, rfl⟩
  | add _ f hf widget a ha hadd ih =>
    obtain rfl : f = addNode := by rcases hf with rfl | rfl <;> rfl
    obtain ⟨n, x, hx, rfl⟩ := hadd
    obtain ⟨q, h'', heq, hl⟩ := (ends_addNode ih widget ha).always n _ hx
    obtain ⟨rfl, rfl, rfl⟩ : _ ∧ _ ∧ _ := by simpa using heq
    rwa [addButton_eq_concat] at hl

/-- **All operations mean the same list**: `length_list` counts the elements, `is_empty` tells that
there are some, and `delete_list` removes the one in the given place. -/
structure Agrees (h : Heap) (pHead : NodePtr) (xs : List Ptr) : Prop where
  length : (lengthList h pHead).Ends fun x => ∃ r : Int32, x = .ok r ∧ r.toInt = xs.length
  nonempty : isEmpty h pHead = 0
  delete : ∀ pos : Int32, 1 ≤ pos.toInt → pos.toInt ≤ xs.length →
    (deleteList h pHead pos).Ends fun x => ∃ h', x = .ok (0, h') ∧
      Elements h' (some pHead) (xs.eraseIdx (pos.toInt.toNat - 1))

/-- **They never do**, on a list that is built by adding elements: those with a position take the
first one for the header.

**Proof sketch.** Built by adding elements, a list has no header, so the operations with a position
hold the elements but the first: the length they count is one less. -/
theorem not_agrees {pHead : Option NodePtr} {h : Heap} {xs : List Ptr} (hb : Built pHead h xs)
    (hne : xs ≠ []) : ∃ p, pHead = some p ∧ ¬ Agrees h p xs ∧ Holds h p xs.tail := by
  have hl := hb.elements
  cases pHead with
  | none =>
    obtain ⟨l, hown, rfl⟩ := hl
    obtain rfl := hown.chained.unique (show Chained h.pNext none [] from rfl)
    exact absurd rfl hne
  | some p =>
    have htail := hl.holds_tail
    refine ⟨p, rfl, fun hagree => ?_, htail⟩
    obtain ⟨n, x, hx, r, rfl, hr⟩ := hagree.length
    obtain ⟨r', heq, hr'⟩ := (ends_lengthList htail).always n _ hx
    obtain rfl := Except.ok.inj heq
    have hpos := List.length_pos_iff.mpr hne
    rw [List.length_tail] at hr'
    omega

/-- No node is in use. -/
private def noNodes : Heap where
  pNext := fun _ => none
  widget := fun _ => 0
  live := fun _ => false

/-- A list with one element. -/
private lemma built_one : Built (some 3) (noNodes.alloc 3 7 none) [7] :=
  .add (.init noNodes) addButton (.inl rfl) 7 3 (fun _ _ => rfl) ((Prog.ends_pure _).mpr rfl)

/-- It does not agree with what the operations find. -/
theorem not_agrees_one : ∃ p, some 3 = some p ∧ ¬ Agrees (noNodes.alloc 3 7 none) p [7] ∧
    Holds (noNodes.alloc 3 7 none) p [] :=
  not_agrees built_one (by decide)

/-- **One added element** is not counted, the list is said to be empty, and nothing can be
deleted. -/
theorem one_added_not_agrees : ∃ p h, Built (some p) h [7] ∧ (lengthList h p).Ends (· = .ok 0) ∧
    isEmpty h p = 1 ∧ (deleteList h p 1).Ends (· = .ok (-1, h)) ∧ ¬ Agrees h p [7] := by
  have hnext : (noNodes.alloc 3 7 none).pNext 3 = none := rfl
  have hempty : isEmpty (noNodes.alloc 3 7 none) 3 = 1 := by rw [isEmpty, hnext]
  refine ⟨3, _, built_one, ?_, hempty, ?_, fun hagree => ?_⟩
  · rw [lengthList, hnext, Prog.ends_loop]
    exact (Prog.ends_pure _).mpr rfl
  · rw [deleteList, Prog.ends_bind, Prog.ends_loop, deletePass, hnext]
    refine (Prog.ends_pure _).mpr ?_
    change (Prog.Ends (if (0 : Int32) > 1 - 1 then _ else _) _)
    rw [if_neg (by decide), hnext]
    exact (Prog.ends_pure _).mpr rfl
  · have hnonempty := hagree.nonempty
    rw [hempty] at hnonempty
    exact absurd hnonempty (by decide)

end JzPretest.NodeList

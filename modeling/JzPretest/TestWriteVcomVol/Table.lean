import JzPretest.TestWriteVcomVol.Vcom

set_option relaxedAutoImplicit false
set_option autoImplicit false

/-!
# The partition table

What the table says, line by line, and what `scan_partition_info_emmc` makes of it. It calls
`sscanf` on all that is left of the buffer and not on a line; where the lines are well formed that
makes no difference, also for a beginning of the table whose last line has been cut.

## Main definitions

* `JzPretest.Vcom.WellFormedTable` — tables whose lines can all be converted.
* `JzPretest.Vcom.lastBattery` — the offset of the last partition whose name begins with `battery`.
* `JzPretest.Vcom.Scanned` — the entries of `pinfo` when a battery has been found, or none.

## Main results

* `JzPretest.Vcom.sscanf_beginning` — `sscanf` on what is left of the buffer.
* `JzPretest.Vcom.ends_scan` — what the loop leaves in `pinfo`.
-/

namespace JzPretest.Vcom

/-! ## Lines -/

/-- The lines of a text, without their ends. -/
def splitLines : List UInt8 → List (List UInt8)
  | [] => []
  | c :: s =>
    if c = 10 then [] :: splitLines s
    else
      match splitLines s with
      | [] => [[c]]
      | line :: lines => (c :: line) :: lines

/-- The first line. -/
def firstLine (s : List UInt8) : List UInt8 := s.takeWhile (· ≠ 10)

/-- A byte that is no newline is in the first line. -/
lemma firstLine_cons {c : UInt8} (h : c ≠ 10) (s : List UInt8) :
    firstLine (c :: s) = c :: firstLine s :=
  List.takeWhile_cons_of_pos (by simpa using h)

/-- It is eaten with this line. -/
theorem eatLine_cons {c : UInt8} (h : c ≠ 10) (s : List UInt8) : eatLine (c :: s) = eatLine s := by
  rw [eatLine, eatLine, List.dropWhile_cons_of_pos (by simpa using h)]

/-- There is no newline in a line. -/
theorem ten_notMem_firstLine (s : List UInt8) : 10 ∉ firstLine s := by
  intro h
  have := List.all_eq_true.mp (List.all_takeWhile (l := s)) 10 h
  simp at this

/-- The first line ends at the first newline. -/
private lemma firstLine_append {line : List UInt8} (h : 10 ∉ line) (tail : List UInt8) :
    firstLine (line ++ 10 :: tail) = line := by
  induction line with
  | nil => rfl
  | cons c line ih =>
    rw [List.mem_cons, not_or] at h
    rw [List.cons_append, firstLine_cons (Ne.symm h.1), ih h.2]

/-- A text that is not empty is its first line, and the lines that are left when that is eaten. -/
theorem splitLines_eq {s : List UInt8} (h : s ≠ []) :
    splitLines s = firstLine s :: splitLines (eatLine s) := by
  induction s with
  | nil => exact absurd rfl h
  | cons c s ih =>
    rw [splitLines]
    by_cases hc : c = 10
    · subst hc
      rfl
    · rw [if_neg hc, firstLine_cons hc, eatLine_cons hc]
      by_cases hs : s = []
      · subst hs
        rfl
      · rw [ih hs]

/-- A text is its first line, and perhaps an end of line with more text. -/
theorem eq_firstLine (s : List UInt8) :
    s = firstLine s ∧ eatLine s = [] ∨ s = firstLine s ++ 10 :: eatLine s := by
  induction s with
  | nil => exact Or.inl ⟨rfl, rfl⟩
  | cons c s ih =>
    by_cases hc : c = 10
    · subst hc
      exact Or.inr rfl
    · rw [firstLine_cons hc, eatLine_cons hc, List.cons_append]
      rcases ih with ⟨heq, heat⟩ | heq
      · exact Or.inl ⟨by rw [← heq], heat⟩
      · exact Or.inr (by rw [← heq])

/-- Eating a line leaves less. -/
theorem length_eatLine_lt {s : List UInt8} (h : s ≠ []) : (eatLine s).length < s.length := by
  rcases eq_firstLine s with ⟨-, heat⟩ | heq
  · rw [heat]
    exact List.length_pos_of_ne_nil h
  · have := congrArg List.length heq
    rw [List.length_append, List.length_cons] at this
    omega

/-- The lines hold every byte but their ends.

**Proof sketch.** Induction on the text: the end of a line belongs to none, and any other character
is put before the first line of the rest. -/
private lemma exists_line_of_mem {s : List UInt8} {c : UInt8} (hc : c ∈ s) (hne : c ≠ 10) :
    ∃ line ∈ splitLines s, c ∈ line := by
  induction s with
  | nil => simp at hc
  | cons v s ih =>
    rw [splitLines_eq (List.cons_ne_nil v s)]
    by_cases hv : v = 10
    · subst hv
      rcases List.mem_cons.mp hc with rfl | hc
      · exact absurd rfl hne
      · obtain ⟨line, hline, hmem⟩ := ih hc
        exact ⟨line, List.mem_cons_of_mem _ hline, hmem⟩
    · rw [firstLine_cons hv, eatLine_cons hv]
      rcases List.mem_cons.mp hc with rfl | hc
      · exact ⟨_, List.mem_cons_self, List.mem_cons_self⟩
      · obtain ⟨line, hline, hmem⟩ := ih hc
        rw [splitLines_eq (List.ne_nil_of_mem hc)] at hline
        rcases List.mem_cons.mp hline with rfl | hline
        · exact ⟨_, List.mem_cons_self, List.mem_cons_of_mem v hmem⟩
        · exact ⟨line, List.mem_cons_of_mem _ hline, hmem⟩

/-! ## What the table says -/

/-- A line that can be converted; in particular, its name fits the array. -/
def WellFormed (line : List UInt8) : Prop := 0 ∉ line ∧ ∃ e, sscanf line = .ok (some e)

/-- A table whose lines are well formed. -/
def WellFormedTable (table : List UInt8) : Prop := ∀ line ∈ splitLines table, WellFormed line

/-- The offset of a partition whose name begins with `battery`. -/
def Entry.battery? (e : Entry) : Option UInt32 :=
  if ascii "battery" <+: e.partName then some e.partSaddr else none

/-- The offset in a line for a partition whose name begins with `battery`. -/
def batteryOf (line : List UInt8) : Option UInt32 :=
  match sscanf line with
  | .ok (some e) => e.battery?
  | _ => none

/-- **The offset that the table gives** for its last partition whose name begins with `battery`. -/
def lastBattery (table : List UInt8) : Option UInt32 :=
  ((splitLines table).filterMap batteryOf).getLast?

/-- There is no entry in no line. -/
@[simp] lemma lastBattery_nil : lastBattery [] = none := rfl

/-- The last battery is in the first line when there is none in the others. -/
private lemma lastBattery_eq {s : List UInt8} (h : s ≠ []) :
    lastBattery s = (lastBattery (eatLine s)).or (batteryOf (firstLine s)) := by
  rw [lastBattery, splitLines_eq h, List.filterMap_cons]
  cases hb : batteryOf (firstLine s) with
  | none =>
    rw [Option.or_none]
    rfl
  | some off =>
    dsimp only
    rw [List.getLast?_cons, lastBattery]
    cases ((splitLines (eatLine s)).filterMap batteryOf).getLast? <;> rfl

/-! ## `sscanf` on a line and on more -/

/-- The fields of a line are in it, if there are four. -/
private lemma lineLocal_entry : Reader.LineLocal entry := by
  have hhex : Reader.LineLocal (Reader.skipping Reader.hexInt) :=
    (Reader.lineLocal_number Reader.lineLocal_hexDigits _).skipping rfl
  have hdec : Reader.LineLocal (Reader.skipping Reader.decInt) :=
    (Reader.lineLocal_number (Reader.lineLocal_digits (by decide)) _).skipping rfl
  have hword : Reader.LineLocal (Reader.skipping (Reader.word 32)) :=
    (Reader.lineLocal_word 32).skipping rfl
  exact hword.bind fun _ => hhex.bind fun _ => hhex.bind fun _ => hdec.bind fun _ =>
    Reader.LineLocal.pure _

/-- A line that is cut off has no other result than the whole. -/
private lemma cut_entry : Reader.Cut (fun _ _ => True) entry entry :=
  (Reader.cut_word 32).skipping.bind fun _ _ _ => Reader.cut_hexInt.skipping.bind fun _ _ _ =>
    Reader.cut_hexInt.skipping.bind fun _ _ _ => Reader.cut_decInt.skipping.bind fun _ _ _ =>
      Reader.Cut.pure trivial

/-- `sscanf` has four matches if all conversions succeed. -/
lemma sscanf_eq_some {s : List UInt8} {e : Entry} :
    sscanf s = .ok (some e) ↔ ∃ rest, entry s = .ok (some (e, rest)) := by
  unfold sscanf
  rcases entry s with e | (_ | ⟨e, rest⟩)
  · simp [Except.map]
  · simp [Except.map]
  · simp [Except.map]

/-- Lines after the first make no difference. -/
theorem sscanf_append {line : List UInt8} {e : Entry} (h : sscanf line = .ok (some e))
    (tail : List UInt8) : sscanf (line ++ 10 :: tail) = .ok (some e) := by
  obtain ⟨rest, hrest⟩ := sscanf_eq_some.mp h
  exact sscanf_eq_some.mpr ⟨_, lineLocal_entry line e rest tail hrest⟩

/-- **Four fields of the first line** are those of the text, whatever is below it. -/
lemma sscanf_of_firstLine {s : List UInt8} {e : Entry} (h : sscanf (firstLine s) = .ok (some e)) :
    sscanf s = .ok (some e) := by
  rcases eq_firstLine s with ⟨heq, -⟩ | heq
  · rw [heq]
    exact h
  · rw [heq]
    exact sscanf_append h _

/-- A line that has been cut can be read. -/
private lemma exists_sscanf_of_beginning {p line : List UInt8} {e : Entry} (hp : p <+: line)
    (h : sscanf line = .ok (some e)) : ∃ r, sscanf p = .ok r := by
  obtain ⟨rest, hrest⟩ := sscanf_eq_some.mp h
  unfold sscanf
  rcases cut_entry p line e rest hp hrest with hnone | ⟨e', rest', he', -, -⟩
  · exact ⟨none, by rw [hnone]; rfl⟩
  · exact ⟨some e', by rw [he']; rfl⟩

section Beginning

variable {table buf : List UInt8}

/-- The lines below the first one are well formed. -/
lemma WellFormedTable.eatLine (h : WellFormedTable table) : WellFormedTable (eatLine table) := by
  intro line hline
  by_cases hne : table = []
  · subst hne
    exact h line hline
  · apply h
    rw [splitLines_eq hne]
    exact List.mem_cons_of_mem _ hline

/-- There is no NUL in it. -/
theorem WellFormedTable.nul_notMem (h : WellFormedTable table) : 0 ∉ table := by
  intro h0
  obtain ⟨line, hline, hmem⟩ := exists_line_of_mem h0 (by decide)
  exact (h line hline).1 hmem

/-- The first line of a beginning is a beginning of the first line. -/
private lemma firstLine_beginning (h : buf <+: table) : firstLine buf <+: firstLine table :=
  takeWhile_beginning h _

/-- The same for what is below it. -/
private lemma eatLine_beginning (h : buf <+: table) : eatLine buf <+: eatLine table := by
  obtain ⟨t, ht⟩ := dropWhile_beginning h fun v => decide (v ≠ 10)
  unfold eatLine
  rw [← ht]
  cases buf.dropWhile fun v => decide (v ≠ 10) with
  | nil => exact List.nil_prefix
  | cons c rest => exact List.prefix_append rest t

/-- **`sscanf` on what is left of the buffer** is `sscanf` on its first line, where the buffer is a
beginning of a well formed table.

**Proof sketch.** If the first line is whole, what is behind it changes nothing
(`sscanf_of_firstLine`). If the buffer ends in it, the line may have been cut, which `sscanf` does
not notice as a fault. -/
theorem sscanf_beginning (h : WellFormedTable table) (hbuf : buf <+: table) (hne : buf ≠ []) :
    ∃ r, sscanf buf = .ok r ∧ batteryOf (firstLine buf) = r.bind Entry.battery? := by
  have htable : table ≠ [] := by
    rintro rfl
    exact hne (List.prefix_nil.mp hbuf)
  obtain ⟨-, e, he⟩ : WellFormed (firstLine table) := by
    apply h
    rw [splitLines_eq htable]
    exact List.mem_cons_self
  rcases eq_firstLine buf with ⟨heq, -⟩ | heq
  · -- The buffer ends in this line, which may have been cut.
    obtain ⟨r, hr⟩ := exists_sscanf_of_beginning (firstLine_beginning hbuf) he
    rw [← heq] at hr
    refine ⟨r, hr, ?_⟩
    rw [← heq, batteryOf, hr]
    cases r <;> rfl
  · have hline : firstLine table = firstLine buf := by
      obtain ⟨t, ht⟩ := hbuf
      rw [← ht, heq, List.append_assoc, List.cons_append,
        firstLine_append (ten_notMem_firstLine buf), firstLine_append (ten_notMem_firstLine buf)]
    rw [hline] at he
    refine ⟨some e, sscanf_of_firstLine he, ?_⟩
    rw [batteryOf, he]
    rfl

end Beginning

/-! ## What is in `pinfo` -/

/-- **The entries of `pinfo`** when the last battery that has been read is at `found`: that is the
last entry, and none of the others that `write_vcom_voltage` looks at is a battery. Nothing has been
written to the block device yet. -/
structure Scanned (partsAlloc : ℤ) (found : Option UInt32) (v : State) : Prop where
  others : ∀ i, 0 ≤ i → i < 5 → i ≠ partsAlloc - 1 → (v.pinfo i).isBattery = false
  last : (v.pinfo (partsAlloc - 1)).isBattery = found.isSome
  offset : ∀ off, found = some off → (v.pinfo (partsAlloc - 1)).offset = off
  writes : v.writes = []
  opens : v.opens = 0

/-- The name of an entry that has been set. -/
private lemma isBattery_set {n : ℕ} (hn : 7 ≤ n) (p : Partition) (src : List UInt8)
    (offset : UInt32)
    (type : Int32) : (p.set src n offset type).isBattery = decide (ascii "battery" <+: src) := by
  rw [Bool.eq_iff_iff, decide_eq_true_eq]
  exact startsWith_strncpy (by decide) hn p.name src

section Scan

variable {partsAlloc : ℤ} {found : Option UInt32} {v : State}

/-- Nothing has been found in the array as it is allocated. -/
theorem scanned_allocate (h : 5 ≤ partsAlloc) (memory : ℤ → Partition) :
    Scanned partsAlloc none (allocate partsAlloc memory) := by
  have hzero : ∀ i, 0 ≤ i → i < partsAlloc →
      ((allocate partsAlloc memory).pinfo i).isBattery = false := by
    intro i h0 hi
    rw [allocate]
    dsimp only
    rw [if_pos ⟨h0, hi⟩]
    decide
  refine ⟨fun i h0 hi _ => hzero i h0 (by omega), hzero _ (by omega) (by omega), ?_, rfl, rfl⟩
  rintro off ⟨⟩

/-- Touching an entry leaves what the scanner has found. -/
theorem Scanned.touch (h : Scanned partsAlloc found v) (i : ℤ) :
    Scanned partsAlloc found (v.touch i) :=
  ⟨h.others, h.last, h.offset, h.writes, h.opens⟩

/-- Setting an entry that is not the last, to a name that is not that of a battery. -/
lemma Scanned.modify_other (h : Scanned partsAlloc found v) {i : ℤ} (hi : i ≠ partsAlloc - 1)
    {f : Partition → Partition} (hf : ∀ p, (f p).isBattery = false) :
    Scanned partsAlloc found (v.modify i f) := by
  refine ⟨fun j h0 hj hne => ?_, ?_, ?_, h.writes, h.opens⟩
  · by_cases hji : j = i
    · subst hji
      rw [modify_pinfo_self]
      exact hf _
    · rw [modify_pinfo_of_ne v hji]
      exact h.others j h0 hj hne
  · rw [modify_pinfo_of_ne v (Ne.symm hi)]
    exact h.last
  · rw [modify_pinfo_of_ne v (Ne.symm hi)]
    exact h.offset

/-- Setting the last entry to a battery. -/
lemma Scanned.modify_last (h : Scanned partsAlloc found v) {f : Partition → Partition}
    (hf : ∀ p, (f p).isBattery = true) {off : UInt32} (hoff : ∀ p, (f p).offset = off) :
    Scanned partsAlloc (some off) (v.modify (partsAlloc - 1) f) := by
  refine ⟨fun j h0 hj hne => ?_, ?_, ?_, h.writes, h.opens⟩
  · rw [modify_pinfo_of_ne v hne]
    exact h.others j h0 hj hne
  · rw [modify_pinfo_self, hf]
    rfl
  · rintro _ ⟨⟩
    rw [modify_pinfo_self, hoff]

/-- **A line with four matches** replaces the battery, if it is one.

**Proof sketch.** By the kind of the entry: a device is set in entries that are not the last, a
battery in the last, and any other in none. -/
theorem scanned_storeEntry (h5 : 5 ≤ partsAlloc) (h : Scanned partsAlloc found v) (e : Entry) :
    Scanned partsAlloc (e.battery?.or found) (storeEntry partsAlloc e v) := by
  unfold storeEntry Entry.battery?
  by_cases hdev : ascii "device_id" <+: e.partName
  · have hbat : ¬ ascii "battery" <+: e.partName := by
      intro hbat
      have hprefix := List.prefix_of_prefix_length_le hbat hdev (by decide)
      revert hprefix
      decide
    rw [if_pos hdev, if_neg hbat, Option.none_or]
    refine ((h.modify_other ?_ fun p => ?_).modify_other ?_ fun p => ?_).modify_other ?_ fun p => ?_
    · omega
    · rw [isBattery_set (by decide)]
      exact decide_eq_false hbat
    · omega
    · rw [isBattery_set (by decide)]
      decide
    · omega
    · rw [isBattery_set (by decide)]
      decide
  · rw [if_neg hdev]
    by_cases hbat : ascii "battery" <+: e.partName
    · rw [if_pos hbat, if_pos hbat, Option.some_or]
      refine h.modify_last (fun p => ?_) fun p => rfl
      rw [isBattery_set (by decide)]
      exact decide_eq_true hbat
    · rw [if_neg hbat, if_neg hbat, Option.none_or]
      exact h

/-- **What the loop leaves in `pinfo`**: the last battery of what has been read, where that is a
beginning of a well formed table and the buffer is terminated.

**Proof sketch.** A loop with the length of what is left as its variant. The invariant says that the
last battery of what is left, or else the one that has been found, is the last battery of all. -/
theorem ends_scan (h5 : 5 ≤ partsAlloc) {table buf : List UInt8} (htable : WellFormedTable table)
    (hbuf : buf <+: table) (h : Scanned partsAlloc none v) (past : List UInt8) :
    (Prog.loop (scanPass partsAlloc (0 :: past)) (buf, v)).Ends fun x =>
      ∃ v', x = .ok v' ∧ Scanned partsAlloc (lastBattery buf) v' := by
  -- What has been found is overwritten by what is left, and both together are the result.
  refine Prog.ends_loop_of_variant (I := fun s => ∃ table, WellFormedTable table ∧ s.1 <+: table ∧
    ∃ found, (lastBattery s.1).or found = lastBattery buf ∧ Scanned partsAlloc found s.2)
    (fun s => s.1.length) ?_ ⟨table, htable, hbuf, none, Option.or_none, h⟩
  rintro ⟨rest, v⟩ ⟨table, htable, hrest, found, hfound, h⟩
  cases rest with
  | nil =>
    rw [lastBattery_nil, Option.none_or] at hfound
    exact (Prog.ends_pure _).mpr ⟨v, rfl, hfound ▸ h⟩
  | cons c rest =>
    have hne : c :: rest ≠ [] := List.cons_ne_nil c rest
    obtain ⟨r, hr, hbattery⟩ := sscanf_beginning htable hrest hne
    have hnul : 0 ∉ c :: rest := fun h0 => htable.nul_notMem (hrest.mem h0)
    rw [scanPass, Prog.ends_bind, Prog.ends_liftM, cString_append hnul, Prog.andThen_ok,
      Prog.ends_bind, Prog.ends_liftM, hr, Prog.andThen_ok]
    rw [lastBattery_eq hne, hbattery, Option.or_assoc] at hfound
    have hnext := htable.eatLine
    have heat := eatLine_beginning hrest
    have hlt := length_eatLine_lt hne
    cases r with
    | none =>
      rw [Option.bind_none, Option.none_or] at hfound
      exact (Prog.ends_pure _).mpr ⟨⟨_, hnext, heat, found, hfound, h⟩, hlt⟩
    | some e =>
      exact (Prog.ends_pure _).mpr ⟨⟨_, hnext, heat, _, hfound, scanned_storeEntry h5 h e⟩, hlt⟩

/-- A full buffer without a NUL is not a string. -/
theorem ends_scan_full {buf : List UInt8} (hne : buf ≠ []) (hnul : 0 ∉ buf) :
    (Prog.loop (scanPass partsAlloc []) (buf, v)).Ends fun x => x = .error .unterminated := by
  rw [Prog.ends_loop]
  cases buf with
  | nil => exact absurd rfl hne
  | cons c buf =>
    rw [scanPass, Prog.ends_bind, Prog.ends_liftM, List.append_nil, cString, if_neg hnul,
      Prog.andThen_error, Prog.orAgain_error]

end Scan

end JzPretest.Vcom

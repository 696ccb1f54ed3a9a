import JzPretest.TestWriteVcomVol.Vcom

set_option relaxedAutoImplicit false
set_option autoImplicit false

/-!
# The indices of `pinfo`

The indices that are read and written are fixed, or relative to `parts_alloc`. They are right for an
array of at least five entries, but the code that would set `parts_alloc` is not compiled, and
`main` allocates none.

## Main definitions

* `JzPretest.Vcom.Inside` — every index so far is one of the array.

## Main results

* `JzPretest.Vcom.always_inside` — with at least five entries, every index is.
* `JzPretest.Vcom.main_inside_iff` — in `main`, only when nothing is read or written.
-/

namespace JzPretest.Vcom

/-- **Every index so far** is one of an array of `partsAlloc` entries. -/
def Inside (partsAlloc : ℤ) (v : State) : Prop := ∀ i ∈ v.touched, 0 ≤ i ∧ i < partsAlloc

section Indices

variable {partsAlloc : ℤ} {v : State}

/-- An entry that is there is touched. -/
lemma Inside.touch (h : Inside partsAlloc v) {i : ℤ} (h0 : 0 ≤ i) (hi : i < partsAlloc) :
    Inside partsAlloc (v.touch i) := by
  intro j hj
  rw [touch_touched, List.mem_append, List.mem_singleton] at hj
  rcases hj with hj | rfl
  · exact h j hj
  · exact ⟨h0, hi⟩

/-- An entry that is there is changed. -/
lemma Inside.modify (h : Inside partsAlloc v) {i : ℤ} (h0 : 0 ≤ i) (hi : i < partsAlloc)
    (f : Partition → Partition) : Inside partsAlloc (v.modify i f) :=
  h.touch h0 hi

/-- What is stored for a line is inside, if there are three entries. -/
private lemma inside_storeEntry (h3 : 3 ≤ partsAlloc) (e : Entry) (h : Inside partsAlloc v) :
    Inside partsAlloc (storeEntry partsAlloc e v) := by
  unfold storeEntry
  split_ifs
  · have h0 := h.modify (Int.le_refl 0) (by omega)
      fun p => p.set e.partName 10 e.partSaddr e.partType
    have h1 := h0.modify (i := 1) (by omega) (by omega)
      fun p => p.set (ascii "wifi_mac") 9 (e.partSaddr + wifimacOffset) e.partType
    exact h1.modify (by omega) (by omega) _
  · exact h.modify (by omega) (by omega) _
  · exact h

/-- The loop that prints the entries. -/
private lemma inside_touchAll (is : List ℕ) (his : ∀ i ∈ is, (i : ℤ) < partsAlloc)
    (h : Inside partsAlloc v) : Inside partsAlloc (is.foldl (fun v i => v.touch i) v) := by
  induction is generalizing v with
  | nil => exact h
  | cons i is ih =>
    exact ih (fun j hj => his j (List.mem_cons_of_mem i hj))
      (h.touch (Int.natCast_nonneg i) (his i List.mem_cons_self))

/-- The first step, whatever the table is.

**Proof sketch.** Nothing is used where there is no table or it cannot be read. Otherwise `Inside`
is an invariant of the loop: a pass uses the entries of `inside_storeEntry`, and the end those of
the list that is printed. -/
private lemma always_scanPartitionInfoEmmc (env : Env) (table : List UInt8) (h3 : 3 ≤ partsAlloc)
    (h : Inside partsAlloc v) :
    (scanPartitionInfoEmmc env table partsAlloc v).Always fun x =>
      ∀ ret v', x = .ok (ret, v') → Inside partsAlloc v' := by
  have hpure : ∀ ret : ℤ, (pure (ret, v) : Prog Undefined (ℤ × State)).Always fun x =>
      ∀ ret v', x = .ok (ret, v') → Inside partsAlloc v' := by
    intro ret
    rw [Prog.always_pure]
    rintro _ _ ⟨⟩
    exact h
  unfold scanPartitionInfoEmmc
  split_ifs
  · exact hpure _
  · exact hpure _
  · split
    · exact hpure _
    · rw [Prog.always_bind]
      refine Prog.always_loop (I := fun s => Inside partsAlloc s.2) ?_ h
      rintro ⟨buf, v⟩ hv
      cases buf with
      | nil =>
        rw [scanPass, Prog.always_pure]
        change (pure _ : Prog Undefined (ℤ × State)).Always _
        rw [Prog.always_pure]
        rintro _ _ ⟨⟩
        refine inside_touchAll _ (fun i hi => ?_) hv
        rw [List.mem_range] at hi
        omega
      | cons c buf =>
        rw [scanPass, Prog.always_bind, Prog.always_liftM]
        cases cString (c :: buf ++ _) with
        | error e =>
          rintro _ _ ⟨⟩
        | ok s =>
          rw [Prog.andThen_ok, Prog.always_bind, Prog.always_liftM]
          cases sscanf s with
          | error e => rintro _ _ ⟨⟩
          | ok r =>
            rw [Prog.andThen_ok]
            cases r with
            | none => exact (Prog.always_pure _).mpr hv
            | some e => exact (Prog.always_pure _).mpr (inside_storeEntry h3 e hv)

/-- Writing the data touches no entry. -/
lemma writeDataEmmc_touched (env : Env) (pinfo : Option Partition) (buf : List UInt8) (size : ℕ)
    (v : State) : (writeDataEmmc env pinfo buf size v).2.touched = v.touched := by
  cases pinfo with
  | none => rfl
  | some p =>
    rcases writeDataEmmc_cases env p buf size v with ⟨-, h⟩ | ⟨-, -, h⟩ | ⟨n, -, -, h⟩ <;> rw [h]

/-- Writing to some partitions stays inside, if their numbers do.

**Proof sketch.** Induction on the numbers. Each of them is read before anything is written, and the
first failure is the end. -/
private lemma inside_writeVcomFrom (env : Env) (buf : List UInt8) (is : List ℤ)
    (his : ∀ i ∈ is, 0 ≤ i ∧ i < partsAlloc) (h : Inside partsAlloc v) :
    Inside partsAlloc (writeVcomFrom env buf is v).2 := by
  induction is generalizing v with
  | nil => exact h
  | cons i is ih =>
    obtain ⟨h0, hi⟩ := his i List.mem_cons_self
    have his' : ∀ j ∈ is, 0 ≤ j ∧ j < partsAlloc := fun j hj => his j (List.mem_cons_of_mem i hj)
    rw [writeVcomFrom]
    split_ifs
    · have hwrite : Inside partsAlloc
          (writeDataEmmc env (some (v.pinfo i)) buf 4 (v.touch i)).2 := by
        unfold Inside
        rw [writeDataEmmc_touched]
        exact h.touch h0 hi
      dsimp only
      split_ifs
      · exact hwrite
      · exact ih his' hwrite
    · exact ih his' (h.touch h0 hi)

/-- **With at least five entries, every index is one of the array**, for every table.

**Proof sketch.** The scan leaves all indices inside (`always_scanPartitionInfoEmmc`), and the five
that are written are below five. -/
theorem always_inside (env : Env) (table buf : List UInt8) (h5 : 5 ≤ partsAlloc)
    (memory : ℤ → Partition) :
    (scanAndWrite env table partsAlloc buf (allocate partsAlloc memory)).Always fun x =>
      ∀ ret v, x = .ok (ret, v) → Inside partsAlloc v := by
  have hstart : Inside partsAlloc (allocate partsAlloc memory) := by
    intro i hi
    simp [allocate] at hi
  have hscan := always_scanPartitionInfoEmmc env table (by omega) hstart
  rw [scanAndWrite, Prog.always_bind]
  refine hscan.imp ?_
  rintro (e | ⟨ret, v⟩) hx
  · rintro _ _ ⟨⟩
  · have hv := hx ret v rfl
    rw [Prog.andThen_ok]
    dsimp only
    split_ifs
    · rw [Prog.always_pure]
      rintro _ _ ⟨⟩
      exact hv
    · rw [Prog.always_pure]
      rintro _ _ heq
      have := inside_writeVcomFrom env buf [0, 1, 2, 3, 4] (fun i hi => ?_) hv
      · rw [← writeVcomVoltage, Except.ok.inj heq] at this
        exact this
      · simp only [List.mem_cons, List.not_mem_nil, or_false] at hi
        omega

end Indices

/-! ## The indices in `main` -/

/-- The first step has no negative result when there is a line buffer.

**Proof sketch.** By the way in which the first step ends: an `errno` is not negative, and every
other result is zero. -/
private lemma always_scanPartitionInfoEmmc_nonneg (env : Env) (table : List UInt8) (partsAlloc : ℤ)
    (v : State) (h : env.lineBuffer = true) :
    (scanPartitionInfoEmmc env table partsAlloc v).Always fun x =>
      ∀ ret v', x = .ok (ret, v') → 0 ≤ ret := by
  have hpure : ∀ (ret : ℤ) (v : State), 0 ≤ ret →
      (pure (ret, v) : Prog Undefined (ℤ × State)).Always fun x =>
        ∀ ret v', x = .ok (ret, v') → 0 ≤ ret := by
    intro ret v hret
    rw [Prog.always_pure]
    rintro _ _ ⟨⟩
    exact hret
  rw [scanPartitionInfoEmmc, if_neg (by simp [h])]
  split_ifs
  · exact hpure _ _ (Int.le_refl 0)
  · split
    · exact hpure _ _ (Int.natCast_nonneg _)
    · rw [Prog.always_bind]
      rintro n (e | v') -
      · rintro _ _ ⟨⟩
      · exact hpure _ _ (Int.le_refl 0)

/-- Indices that have been used stay recorded.

**Proof sketch.** Induction on the indices: each is recorded behind those before it, and writing
records none. -/
private lemma touched_writeVcomFrom (env : Env) (buf : List UInt8) (is : List ℤ) (v : State) :
    v.touched ⊆ (writeVcomFrom env buf is v).2.touched := by
  induction is generalizing v with
  | nil => exact List.Subset.refl _
  | cons i is ih =>
    have htouch : v.touched ⊆ (v.touch i).touched := List.subset_append_left _ _
    have hwrite : v.touched ⊆
        (writeDataEmmc env (some (v.pinfo i)) buf 4 (v.touch i)).2.touched := by
      rw [writeDataEmmc_touched]
      exact htouch
    rw [writeVcomFrom]
    split_ifs
    · dsimp only
      split_ifs
      · exact hwrite
      · exact List.Subset.trans hwrite (ih _)
    · exact List.Subset.trans htouch (ih _)

/-- `write_vcom_voltage` reads the first entry. -/
private lemma zero_mem_touched_writeVcomVoltage (env : Env) (buf : List UInt8) (v : State) :
    0 ∈ (writeVcomVoltage env buf v).2.touched := by
  have htouch : 0 ∈ (v.touch 0).touched := List.mem_append_right _ (List.mem_singleton_self 0)
  rw [writeVcomVoltage, writeVcomFrom]
  split_ifs
  · dsimp only
    split_ifs
    · rw [writeDataEmmc_touched]
      exact htouch
    · apply touched_writeVcomFrom
      rw [writeDataEmmc_touched]
      exact htouch
  · exact touched_writeVcomFrom _ _ _ _ htouch

/-- **In `main` every index is one of the array** only when the line buffer cannot be allocated, and
then no entry is read or written.

**Proof sketch.** With a line buffer the first step has no negative result, so `write_vcom_voltage`
reads the entry 0, which is none of an empty array. Without one nothing is used. -/
theorem main_inside_iff (env : Env) (table : List UInt8) (arg : Argument) (memory : ℤ → Partition) :
    ((main env table arg memory).Ends fun x => ∃ ret v, x = .ok (ret, v) ∧ Inside partsAlloc v) ↔
      env.lineBuffer = false := by
  rw [main]
  cases hbuffer : env.lineBuffer with
  | false =>
    rw [scanAndWrite_of_no_buffer hbuffer, Prog.ends_pure]
    refine iff_of_true ⟨_, _, rfl, ?_⟩ rfl
    intro i hi
    simp [allocate] at hi
  | true =>
    rw [scanAndWrite, Prog.ends_bind]
    refine iff_of_false ?_ (by decide)
    rw [Prog.not_ends_iff]
    refine (always_scanPartitionInfoEmmc_nonneg env table partsAlloc _ hbuffer).imp ?_
    rintro (e | ⟨ret, v⟩) hx
    · rintro ⟨_, _, ⟨⟩, -⟩
    · rw [Prog.andThen_ok]
      dsimp only
      rw [if_neg (Int.not_lt.mpr (hx ret v rfl)), Prog.ends_pure]
      rintro ⟨_, _, heq, hinside⟩
      have hzero := zero_mem_touched_writeVcomVoltage env arg.buf v
      rw [Except.ok.inj heq] at hzero
      have := hinside 0 hzero
      exact absurd this.2 (by decide)

/-- With one line for a battery, the entries `-1` and `0` to `4` of an array without entries are
used. -/
theorem battery_outside :
    ¬ (main ⟨true, true, some 512, 5, by decide, fun _ => true, fun _ => true, fun _ => some 4⟩
        (ascii "battery 10 4 1\n") ⟨ascii "1234", by decide⟩ fun _ => Partition.zero).Ends
      fun x => ∃ ret v, x = .ok (ret, v) ∧ Inside partsAlloc v := by
  rintro ⟨n, _, hx, ret, v, rfl, hinside⟩
  have hrun : ((main ⟨true, true, some 512, 5, by decide, fun _ => true, fun _ => true,
      fun _ => some 4⟩ (ascii "battery 10 4 1\n") ⟨ascii "1234", by decide⟩
      fun _ => Partition.zero).run 3).map (fun x => x.map fun p => p.2.touched) =
      some (.ok [-1, 0, 1, 2, 3, 4]) := rfl
  have htouched : v.touched = [-1, 0, 1, 2, 3, 4] :=
    Except.ok.inj (Prog.eq_of_run_map _ hrun hx)
  have := hinside (-1) (by rw [htouched]; exact List.mem_cons_self)
  exact absurd this.1 (by decide)

end JzPretest.Vcom

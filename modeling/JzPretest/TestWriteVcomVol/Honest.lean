import JzPretest.TestWriteVcomVol.Table

set_option relaxedAutoImplicit false
set_option autoImplicit false

/-!
# When the result of the VCOM tool can be trusted

A result that is not negative should mean that the voltage has been written to the battery
partition. It does not mean that: `write_data_emmc` returns 0 when the device cannot be opened, the
result of `lseek` is ignored, a short write is not an error, and neither is a table without a
battery, or one that has not been read to its end.

## Main definitions

* `JzPretest.Vcom.Honest` — results that can be trusted.

## Main results

* `JzPretest.Vcom.writeVcomVoltage_eq` — the one write of `write_vcom_voltage`.
* `JzPretest.Vcom.honest_iff` — exactly when the result can be trusted.
-/

namespace JzPretest.Vcom

/-- **A result that can be trusted**: it is negative, or the argument has been written at the offset
that the table gives for its last battery; and no other byte has been written. -/
structure Honest (table arg : List UInt8) (ret : ℤ) (v : State) : Prop where
  success : 0 ≤ ret → ∃ off, lastBattery table = some off ∧ (off.toNat, arg) ∈ v.writes
  only : ∀ w ∈ v.writes, ∀ i, w.1 ≤ i → i < w.1 + w.2.length →
    ∃ off, lastBattery table = some off ∧ off.toNat ≤ i ∧ i < off.toNat + 4

/-- The two steps of `main`, for any number of entries and any argument of four bytes, end with a
result that can be trusted. -/
def EndsHonest (env : Env) (table : List UInt8) (partsAlloc : ℤ) (arg : List UInt8)
    (memory : ℤ → Partition) : Prop :=
  (scanAndWrite env table partsAlloc (arg ++ List.replicate (largeBufLen - 4) 0)
    (allocate partsAlloc memory)).Ends fun x => ∃ ret v, x = .ok (ret, v) ∧ Honest table arg ret v

/-- What is read of the table: nothing when it cannot be opened or read, and at most a buffer. -/
def bytesRead (env : Env) (table : List UInt8) : List UInt8 :=
  if env.openTable = true then
    match env.readTable with
    | none => []
    | some n => table.take (min n largeBufLen)
  else []

/-! ## The result of the first step -/

/-- Touching entries leaves what the scanner has found. -/
lemma scanned_touchAll {partsAlloc : ℤ} {found : Option UInt32} (is : List ℤ) {v : State}
    (h : Scanned partsAlloc found v) : Scanned partsAlloc found (is.foldl State.touch v) := by
  induction is generalizing v with
  | nil => exact h
  | cons i is ih => exact ih (h.touch i)

section Run

variable {env : Env} {table arg : List UInt8} {partsAlloc : ℤ} {v : State}

/-- **The first step**, where there is a line buffer: the last battery of what has been read is in
`pinfo`, unless the buffer is full.

**Proof sketch.** If the table is not opened or read, nothing has been read. Otherwise there is a
zero behind what has been read, so `ends_scan` applies; printing the entries changes none of
them. -/
theorem ends_scanPartitionInfoEmmc (h5 : 5 ≤ partsAlloc) (htable : WellFormedTable table)
    (hbuffer : env.lineBuffer = true) (hlen : (bytesRead env table).length < largeBufLen)
    (h : Scanned partsAlloc none v) :
    (scanPartitionInfoEmmc env table partsAlloc v).Ends fun x =>
      ∃ ret v', x = .ok (ret, v') ∧ 0 ≤ ret ∧
        Scanned partsAlloc (lastBattery (bytesRead env table)) v' := by
  rw [scanPartitionInfoEmmc, if_neg (by simp [hbuffer])]
  cases hopen : env.openTable with
  | false =>
    rw [if_pos rfl, Prog.ends_pure, bytesRead, if_neg (by simp [hopen])]
    exact ⟨0, v, rfl, Int.le_refl 0, h⟩
  | true =>
    rw [bytesRead, if_pos hopen] at hlen ⊢
    rw [if_neg (by decide)]
    cases hread : env.readTable with
    | none =>
      exact (Prog.ends_pure _).mpr ⟨env.errno, v, rfl, Int.natCast_nonneg _, h⟩
    | some n =>
      rw [hread] at hlen
      dsimp only at hlen ⊢
      obtain ⟨k, hk⟩ : ∃ k, largeBufLen - (table.take (min n largeBufLen)).length = k + 1 :=
        ⟨_, (Nat.succ_pred (by omega)).symm⟩
      rw [Prog.ends_bind, hk, List.replicate_succ]
      apply (ends_scan h5 htable (List.take_prefix _ table) h _).imp
      rintro _ ⟨v', rfl, hv'⟩
      refine (Prog.ends_pure _).mpr ⟨0, _, rfl, Int.le_refl 0, ?_⟩
      have := scanned_touchAll ((List.range partsAlloc.toNat).map fun i => (i : ℤ)) hv'
      rwa [List.foldl_map] at this

/-- The behaviour of the first step is undefined when the buffer is full.

**Proof sketch.** What has been read fills the buffer and has no zero in it, so `sscanf` on it has
no end (`ends_scan_full`). -/
private lemma ends_scanPartitionInfoEmmc_full (htable : WellFormedTable table)
    (hbuffer : env.lineBuffer = true) (hlen : ¬ (bytesRead env table).length < largeBufLen) :
    (scanPartitionInfoEmmc env table partsAlloc v).Ends fun x => x = .error .unterminated := by
  have hne : bytesRead env table ≠ [] := by
    intro hnil
    rw [hnil] at hlen
    exact hlen (by decide)
  unfold bytesRead at hlen hne
  split at hne
  · rename_i hopen
    rw [if_pos hopen] at hlen
    split at hne
    · exact absurd rfl hne
    · rename_i n hread
      rw [hread] at hlen
      dsimp only at hlen
      have hfull : largeBufLen - (table.take (min n largeBufLen)).length = 0 := by omega
      have hnul : 0 ∉ table.take (min n largeBufLen) := fun h0 =>
        htable.nul_notMem (List.mem_of_mem_take h0)
      rw [scanPartitionInfoEmmc, if_neg (by simp [hbuffer]), if_neg (by simp [hopen]), hread]
      dsimp only
      rw [Prog.ends_bind, hfull, List.replicate_zero]
      apply (ends_scan_full hne hnul).imp
      rintro _ rfl
      rfl
  · exact absurd rfl hne

/-! ## The result of the second step -/

/-- Entries that are not batteries are passed over. -/
lemma writeVcomFrom_append (env : Env) (buf : List UInt8) (is js : List ℤ) (v : State)
    (h : ∀ i ∈ is, (v.pinfo i).isBattery = false) :
    writeVcomFrom env buf (is ++ js) v = writeVcomFrom env buf js (is.foldl State.touch v) := by
  induction is generalizing v with
  | nil => rfl
  | cons i is ih =>
    rw [List.cons_append, writeVcomFrom, h i List.mem_cons_self, if_neg (by decide)]
    exact ih (v.touch i) fun j hj => h j (List.mem_cons_of_mem i hj)

/-- Nothing is written when none of the five entries is a battery.

**Proof sketch.** The last entry is not among the five, or is no battery; the others are none in any
case. So all five are skipped. -/
private lemma writeVcomVoltage_none {found : Option UInt32} (buf : List UInt8)
    (h : Scanned partsAlloc found v) (hnone : partsAlloc ≠ 5 ∨ found = none) (h5 : 5 ≤ partsAlloc) :
    ∃ v', writeVcomVoltage env buf v = (0, v') ∧ v'.writes = [] := by
  have hall : ∀ i ∈ ([0, 1, 2, 3, 4] : List ℤ), (v.pinfo i).isBattery = false := by
    intro i hi
    have hrange : 0 ≤ i ∧ i < 5 := by
      simp only [List.mem_cons, List.not_mem_nil, or_false] at hi
      omega
    by_cases hlast : i = partsAlloc - 1
    · rcases hnone with hne | rfl
      · omega
      · rw [hlast, h.last]
        rfl
    · exact h.others i hrange.1 hrange.2 hlast
  have := writeVcomFrom_append env buf [0, 1, 2, 3, 4] [] v hall
  rw [List.append_nil] at this
  exact ⟨_, this, (scanned_touchAll [0, 1, 2, 3, 4] h).writes⟩

/-- **The one write** of `write_vcom_voltage`, when the fifth entry is the only battery among the
five: an `open` that fails is not noticed, and neither is a short write.

**Proof sketch.** The first four entries are no batteries and are skipped. The fifth is written as
in `writeDataEmmc_cases`, at its own offset. -/
theorem writeVcomVoltage_cases (env : Env) (buf : List UInt8) {off : UInt32}
    (h : Scanned 5 (some off) v) :
    ∃ ret v', writeVcomVoltage env buf v = (ret, v') ∧
      (env.openDevice 0 = false ∧ ret = 0 ∧ v'.writes = [] ∨
        env.openDevice 0 = true ∧ env.write 0 = none ∧ ret = -1 ∧ v'.writes = [] ∨
        ∃ n, env.openDevice 0 = true ∧ env.write 0 = some n ∧ ret = 0 ∧
          v'.writes = [(position env 0 off, (buf.take 4).take n)]) := by
  have hfirst : ∀ i ∈ ([0, 1, 2, 3] : List ℤ), (v.pinfo i).isBattery = false := by
    intro i hi
    simp only [List.mem_cons, List.not_mem_nil, or_false] at hi
    exact h.others i (by omega) (by omega) (by omega)
  have hw := scanned_touchAll [0, 1, 2, 3] h
  have hskip : writeVcomVoltage env buf v = _ :=
    writeVcomFrom_append env buf [0, 1, 2, 3] [4] v hfirst
  generalize ([0, 1, 2, 3] : List ℤ).foldl State.touch v = w at hw hskip
  have hbattery : (w.pinfo 4).isBattery = true := hw.last
  have hoff : (w.pinfo 4).offset = off := hw.offset off rfl
  have hopens : (w.touch 4).opens = 0 := hw.opens
  have hwrites : (w.touch 4).writes = [] := hw.writes
  rw [writeVcomFrom, if_pos hbattery] at hskip
  rcases writeDataEmmc_cases env (w.pinfo 4) buf 4 (w.touch 4) with
    ⟨hopen, heq⟩ | ⟨hopen, hwrite, heq⟩ | ⟨n, hopen, hwrite, heq⟩ <;>
    rw [heq] at hskip
  · rw [hopens] at hopen
    exact ⟨_, _, hskip, Or.inl ⟨hopen, rfl, hwrites⟩⟩
  · rw [hopens] at hopen hwrite
    exact ⟨_, _, hskip, Or.inr (Or.inl ⟨hopen, hwrite, rfl, hwrites⟩)⟩
  · dsimp only at hskip
    rw [if_neg (by omega), writeVcomFrom] at hskip
    rw [hopens] at hopen hwrite
    refine ⟨_, _, hskip, Or.inr (Or.inr ⟨n, hopen, hwrite, rfl, ?_⟩)⟩
    dsimp only
    rw [hwrites, hopens, hoff, List.nil_append]

/-! ## Exactly when the result can be trusted -/

/-- Without a write, only a negative result can be trusted. -/
lemma honest_of_writes_nil {ret : ℤ} (h : v.writes = []) : Honest table arg ret v ↔ ret < 0 := by
  constructor
  · intro hhonest
    by_contra hret
    obtain ⟨off, -, hmem⟩ := hhonest.success (by omega)
    simp [h] at hmem
  · intro hret
    refine ⟨fun h0 => by omega, ?_⟩
    simp [h]

/-- One write of the argument, or of a beginning of it, that is not reported as a failure.

**Proof sketch.** The bytes of the write are the argument only if all four are there, and the
position has to be the offset of the last battery; both together make every written byte an intended
one. -/
private lemma honest_of_writes_singleton {pos n : ℕ} (harg : arg.length = 4)
    (h : v.writes = [(pos, arg.take n)]) :
    Honest table arg 0 v ↔ 4 ≤ n ∧ ∃ off, lastBattery table = some off ∧ pos = off.toNat := by
  constructor
  · rintro ⟨hsuccess, -⟩
    obtain ⟨off, hoff, hmem⟩ := hsuccess (Int.le_refl 0)
    rw [h, List.mem_singleton, Prod.mk.injEq] at hmem
    refine ⟨?_, off, hoff, hmem.1.symm⟩
    have := congrArg List.length hmem.2
    rw [List.length_take] at this
    omega
  · rintro ⟨hn, off, hoff, rfl⟩
    rw [List.take_of_length_le (by omega)] at h
    refine ⟨fun _ => ⟨off, hoff, by rw [h]; exact List.mem_singleton_self _⟩, ?_⟩
    intro w hw i h1 h2
    rw [h, List.mem_singleton] at hw
    subst hw
    rw [harg] at h2
    exact ⟨off, hoff, h1, h2⟩

/-- What has to hold for the second step to be honest when the last battery in `pinfo` is
`found`. -/
def WriteHonest (env : Env) (table : List UInt8) (found : Option UInt32) : Prop :=
  ∃ off, found = some off ∧ env.openDevice 0 = true ∧
    (env.write 0 = none ∨
      ∃ n, env.write 0 = some n ∧ 4 ≤ n ∧
        ∃ off', lastBattery table = some off' ∧ position env 0 off = off'.toNat)

/-- **The second step**: it is honest when it writes, and at the right offset, or notices that it
does not.

**Proof sketch.** Where none of the five is a battery, nothing is written although the result is 0.
Otherwise there is one write, or a failure (`writeVcomVoltage_cases`), and each is honest as
`honest_of_writes_nil` and `honest_of_writes_singleton` say. -/
theorem honest_writeVcomVoltage (env : Env) (table : List UInt8) (h5 : 5 ≤ partsAlloc)
    (harg : arg.length = 4) (rest : List UInt8) {found : Option UInt32}
    (h : Scanned partsAlloc found v) :
    Honest table arg (writeVcomVoltage env (arg ++ rest) v).1
        (writeVcomVoltage env (arg ++ rest) v).2 ↔
      partsAlloc = 5 ∧ WriteHonest env table found := by
  by_cases hnone : partsAlloc ≠ 5 ∨ found = none
  · obtain ⟨v', heq, hw⟩ := writeVcomVoltage_none (arg ++ rest) h hnone h5
    rw [heq, honest_of_writes_nil hw]
    constructor
    · intro hlt
      exact absurd hlt (Int.lt_irrefl 0)
    · rintro ⟨hparts, off, hfound, -⟩
      rcases hnone with hne | hfound'
      · exact absurd hparts hne
      · rw [hfound'] at hfound
        cases hfound
  · rw [not_or, not_not] at hnone
    obtain ⟨rfl, hfound⟩ := hnone
    obtain ⟨off, rfl⟩ := Option.ne_none_iff_exists'.mp hfound
    have htake : (arg ++ rest).take 4 = arg := List.take_left' harg
    obtain ⟨ret, v', heq, hcases⟩ := writeVcomVoltage_cases env (arg ++ rest) h
    rw [htake] at hcases
    rw [heq]
    dsimp only
    unfold WriteHonest
    rcases hcases with ⟨hopen, rfl, hw⟩ | ⟨hopen, hwrite, rfl, hw⟩ | ⟨n, hopen, hwrite, rfl, hw⟩
    · rw [honest_of_writes_nil hw]
      simp [hopen]
    · rw [honest_of_writes_nil hw]
      simp [hopen, hwrite]
    · rw [honest_of_writes_singleton harg hw]
      simp [hopen, hwrite]

/-- **Exactly when the result can be trusted**: the line buffer cannot be allocated, or `pinfo` has
five entries, less than a full buffer is read of the table, what is read names a battery, the block
device is opened, and the write fails or is complete and at the offset of the last battery of the
table.

**Proof sketch.** Without a line buffer the result is negative and nothing is written. Otherwise a
full buffer makes the run undefined, and without one the second step starts from the last battery
that has been read (`honest_writeVcomVoltage`). -/
theorem honest_iff (env : Env) (h5 : 5 ≤ partsAlloc) (harg : arg.length = 4)
    (htable : WellFormedTable table) (memory : ℤ → Partition) :
    EndsHonest env table partsAlloc arg memory ↔
      env.lineBuffer = false ∨
        partsAlloc = 5 ∧ (bytesRead env table).length < largeBufLen ∧
          WriteHonest env table (lastBattery (bytesRead env table)) := by
  have hv := scanned_allocate h5 memory
  unfold EndsHonest
  cases hbuffer : env.lineBuffer with
  | false =>
    rw [scanAndWrite_of_no_buffer hbuffer, Prog.ends_pure]
    refine iff_of_true ⟨_, _, rfl, ?_⟩ (Or.inl rfl)
    exact (honest_of_writes_nil rfl).mpr (by decide)
  | true =>
    rw [scanAndWrite, Prog.ends_bind, or_iff_right (by decide)]
    by_cases hlen : (bytesRead env table).length < largeBufLen
    · refine (ends_scanPartitionInfoEmmc h5 htable hbuffer hlen hv).iff ?_
      rintro _ ⟨ret, v, rfl, hret, hv⟩
      rw [Prog.andThen_ok]
      dsimp only
      rw [if_neg (Int.not_lt.mpr hret), Prog.ends_pure]
      have hwrite := honest_writeVcomVoltage env table h5 harg
        (List.replicate (largeBufLen - 4) 0) hv
      constructor
      · rintro ⟨ret', v', heq, hhonest⟩
        rw [Except.ok.inj heq] at hwrite
        obtain ⟨hparts, hw⟩ := hwrite.mp hhonest
        exact ⟨hparts, hlen, hw⟩
      · rintro ⟨hparts, -, hw⟩
        exact ⟨_, _, rfl, hwrite.mpr ⟨hparts, hw⟩⟩
    · refine (ends_scanPartitionInfoEmmc_full htable hbuffer hlen).iff ?_
      rintro _ rfl
      rw [Prog.andThen_error]
      constructor
      · rintro ⟨_, _, ⟨⟩, -⟩
      · rintro ⟨-, hlt, -⟩
        exact absurd hlt hlen

end Run

/-- A table with one line, for a battery. -/
lemma wellFormedTable_battery : WellFormedTable (ascii "battery 10 4 1\n") := by
  intro line hline
  have hlines : splitLines (ascii "battery 10 4 1\n") = [ascii "battery 10 4 1"] := rfl
  rw [hlines, List.mem_singleton] at hline
  subst hline
  exact ⟨by decide, ⟨ascii "battery", 16, 4, 1⟩, rfl⟩

/-- A run with every call successful. -/
theorem ends_honest_all : EndsHonest ⟨true, true, some 512, 5, by decide, fun _ => true,
    fun _ => true, fun _ => some 4⟩ (ascii "battery 10 4 1\n") 5 (ascii "1234")
    fun _ => Partition.zero :=
  (honest_iff _ (by decide) rfl wellFormedTable_battery _).mpr
    (Or.inr ⟨rfl, by decide, 16, rfl, rfl, Or.inr ⟨4, rfl, by decide, 16, rfl, rfl⟩⟩)

/-- When the block device cannot be opened, nothing is written, and the result is 0. -/
theorem not_ends_honest_open : WellFormedTable (ascii "battery 10 4 1\n") ∧
    ¬ EndsHonest ⟨true, true, some 512, 5, by decide, fun _ => false, fun _ => true,
      fun _ => some 4⟩ (ascii "battery 10 4 1\n") 5 (ascii "1234") fun _ => Partition.zero := by
  refine ⟨wellFormedTable_battery, ?_⟩
  rintro ⟨n, _, hx, ret, v, rfl, hhonest⟩
  have hrun : ((scanAndWrite ⟨true, true, some 512, 5, by decide, fun _ => false, fun _ => true,
      fun _ => some 4⟩ (ascii "battery 10 4 1\n") 5
      (ascii "1234" ++ List.replicate (largeBufLen - 4) 0)
      (allocate 5 fun _ => Partition.zero)).run 3).map
      (fun x => x.map fun p => (p.1, p.2.writes)) = some (.ok (0, [])) := rfl
  obtain ⟨rfl, hwrites⟩ : ret = 0 ∧ v.writes = [] :=
    Prod.mk.inj (Except.ok.inj (Prog.eq_of_run_map _ hrun hx))
  exact absurd ((honest_of_writes_nil hwrites).mp hhonest) (by decide)

end JzPretest.Vcom

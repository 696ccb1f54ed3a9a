import JzPretest.Semantics.Transition
import JzPretest.TestWriteVcomVol.Scan

set_option relaxedAutoImplicit false
set_option autoImplicit false

/-!
# Reading the table line by line

Each call of `sscanf` takes what a line lacks from the lines below it. A line without four fields of
its own can so set an entry; whether that still shows in the end depends on which lines set the
entries last.

## Main definitions

* `JzPretest.Vcom.OneByOne` — the scanner leaves the same in `pinfo` as when the lines are read one
  by one, and no line without four fields of its own sets an entry.
* `JzPretest.Vcom.Unaided` — no line gets an entry with the help of the lines below it.
* `JzPretest.Vcom.Settled` — no line that takes fields from the lines below it has the last word.

## Main results

* `JzPretest.Vcom.foldl_stepText` — what is left in `pinfo` is decided by the last entry of each
  kind.
* `JzPretest.Vcom.samePinfo_iff` — when exactly that is what reading the lines one by one leaves.
* `JzPretest.Vcom.oneByOne_iff` — when exactly the table is read line by line.
-/

namespace JzPretest.Vcom

/-! ## The entries that count -/

/-- Which entries of `pinfo` a name sets. -/
inductive Kind where
  | deviceId
  | battery
  deriving DecidableEq, Repr

/-- How much of the name is copied: `sizeof("device_id")` and `sizeof("battery")`. -/
def Kind.copied : Kind → ℕ
  | .deviceId => 10
  | .battery => 8

/-- The kind of an entry: that of the first `if` of the loop, that of the second, or none. -/
def Entry.kind? (e : Entry) : Option Kind :=
  if ascii "device_id" <+: e.partName then some .deviceId
  else if ascii "battery" <+: e.partName then some .battery
  else none

/-- The entry of a kind that is converted from a text. -/
def entryOf (k : Kind) (s : List UInt8) : Option Entry :=
  match sscanf s with
  | .ok (some e) => if e.kind? = some k then some e else none
  | _ => none

/-- The last entry of a kind that is converted from one of these texts. -/
def lastEntry (k : Kind) (texts : List (List UInt8)) : Option Entry :=
  Transition.lastWrite (entryOf k) texts

/-- The entries leave the same in `pinfo`. -/
def Same (k : Kind) (e e' : Entry) : Prop :=
  (∀ j < k.copied, e.partName.getD j 0 = e'.partName.getD j 0) ∧
    e.partSaddr = e'.partSaddr ∧ e.partType = e'.partType

/-- No call of `sscanf` on these texts is undefined. -/
def Defined (texts : List (List UInt8)) : Prop := ∀ s ∈ texts, ∃ r, sscanf s = .ok r

/-- There is an entry of a kind where `sscanf` finds four fields of which the first says so.

**Proof sketch.** By what `sscanf` returns, and by the kind of the entry if there is one. -/
lemma entryOf_eq_some {k : Kind} {s : List UInt8} {e : Entry} :
    entryOf k s = some e ↔ sscanf s = .ok (some e) ∧ e.kind? = some k := by
  unfold entryOf
  rcases sscanf s with u | (_ | e')
  · simp
  · simp
  · dsimp only
    split_ifs with hk
    · rw [Option.some.injEq, Except.ok.injEq, Option.some.injEq]
      constructor
      · rintro rfl
        exact ⟨rfl, hk⟩
      · exact fun h => h.1
    · refine iff_of_false not_false ?_
      rintro ⟨heq, hk'⟩
      obtain rfl := Option.some.inj (Except.ok.inj heq)
      exact hk hk'

section Entries

variable {partsAlloc : ℤ}

/-- What an entry of a kind leaves in `pinfo`. -/
def placeKind (partsAlloc : ℤ) (k : Kind) (e : Entry) (p : ℤ → Partition) : ℤ → Partition :=
  match k with
  | .deviceId => fun i =>
    if i = 2 then (p 2).set (ascii "bt_mac") 7 (e.partSaddr + btmacOffset) e.partType
    else if i = 1 then (p 1).set (ascii "wifi_mac") 9 (e.partSaddr + wifimacOffset) e.partType
    else if i = 0 then (p 0).set e.partName 10 e.partSaddr e.partType
    else p i
  | .battery => fun i =>
    if i = partsAlloc - 1 then
      (p (partsAlloc - 1)).set e.partName 8 e.partSaddr e.partType
    else p i

/-- What two entries leave in `pinfo`, if they are there. -/
def place (partsAlloc : ℤ) (dev bat : Option Entry) (p : ℤ → Partition) : ℤ → Partition :=
  bat.elim (dev.elim p fun e => placeKind partsAlloc .deviceId e p) fun e =>
    placeKind partsAlloc .battery e (dev.elim p fun e => placeKind partsAlloc .deviceId e p)

/-- What is stored depends on the kind of the entry. -/
private lemma stored_eq (e : Entry) (p : ℤ → Partition) :
    stored partsAlloc e p = e.kind?.elim p fun k => placeKind partsAlloc k e p := by
  unfold stored storeEntry Entry.kind?
  split_ifs with hdev hbat
  · funext i
    simp [State.modify, State.touch, placeKind]
  · funext i
    simp [State.modify, State.touch, placeKind]
  · rfl

/-- An entry that is set again, with as much of a name. -/
private lemma set_set (p : Partition) (src src' : List UInt8) (n : ℕ) (offset offset' : UInt32)
    (type type' : Int32) :
    (p.set src n offset type).set src' n offset' type' = p.set src' n offset' type' := by
  have hname : strncpy (strncpy p.name src n) src' n = strncpy p.name src' n := by
    funext j
    unfold strncpy
    split_ifs <;> rfl
  unfold Partition.set
  rw [hname]

/-- **A later entry of the same kind** covers an earlier one. -/
theorem placeKind_placeKind (k : Kind) (e e' : Entry) (p : ℤ → Partition) :
    placeKind partsAlloc k e' (placeKind partsAlloc k e p) = placeKind partsAlloc k e' p := by
  funext i
  cases k with
  | deviceId =>
    unfold placeKind
    dsimp only
    split_ifs <;> first | rfl | exact set_set _ _ _ _ _ _ _ _ | omega
  | battery =>
    unfold placeKind
    dsimp only
    split_ifs <;> first | rfl | exact set_set _ _ _ _ _ _ _ _

/-- **Entries of different kinds** are different entries. -/
theorem placeKind_comm (h4 : 4 ≤ partsAlloc) (e e' : Entry) (p : ℤ → Partition) :
    placeKind partsAlloc .deviceId e (placeKind partsAlloc .battery e' p) =
      placeKind partsAlloc .battery e' (placeKind partsAlloc .deviceId e p) := by
  funext i
  unfold placeKind
  dsimp only
  split_ifs <;> first | rfl | omega

/-- What the call of `sscanf` on a text does to `pinfo` when it is defined. -/
def stepText (partsAlloc : ℤ) (p : ℤ → Partition) (s : List UInt8) : ℤ → Partition :=
  match sscanf s with
  | .ok (some e) => stored partsAlloc e p
  | _ => p

/-- **One more text**: its entry is the last one of its kind.

**Proof sketch.** By what `sscanf` gives, and by the kind of the entry. Entries of different kinds
are set in different places, and a later one of the same kind covers the earlier. -/
theorem stepText_place (h4 : 4 ≤ partsAlloc) (s : List UInt8) (dev bat : Option Entry)
    (p : ℤ → Partition) :
    stepText partsAlloc (place partsAlloc dev bat p) s =
      place partsAlloc ((entryOf .deviceId s).or dev) ((entryOf .battery s).or bat) p := by
  unfold stepText entryOf
  rcases sscanf s with u | (_ | e)
  · rfl
  · rfl
  · dsimp only
    rw [stored_eq]
    rcases hk : e.kind? with _ | (_ | _)
    · rfl
    · rw [if_pos rfl, if_neg (by decide), Option.some_or, Option.none_or]
      unfold place
      cases dev <;> cases bat <;>
        simp [placeKind_comm h4, placeKind_placeKind]
    · rw [if_neg (by decide), if_pos rfl, Option.some_or, Option.none_or]
      unfold place
      cases dev <;> cases bat <;> simp [placeKind_placeKind]

/-- **What is left in `pinfo`** is decided by the last entry of each kind. -/
theorem foldl_stepText (h4 : 4 ≤ partsAlloc) (texts : List (List UInt8)) (p : ℤ → Partition) :
    texts.foldl (stepText partsAlloc) p =
      place partsAlloc (lastEntry .deviceId texts) (lastEntry .battery texts) p := by
  induction texts using List.reverseRecOn with
  | nil => rfl
  | append_singleton texts s ih =>
    rw [List.foldl_append, ih, List.foldl_cons, List.foldl_nil, stepText_place h4, lastEntry,
      lastEntry, lastEntry, lastEntry, Transition.lastWrite_concat, Transition.lastWrite_concat]

/-- All calls of `sscanf` are defined if the outcome is.

**Proof sketch.** Induction on the texts: an undefined call ends with a fault, and a defined one
goes on from what `stepText` leaves. -/
lemma foldlM_scanText_eq_ok {texts : List (List UInt8)} {p q : ℤ → Partition} :
    texts.foldlM (scanText partsAlloc) p = .ok q ↔
      Defined texts ∧ texts.foldl (stepText partsAlloc) p = q := by
  induction texts generalizing p with
  | nil =>
    refine ⟨fun h => ⟨List.forall_mem_nil _, Except.ok.inj h⟩, fun h => congrArg Except.ok h.2⟩
  | cons s texts ih =>
    rw [List.foldlM_cons, List.foldl_cons, bind_eq_ok, Defined, List.forall_mem_cons, and_assoc]
    unfold scanText stepText
    rcases hs : sscanf s with u | r
    · refine iff_of_false ?_ ?_
      · rintro ⟨_, hnot, -⟩
        cases hnot
      · rintro ⟨⟨_, hnot⟩, -⟩
        cases hnot
    · rw [and_iff_right ⟨r, rfl⟩]
      constructor
      · rintro ⟨p', hp', hrest⟩
        obtain rfl := Except.ok.inj hp'
        cases r <;> exact ih.mp hrest
      · intro h
        refine ⟨_, rfl, ih.mpr ?_⟩
        cases r <;> exact h

/-- The first entry of `pinfo` is the last one for the device. -/
private lemma place_zero (h4 : 4 ≤ partsAlloc) (dev bat : Option Entry) (p : ℤ → Partition) :
    place partsAlloc dev bat p 0 =
      dev.elim (p 0) fun e => (p 0).set e.partName 10 e.partSaddr e.partType := by
  have hne : (0 : ℤ) ≠ partsAlloc - 1 := by omega
  unfold place placeKind
  cases bat with
  | none => cases dev <;> rfl
  | some e =>
    rw [Option.elim_some]
    dsimp only
    rw [if_neg hne]
    cases dev <;> rfl

/-- The last entry of `pinfo` is the last one for a battery.

**Proof sketch.** The last entry of `pinfo` is none of the three that are set for the device. -/
private lemma place_last (h4 : 4 ≤ partsAlloc) (dev bat : Option Entry) (p : ℤ → Partition) :
    place partsAlloc dev bat p (partsAlloc - 1) =
      bat.elim (p (partsAlloc - 1)) fun e =>
        (p (partsAlloc - 1)).set e.partName 8 e.partSaddr e.partType := by
  have hdev : dev.elim p (fun e => placeKind partsAlloc .deviceId e p) (partsAlloc - 1) =
      p (partsAlloc - 1) := by
    cases dev with
    | none => rfl
    | some e =>
      rw [Option.elim_some]
      unfold placeKind
      dsimp only
      rw [if_neg (by omega), if_neg (by omega), if_neg (by omega)]
  unfold place
  cases bat with
  | none => exact hdev
  | some e =>
    rw [Option.elim_some, Option.elim_some, ← hdev]
    exact if_pos rfl

/-- The same entries leave the same. -/
private lemma placeKind_congr {k : Kind} {e e' : Entry} (h : Same k e e') (p : ℤ → Partition) :
    placeKind partsAlloc k e p = placeKind partsAlloc k e' p := by
  obtain ⟨hname, hsaddr, htype⟩ := h
  have hset : ∀ q : Partition, ∀ n, n = k.copied → strncpy q.name e.partName n =
      strncpy q.name e'.partName n := by
    rintro q n rfl
    funext j
    unfold strncpy
    split_ifs with hj
    · exact hname j hj
    · rfl
  cases k with
  | deviceId => simp only [placeKind, Partition.set, hset _ 10 rfl, hsaddr, htype]
  | battery => simp only [placeKind, Partition.set, hset _ 8 rfl, hsaddr, htype]

/-- The name of an entry that is set is not empty. -/
private lemma getD_partName_ne {k : Kind} {e : Entry} (h : e.kind? = some k) :
    e.partName.getD 0 0 ≠ 0 := by
  unfold Entry.kind? at h
  split_ifs at h with hdev hbat
  · obtain ⟨t, ht⟩ := hdev
    rw [← ht]
    exact (by decide : (100 : UInt8) ≠ 0)
  · obtain ⟨t, ht⟩ := hbat
    rw [← ht]
    exact (by decide : (98 : UInt8) ≠ 0)

/-- **What is left in one entry** of `pinfo` shows what it was set to.

**Proof sketch.** An entry that has been set has a name, so it differs from one that has not. If
both have been set, what was copied, the offset and the type are the same. -/
theorem rel_of_set_eq {k : Kind} {o o' : Option Entry} (ho : ∀ e, o = some e → e.kind? = some k)
    (ho' : ∀ e, o' = some e → e.kind? = some k) {q : Partition} (hq : q.name 0 = 0)
    (h : (o.elim q fun e => q.set e.partName k.copied e.partSaddr e.partType) =
      o'.elim q fun e => q.set e.partName k.copied e.partSaddr e.partType) :
    Option.Rel (Same k) o o' := by
  have hpos : 0 < k.copied := by cases k <;> decide
  have hfirst : ∀ e : Entry, (q.set e.partName k.copied e.partSaddr e.partType).name 0 =
      e.partName.getD 0 0 := fun e => if_pos hpos
  cases o with
  | none =>
    cases o' with
    | none => exact .none
    | some e' =>
      have hname := congrFun (congrArg Partition.name h) 0
      rw [Option.elim_none, Option.elim_some, hfirst, hq] at hname
      exact absurd hname.symm (getD_partName_ne (ho' e' rfl))
  | some e =>
    cases o' with
    | none =>
      have hname := congrFun (congrArg Partition.name h) 0
      rw [Option.elim_none, Option.elim_some, hfirst, hq] at hname
      exact absurd hname (getD_partName_ne (ho e rfl))
    | some e' =>
      refine .some ⟨fun j hj => ?_, congrArg Partition.offset h, congrArg Partition.type h⟩
      have hname := congrFun (congrArg Partition.name h) j
      rw [Option.elim_some, Option.elim_some] at hname
      unfold Partition.set strncpy at hname
      dsimp only at hname
      rwa [if_pos hj, if_pos hj] at hname

/-- **What two pairs of entries leave** is the same if the entries are.

**Proof sketch.** What the texts leave is given by the last entry of each kind (`foldl_stepText`).
It is read back from the first and the last entry of `pinfo`, where each kind alone is set. -/
theorem place_eq_iff (h4 : 4 ≤ partsAlloc) (texts texts' : List (List UInt8))
    {p : ℤ → Partition} (h0 : (p 0).name 0 = 0) (hlast : (p (partsAlloc - 1)).name 0 = 0) :
    texts.foldl (stepText partsAlloc) p = texts'.foldl (stepText partsAlloc) p ↔
      ∀ k, Option.Rel (Same k) (lastEntry k texts) (lastEntry k texts') := by
  have hkind : ∀ k l e, lastEntry k l = some e → e.kind? = some k := by
    intro k l e he
    obtain ⟨-, s, -, -, hs, -⟩ := Transition.lastWrite_eq_some_iff.mp he
    exact (entryOf_eq_some.mp hs).2
  rw [foldl_stepText h4, foldl_stepText h4]
  constructor
  · intro h k
    cases k with
    | deviceId =>
      have heq := congrFun h 0
      rw [place_zero h4, place_zero h4] at heq
      exact rel_of_set_eq (hkind _ _) (hkind _ _) h0 heq
    | battery =>
      have heq := congrFun h (partsAlloc - 1)
      rw [place_last h4, place_last h4] at heq
      exact rel_of_set_eq (hkind _ _) (hkind _ _) hlast heq
  · intro h
    have hcongr : ∀ k (q : ℤ → Partition) o o', Option.Rel (Same k) o o' →
        (o.elim q fun e => placeKind partsAlloc k e q) =
          o'.elim q fun e => placeKind partsAlloc k e q := by
      intro k q o o' hrel
      cases hrel with
      | none => rfl
      | some hsame => exact placeKind_congr hsame q
    unfold place
    rw [hcongr _ _ _ _ (h .deviceId)]
    exact hcongr _ _ _ _ (h .battery)

end Entries

/-! ## Line by line -/

/-- The scanner leaves in `pinfo` what reading the lines one by one leaves, whenever that is
defined. -/
def SamePinfo (env : Env) (table : List UInt8) (partsAlloc : ℤ) (v : State) : Prop :=
  ∀ v', (scanLines env (splitLines table) partsAlloc v).Ends (fun y => y = .ok v') →
    (scanPartitionInfoEmmc env table partsAlloc v).Ends fun x =>
      ∃ ret w, x = .ok (ret, w) ∧ w.pinfo = v'.pinfo

/-- The passes of the loop over a table that is in the line buffer as a whole. -/
def tablePass (partsAlloc : ℤ) (table : List UInt8) :
    List UInt8 × State → Prog Undefined (Pass (List UInt8 × State) State) :=
  scanPass partsAlloc (List.replicate (largeBufLen - table.length) 0)

/-- **No line without four fields of its own sets an entry**: whatever the loop comes to, a pass
that begins at such a line leaves the state as it is. The state also has the list of the entries
that have been read or written, so that not even the same values are written again. -/
def SetsNothing (table : List UInt8) (partsAlloc : ℤ) (v : State) : Prop :=
  ∀ buf w, Prog.Reaches (tablePass partsAlloc table) (table, v) (buf, w) →
    buf ≠ [] → sscanf (firstLine buf) = .ok none →
      ∀ buf' w', (tablePass partsAlloc table (buf, w)).Ends
        (fun x => x = .ok (.again (buf', w'))) → w' = w

/-- **Line by line**: whenever reading the lines one by one is defined, the scanner leaves the same
in `pinfo`, and no line without four fields of its own sets an entry on the way. -/
def OneByOne (env : Env) (table : List UInt8) (partsAlloc : ℤ) (v : State) : Prop :=
  ∀ v', (scanLines env (splitLines table) partsAlloc v).Ends (fun y => y = .ok v') →
    ((scanPartitionInfoEmmc env table partsAlloc v).Ends fun x =>
      ∃ ret w, x = .ok (ret, w) ∧ w.pinfo = v'.pinfo) ∧
    SetsNothing table partsAlloc v

/-- **No line gets an entry with the help of the lines below it**: where there are four fields
from a line on, but not in the line by itself, the name is neither that of the device nor of a
battery. -/
def Unaided (table : List UInt8) : Prop :=
  ∀ r ∈ rests table, sscanf (firstLine r) = .ok none → ∀ e, sscanf r = .ok (some e) → e.kind? = none

/-- **No line that takes fields from the lines below it has the last word** on a kind of entry: if
there are four fields from such a line on, and the name is of this kind, then a line below it gives
an entry of this kind again, or the last line with four fields of its own gives the same. -/
def Settled (k : Kind) (table : List UInt8) : Prop :=
  ∀ before r after, rests table = before ++ r :: after → entryOf k (firstLine r) = none →
    ∀ e, entryOf k r = some e →
      (∃ r' ∈ after, entryOf k r' ≠ none) ∨
        ∃ e', lastEntry k (splitLines table) = some e' ∧ Same k e e'

/-- A line with four fields gives the same entry with more lines below it. -/
private lemma entryOf_of_firstLine {k : Kind} {r : List UInt8} {e : Entry}
    (h : entryOf k (firstLine r) = some e) : entryOf k r = some e := by
  obtain ⟨hs, hk⟩ := entryOf_eq_some.mp h
  exact entryOf_eq_some.mpr ⟨sscanf_of_firstLine hs, hk⟩

/-- **The last entries are the same** if no line takes the last word from another. -/
theorem rel_lastEntry_iff (k : Kind) (table : List UInt8) :
    Option.Rel (Same k) (lastEntry k (rests table)) (lastEntry k (splitLines table)) ↔
      Settled k table := by
  have hlines : lastEntry k (splitLines table) =
      Transition.lastWrite (fun r => entryOf k (firstLine r)) (rests table) := by
    rw [lastEntry, Transition.lastWrite, ← map_firstLine_rests, List.filterMap_map]
    rfl
  unfold Settled
  rw [hlines]
  exact Transition.lastWrite_rel_iff (fun e => ⟨fun _ _ => rfl, rfl, rfl⟩)
    fun r _ e => entryOf_of_firstLine

/-- What the two scanners leave, as two readings of the same table.

**Proof sketch.** Both scanners are folds of the same step, over the lines and over the texts from
each line on (`ends_scanLines`, `ends_scanPartitionInfo`), so their ends are those of the folds. -/
private lemma samePinfo_iff_foldlM {env : Env} {table : List UInt8} {partsAlloc : ℤ}
    (h : Readable env table) (v : State) :
    SamePinfo env table partsAlloc v ↔
      ∀ q, (splitLines table).foldlM (scanText partsAlloc) v.pinfo = .ok q →
        (rests table).foldlM (scanText partsAlloc) v.pinfo = .ok q := by
  have hlines := @ends_scanLines partsAlloc env _ (fun line hline => h.line hline) v
  have hscan := @ends_scanPartitionInfo partsAlloc env _ h v
  constructor
  · intro hone q hq
    obtain ⟨n, y, hy, hpinfo⟩ := hlines
    rw [hq] at hpinfo
    cases y with
    | error e => cases hpinfo
    | ok v' =>
      obtain ⟨m, x, hx, ret, w, rfl, hw⟩ := hone v' ⟨n, _, hy, rfl⟩
      rw [← hscan.always m _ hx, ← hpinfo]
      exact congrArg Except.ok hw
  · rintro hfold v' ⟨n, y, hy, rfl⟩
    have hq := hfold v'.pinfo (hlines.always n _ hy).symm
    refine hscan.imp fun x hx => ?_
    rw [hq] at hx
    cases x with
    | error e => cases hx
    | ok r => exact ⟨r.1, r.2, rfl, Except.ok.inj hx⟩

/-- **The scanner leaves the same in `pinfo`** exactly when no call of `sscanf` runs into a number
that cannot be represented, and no line that takes fields from the lines below it has the last word
on an entry.

**Proof sketch.** `pinfo` only shows the last entry of each kind (`place_eq_iff`), and a line with
four fields gives the same entry whatever is below it (`rel_lastEntry_iff`). -/
theorem samePinfo_iff {env : Env} {table : List UInt8} {partsAlloc : ℤ} (h : Readable env table)
    (h4 : 4 ≤ partsAlloc) (memory : ℤ → Partition) :
    SamePinfo env table partsAlloc (allocate partsAlloc memory) ↔
      (Defined (splitLines table) → Defined (rests table) ∧ ∀ k, Settled k table) := by
  have hzero : ∀ i, 0 ≤ i → i < partsAlloc →
      ((allocate partsAlloc memory).pinfo i).name 0 = 0 := by
    intro i h0 hi
    unfold allocate
    dsimp only
    rw [if_pos ⟨h0, hi⟩]
    rfl
  have heq := place_eq_iff h4 (rests table) (splitLines table)
    (hzero 0 (by omega) (by omega)) (hzero (partsAlloc - 1) (by omega) (by omega))
  simp only [rel_lastEntry_iff] at heq
  rw [samePinfo_iff_foldlM h, ← heq]
  simp only [foldlM_scanText_eq_ok]
  constructor
  · exact fun hall hdef => hall _ ⟨hdef, rfl⟩
  · rintro hall q ⟨hdef, rfl⟩
    exact hall hdef

/-- Reading the lines one by one is defined if each call of `sscanf` on a line is. -/
private lemma exists_scanLines_iff {env : Env} {table : List UInt8} (h : Readable env table)
    (partsAlloc : ℤ) (v : State) :
    (∃ v', (scanLines env (splitLines table) partsAlloc v).Ends fun y => y = .ok v') ↔
      Defined (splitLines table) := by
  have hlines := @ends_scanLines partsAlloc env _ (fun line hline => h.line hline) v
  constructor
  · rintro ⟨v', n, _, hy, rfl⟩
    exact (foldlM_scanText_eq_ok.mp (hlines.always n _ hy).symm).1
  · intro hdef
    obtain ⟨n, y, hy, hpinfo⟩ := hlines
    rw [foldlM_scanText_eq_ok.mpr ⟨hdef, rfl⟩] at hpinfo
    cases y with
    | error e => cases hpinfo
    | ok v' => exact ⟨v', n, _, hy, rfl⟩

/-- What is stored for an entry of a kind is recorded. -/
private lemma storeEntry_eq_self_iff {partsAlloc : ℤ} {e : Entry} {v : State} :
    storeEntry partsAlloc e v = v ↔ e.kind? = none := by
  unfold storeEntry Entry.kind?
  constructor
  · intro h
    have hlen := congrArg (fun v => v.touched.length) h
    split_ifs at h hlen ⊢
    · simp [State.modify, State.touch] at hlen
    · simp [State.modify, State.touch] at hlen
    · rfl
  · split_ifs with hdev hbat
    · exact fun h => by cases h
    · exact fun h => by cases h
    · exact fun _ => rfl

/-- **No line without four fields of its own sets an entry** exactly when none gets one with the
help of the lines below it.

**Proof sketch.** The loop comes to the text from each line on (`exists_reaches`), and to no other
one (`mem_rests_of_reaches`); what a pass stores is recorded (`storeEntry_eq_self_iff`). -/
theorem setsNothing_iff {env : Env} {table : List UInt8} (h : Readable env table)
    (hdef : Defined (rests table)) (partsAlloc : ℤ) (v : State) :
    SetsNothing table partsAlloc v ↔ Unaided table := by
  obtain ⟨past, hpast⟩ := h.exists_past
  have hpass : ∀ {r}, r ∈ rests table → ∀ w, (scanPass partsAlloc (0 :: past) (r, w)).Ends _ :=
    fun {r} hr w => ends_scanPass partsAlloc
      (fun h0 => h.nul_notMem ((suffix_of_mem_rests hr).1.subset h0)) (suffix_of_mem_rests hr).2
      past w
  unfold SetsNothing tablePass
  rw [hpast]
  constructor
  · intro hnothing r hr hline e he
    obtain ⟨w, hw⟩ := exists_reaches h.nul_notMem past hdef hr v
    have hends := hpass hr w
    rw [he] at hends
    exact storeEntry_eq_self_iff.mp (hnothing r w hw (suffix_of_mem_rests hr).2 hline _ _ hends)
  · rintro hunaided r w hreach hne hline r' w' ⟨n, _, hx, rfl⟩
    have hr := mem_rests_of_reaches h.nul_notMem past hreach hne
    have hends := (hpass hr w).always n _ hx
    obtain ⟨x, hsscanf⟩ := hdef r hr
    rw [hsscanf] at hends
    obtain ⟨-, rfl⟩ := Prod.mk.inj (Pass.again.inj (Except.ok.inj hends))
    cases x with
    | none => rfl
    | some e => exact storeEntry_eq_self_iff.mpr (hunaided r hr hline e hsscanf)

/-- Where no line gets an entry with the help of the lines below it, none has the last word so.

**Proof sketch.** A line with four fields of its own gets the same ones with the text behind it, so
its entry is its own. A line without gets none, by the condition. -/
lemma Unaided.settled {table : List UInt8} (h : Unaided table) (hdef : Defined (splitLines table))
    (k : Kind) : Settled k table := by
  intro before r after hrests hnone e he
  have hr : r ∈ rests table := by
    rw [hrests]
    exact List.mem_append_right before List.mem_cons_self
  have hmem : firstLine r ∈ splitLines table := by
    rw [← map_firstLine_rests]
    exact List.mem_map_of_mem hr
  obtain ⟨he, hk⟩ := entryOf_eq_some.mp he
  obtain ⟨x, hx⟩ := hdef _ hmem
  cases x with
  | none =>
    rw [h r hr hx e he] at hk
    cases hk
  | some e' =>
    -- four fields of its own are the same ones, and then the entry is the line's own
    have hall := sscanf_of_firstLine hx
    rw [he] at hall
    obtain rfl := Option.some.inj (Except.ok.inj hall)
    have hown : entryOf k (firstLine r) = some e := entryOf_eq_some.mpr ⟨hx, hk⟩
    rw [hown] at hnone
    cases hnone

/-- A table whose first line lacks a field. -/
def shortTable : List UInt8 := ascii "battery 10 20\n3 1 2 3\n"

/-- Everything is opened, the table is read in one call, and each write is complete. -/
def readingEnv : Env :=
  ⟨true, true, some 512, 5, by decide, fun _ => true, fun _ => true, fun _ => some 4⟩

/-- The table is read as it is. -/
lemma readable_shortTable : Readable readingEnv shortTable :=
  ⟨rfl, rfl, ⟨512, rfl, by decide⟩, by decide, by decide⟩

end JzPretest.Vcom

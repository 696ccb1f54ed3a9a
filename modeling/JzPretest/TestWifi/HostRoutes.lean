import JzPretest.TestWifi.Requests

set_option relaxedAutoImplicit false
set_option autoImplicit false

/-!
# Host routes and the default route

From the text of the table of routes to the requests for the kernel, and to the address of the
default gateway.

## Main definitions

* `JzPretest.Netcfg.Reads` — the text of the table that is read.

## Main results

* `JzPretest.Netcfg.ifcRemoveHostRoutes_table` — the routes that are removed.
* `JzPretest.Netcfg.ifcGetDefaultRoute_table` — the gateway that is found.
-/

namespace JzPretest.Netcfg

open Transition Calling Dhcp Reader

/-- The table of routes has this text. -/
def Reads (contents : Option (List UInt8)) : Sigma Answer → Prop
  | ⟨.readRoutes, a⟩ => a = contents
  | _ => True

variable {contents : Option (List UInt8)} {ρ : Type}

/-- Programs that read this text, with what they request. -/
abbrev Requests (contents : Option (List UInt8)) (l₀ : List Ioctl) (x : Net ρ)
    (Q : ρ → List Ioctl → Prop) : Prop :=
  Follows (Reads contents) (collect requested) (fun _ l => l = l₀) x fun r _ l => Q r l

/-- A request is requested. -/
private lemma requests_ioctl (l₀ : List Ioctl) (request : Ioctl) :
    Requests contents l₀ (ioctl request) fun _ l => l = l₀ ++ [request] := by
  refine follows_ioctl ?_
  rintro v l a - rfl
  exact ⟨_, rfl, rfl⟩

/-- The text is read. -/
lemma requests_readRoutes {l₀ : List Ioctl} {f : Option (List UInt8) → Net ρ}
    {Q : ρ → List Ioctl → Prop} (hf : Requests contents l₀ (f contents) Q) :
    Requests contents l₀ (readRoutes >>= f) Q := by
  refine Follows.bind (R := fun a _ l => a = contents ∧ l = l₀) (Follows.call ?_) fun a => ?_
  · rintro v l a ha rfl
    exact ⟨l, congrArg some (List.append_nil l), ha, rfl⟩
  · refine Follows.assume (p := a = contents) (fun _ _ h => h.1) ?_
    rintro rfl
    exact hf.weaken _ fun _ _ h => h.2

/-- Closing the socket requests nothing. -/
lemma requests_return (l₀ : List Ioctl) (r : ρ) :
    Requests contents l₀ (do ifcClose; return r) fun r' l => r' = r ∧ l = l₀ :=
  Follows.bind (keeps_ifcClose l₀) fun _ => Follows.pure fun _ _ h => ⟨rfl, h⟩

/-! ## Host routes -/

/-- A request for each row, in the order of the rows. -/
private lemma requests_removeLoop (name : List UInt8) (l₀ : List Ioctl) (rows : List Route) :
    Requests contents l₀ (removeLoop name rows) fun _ l =>
      l = l₀ ++ (rows.filter (Route.isHostRoute name)).map fun r => .delRoute (r.removed name) := by
  induction rows generalizing l₀ with
  | nil => exact Follows.pure fun _ _ h => by simpa using h
  | cons r rows ih =>
    rw [removeLoop]
    by_cases hr : r.isHostRoute name = true
    · rw [if_pos hr, List.filter_cons_of_pos hr]
      refine Follows.bind (requests_ioctl l₀ _) fun _ => (ih _).post ?_
      rintro - v l rfl
      rw [List.map_cons, List.append_assoc]
      rfl
    · rw [if_neg hr, List.filter_cons_of_neg hr]
      exact ih l₀

/-- The requests for the rows that are read, and what is returned. -/
private lemma requests_ifcRemoveHostRoutes (name : List UInt8) {s body : List UInt8}
    (hbody : skipHeader s = some body) :
    Requests (some s) [] (ifcRemoveHostRoutes name) fun r l =>
      r = (scan body).undefined.elim (.ok 0) .error ∧
      l = ((scan body).rows.filter (Route.isHostRoute name)).map
        fun r => .delRoute (r.removed name) := by
  refine requests_readRoutes ?_
  dsimp only
  rw [hbody]
  refine Follows.bind (keeps_ifcInit []) fun _ => ?_
  refine Follows.bind (requests_removeLoop name [] _) fun _ => ?_
  rw [List.nil_append]
  cases (scan body).undefined with
  | none => exact requests_return _ _
  | some u => exact Follows.pure fun _ _ h => ⟨rfl, h⟩

/-- **The host routes of an interface are removed**, one by one in the order of the table, and no
other route is: whatever the kernel returns, `ifc_remove_host_routes` reports success. -/
theorem ifcRemoveHostRoutes_table {name s : List UInt8} {rows : List Route} (hs : IsTable rows s)
    {v₀ v : Vars} {log : List (Sigma Answer)} {r : Except Undefined ℤ}
    (h : ((ifcRemoveHostRoutes name).run v₀).Runs log (r, v)) (hE : ∀ e ∈ log, Reads (some s) e) :
    r = .ok 0 ∧ log.filterMap requested =
      (rows.filter (Route.isHostRoute name)).map fun r => .delRoute (r.removed name) := by
  obtain ⟨body, hbody, hscan⟩ := scan_table hs
  obtain ⟨l, hrun, hr, hl⟩ := requests_ifcRemoveHostRoutes name hbody v₀ log r v [] h hE rfl
  rw [run_collect, List.nil_append] at hrun
  obtain rfl := Option.some.inj hrun
  rw [hscan] at hr hl
  exact ⟨hr, hl⟩

/-- A word, when each of its bytes has been looked at. -/
theorem isWord_of_all {w : List UInt8} (hne : w ≠ [])
    (hall : w.all (fun v => !isSpace v) = true) : IsWord w :=
  ⟨hne, fun v hv => by simpa using List.all_eq_true.mp hall v hv⟩

/-- Two host routes of an interface, and between them one of another interface, one that is not to a
host and one that is down.

**Proof sketch.** The table is written out (`exists_isTable`) and read back (`scan_table`), and the
run is given call by call. -/
theorem ifcRemoveHostRoutes_table_five : ∃ log r v,
    ((ifcRemoveHostRoutes (text ['l', 'o'])).run ⟨-1, 0⟩).Runs log (r, v) ∧ r = .ok 0 ∧
      log.filterMap requested = [.delRoute ⟨text ['l', 'o'], 1, some 0xFFFFFFFF, some 2, 0⟩,
        .delRoute ⟨text ['l', 'o'], 6, some 0xFFFFFFFF, some 0, 0⟩] := by
  let rows : List Route := [
    ⟨text ['l', 'o'], 1, 2, 5, 0, 0, 0, 0xFFFFFFFF, 0, 0, 0⟩,
    ⟨text ['p', 'p', 'p'], 3, 2, 5, 0, 0, 0, 0xFFFFFFFF, 0, 0, 0⟩,
    ⟨text ['l', 'o'], 4, 2, 3, 0, 0, -1, 0xFFFFFF, 0, 0, 0⟩,
    ⟨text ['l', 'o'], 5, 0, 4, 0, 0, 0, 0xFFFFFFFF, 0, 0, 0⟩,
    ⟨text ['l', 'o'], 6, 0, 7, 0, 12, 0, 0xFFFFFFFF, 1500, 0, 0⟩]
  have hlo : IsWord (text ['l', 'o']) := isWord_of_all (List.cons_ne_nil _ _) rfl
  have hppp : IsWord (text ['p', 'p', 'p']) := isWord_of_all (List.cons_ne_nil _ _) rfl
  have hwords : ∀ r ∈ rows, IsWord r.name ∧ r.name.length ≤ 63 := by
    simp only [rows, List.forall_mem_cons]
    exact ⟨⟨hlo, by decide⟩, ⟨hppp, by decide⟩, ⟨hlo, by decide⟩, ⟨hlo, by decide⟩,
      ⟨hlo, by decide⟩, fun _ h => by cases h⟩
  obtain ⟨s, hs⟩ := exists_isTable hwords
  obtain ⟨body, hbody, hscan⟩ := scan_table hs
  have h : ((ifcRemoveHostRoutes (text ['l', 'o'])).run ⟨-1, 0⟩).Runs
      [⟨.readRoutes, some s⟩, ⟨.socket, .ok 3⟩,
        ⟨.ioctl 3 (.delRoute ⟨text ['l', 'o'], 1, some 0xFFFFFFFF, some 2, 0⟩),
          ⟨-1, 3, 0, 0, .replicate 6 0⟩⟩,
        ⟨.ioctl 3 (.delRoute ⟨text ['l', 'o'], 6, some 0xFFFFFFFF, some 0, 0⟩),
          ⟨0, 0, 0, 0, .replicate 6 0⟩⟩, ⟨.close 3, ()⟩] (.ok 0, ⟨-1, 3⟩) := by
    refine ⟨_, _, rfl, ?_⟩
    dsimp only [Calling.andThen]
    rw [hbody]
    dsimp only
    rw [hscan]
    exact ⟨_, _, rfl, _, _, rfl, _, _, rfl, _, _, rfl, rfl, rfl⟩
  refine ⟨_, _, _, h, ifcRemoveHostRoutes_table hs h ?_⟩
  simp only [List.forall_mem_cons]
  exact ⟨rfl, trivial, trivial, trivial, trivial, fun _ h => by cases h⟩

/-! ## The default route -/

/-- The gateway of the first row that is looked for; nothing is requested. -/
private lemma requests_ifcGetDefaultRoute (ifname : List UInt8) {s body : List UInt8}
    (hbody : skipHeader s = some body) (hdefined : (scan body).undefined = none) :
    Requests (some s) [] (ifcGetDefaultRoute ifname) fun r l =>
      r = .ok ((((scan body).rows.find? (Route.isDefault ifname)).map Route.gway).getD 0) ∧
      l = [] := by
  refine requests_readRoutes ?_
  dsimp only
  rw [hbody]
  refine Follows.bind (keeps_ifcInit []) fun _ => ?_
  rw [hdefined]
  cases (scan body).rows.find? (Route.isDefault ifname) with
  | none => exact requests_return [] _
  | some r => exact requests_return [] _

/-- **The default gateway**: that of the first row for the interface with a gateway and no
destination, or none if there is no such row. Nothing is requested.

**Proof sketch.** The rows are read as they are (`scan_table`), and the result is the gateway of the
first one that the search accepts. -/
theorem ifcGetDefaultRoute_table {ifname s : List UInt8} {rows : List Route} (hs : IsTable rows s)
    {v₀ v : Vars} {log : List (Sigma Answer)} {r : Except Undefined UInt32}
    (h : ((ifcGetDefaultRoute ifname).run v₀).Runs log (r, v))
    (hE : ∀ e ∈ log, Reads (some s) e) :
    log.filterMap requested = [] ∧
    ((∀ row ∈ rows, row.isDefault ifname = false) ∧ r = .ok 0 ∨
      ∃ before row after, rows = before ++ row :: after ∧ row.isDefault ifname = true ∧
        (∀ row' ∈ before, row'.isDefault ifname = false) ∧ r = .ok row.gway) := by
  obtain ⟨body, hbody, hscan⟩ := scan_table hs
  obtain ⟨l, hrun, rfl, rfl⟩ := requests_ifcGetDefaultRoute ifname hbody (by rw [hscan]) v₀ log r v
    [] h hE rfl
  rw [run_collect, List.nil_append] at hrun
  refine ⟨Option.some.inj hrun, ?_⟩
  rw [hscan]
  cases hfind : rows.find? (Route.isDefault ifname) with
  | none =>
    refine .inl ⟨fun row hrow => ?_, rfl⟩
    simpa using List.find?_eq_none.mp hfind row hrow
  | some row =>
    obtain ⟨hrow, before, after, hrows, hbefore⟩ := List.find?_eq_some_iff_append.mp hfind
    refine .inr ⟨before, row, after, hrows, hrow, fun row' hrow' => ?_, rfl⟩
    simpa using hbefore row' hrow'

/-- The default route of an interface behind one of another interface, one that is down and one to a
net, and before another one.

**Proof sketch.** The table is written out (`exists_isTable`) and read back (`scan_table`), and the
run is given call by call. -/
theorem ifcGetDefaultRoute_table_five : ∃ (rows : List Route) (log : List (Sigma Answer))
    (v : Vars),
    rows.length = 5 ∧
      ((ifcGetDefaultRoute (text ['l', 'o'])).run ⟨-1, 0⟩).Runs log (.ok 5, v) ∧
      log.filterMap requested = [] ∧
      ((∀ row ∈ rows, row.isDefault (text ['l', 'o']) = false) ∧
          (.ok 5 : Except Undefined UInt32) = .ok 0 ∨
        ∃ before row after, rows = before ++ row :: after ∧
          row.isDefault (text ['l', 'o']) = true ∧
          (∀ row' ∈ before, row'.isDefault (text ['l', 'o']) = false) ∧
          (.ok 5 : Except Undefined UInt32) = .ok row.gway) := by
  let rows : List Route := [
    ⟨text ['p', 'p', 'p'], 0, 2, 3, 0, 0, 0, 0, 0, 0, 0⟩,
    ⟨text ['l', 'o'], 0, 3, 2, 0, 0, 0, 0, 0, 0, 0⟩,
    ⟨text ['l', 'o'], 7, 4, 3, 0, 0, -1, 0xFFFFFF, 0, 0, 0⟩,
    ⟨text ['l', 'o'], 0, 5, 3, 0, 0, 0, 0, 1500, 0, 0⟩,
    ⟨text ['l', 'o'], 0, 6, 3, 0, 12, 0, 0, 0, 0, 0⟩]
  have hlo : IsWord (text ['l', 'o']) := isWord_of_all (List.cons_ne_nil _ _) rfl
  have hppp : IsWord (text ['p', 'p', 'p']) := isWord_of_all (List.cons_ne_nil _ _) rfl
  have hwords : ∀ r ∈ rows, IsWord r.name ∧ r.name.length ≤ 63 := by
    simp only [rows, List.forall_mem_cons]
    exact ⟨⟨hppp, by decide⟩, ⟨hlo, by decide⟩, ⟨hlo, by decide⟩, ⟨hlo, by decide⟩,
      ⟨hlo, by decide⟩, fun _ h => by cases h⟩
  obtain ⟨s, hs⟩ := exists_isTable hwords
  obtain ⟨body, hbody, hscan⟩ := scan_table hs
  have h : ((ifcGetDefaultRoute (text ['l', 'o'])).run ⟨-1, 0⟩).Runs
      [⟨.readRoutes, some s⟩, ⟨.socket, .ok 3⟩, ⟨.close 3, ()⟩] (.ok 5, ⟨-1, 0⟩) := by
    refine ⟨_, _, rfl, ?_⟩
    dsimp only [Calling.andThen]
    rw [hbody]
    dsimp only
    rw [hscan]
    exact ⟨_, _, rfl, _, _, rfl, rfl, rfl⟩
  refine ⟨rows, _, _, rfl, h, ifcGetDefaultRoute_table hs h ?_⟩
  simp only [List.forall_mem_cons]
  exact ⟨rfl, trivial, trivial, fun _ h => by cases h⟩

end JzPretest.Netcfg

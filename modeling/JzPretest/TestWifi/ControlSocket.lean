import JzPretest.TestWifi.IfcUtils

set_option relaxedAutoImplicit false
set_option autoImplicit false

/-!
# The control socket

Whoever calls the interface utilities, in whichever order: the control socket is opened only while
it is closed, only the open one is closed, and requests are made on the open one, or on none.

## Main definitions

* `JzPretest.Netcfg.socketStep` — the open descriptor, as a log of calls tells it.
* `JzPretest.Netcfg.Op`, `JzPretest.Netcfg.operations` — calls of the functions, in any order.
* `JzPretest.Netcfg.Stays`, `JzPretest.Netcfg.Closes` — what a function does to the control socket.

## Main results

* `JzPretest.Netcfg.operations_tidy` — any sequence of calls is proper.
-/

namespace JzPretest.Netcfg

open Transition Calling Dhcp

/-- **The descriptor that is open**, after one more call: it is none of the proper calls to open
another one, to close one that is not open, or to make a request on one that is not open; requests
on no descriptor at all, `-1`, are proper while none is open. -/
def socketStep (q : Option ℕ) : Sigma Answer → Option (Option ℕ)
  | ⟨.socket, a⟩ => if q = none then some (Except.toOption a) else none
  | ⟨.close fd, _⟩ => if q.map (fun n => (n : ℤ)) = some fd then some none else none
  | ⟨.ioctl fd _, _⟩ => if q.elim (-1) (fun n => (n : ℤ)) = fd then some q else none
  | _ => some q

/-- The control socket is the descriptor that is open. -/
def Tidy (v : Vars) (q : Option ℕ) : Prop := v.ctlSock = q.elim (-1) fun n => (n : ℤ)

/-- The variable is -1 exactly when no socket is open. -/
lemma tidy_none {v : Vars} {q : Option ℕ} (h : Tidy v q) : v.ctlSock = -1 ↔ q = none := by
  unfold Tidy at h
  cases q with
  | none => simpa using h
  | some fd =>
    simp only [Option.elim_some] at h
    simp only [reduceCtorEq, iff_false]
    omega

variable {E : Sigma Answer → Prop} {ρ τ : Type}

/-- **A request** is made on the control socket, and sets `errno` when it fails. -/
theorem follows_ioctl {κ : Type} {step : κ → Sigma Answer → Option κ} {P : Vars → κ → Prop}
    {Q : Returned → Vars → κ → Prop} {request : Ioctl}
    (h : ∀ v q a, E ⟨.ioctl v.ctlSock request, a⟩ → P v q →
      ∃ q', step q ⟨.ioctl v.ctlSock request, a⟩ = some q' ∧
        Q a (if Returned.result a < 0 then { v with errno := Returned.errno a } else v) q') :
    Follows E step P (ioctl request) Q := by
  refine Follows.get_bind fun u => ?_
  refine Follows.bind
    (R := fun a _ => Q a (if a.result < 0 then { u with errno := a.errno } else u))
    (Follows.call ?_) fun a => ?_
  · rintro v q a ha ⟨hP, rfl⟩
    exact h u q a ha hP
  · exact Follows.bind (R := fun _ => Q a) (Follows.set fun _ _ h => h) fun _ =>
      Follows.pure fun _ _ h => h

/-- The control socket stays what it is. -/
def Stays (E : Sigma Answer → Prop) (x : Net ρ) : Prop :=
  ∀ sock, Follows E socketStep (fun v q => Tidy v q ∧ v.ctlSock = sock) x
    fun _ v q => Tidy v q ∧ v.ctlSock = sock

/-- The control socket is closed in the end. -/
def Closes (E : Sigma Answer → Prop) (x : Net ρ) : Prop :=
  Follows E socketStep Tidy x fun _ v q => Tidy v q ∧ q = none

/-- The control socket is used properly. -/
def IsTidy (E : Sigma Answer → Prop) (x : Net ρ) : Prop :=
  Follows E socketStep Tidy x fun _ => Tidy

namespace Stays

/-- A value leaves the socket. -/
theorem pure (r : ρ) : Stays E (Pure.pure r : Net ρ) :=
  fun _ => Follows.pure fun _ _ h => h

/-- Two parts that leave it, one after the other. -/
theorem bind {x : Net ρ} {f : ρ → Net τ} (hx : Stays E x) (hf : ∀ a, Stays E (f a)) :
    Stays E (x >>= f) :=
  fun sock => (hx sock).bind fun a => hf a sock

/-- Either branch leaves it. -/
theorem ite {c : Prop} [Decidable c] {x y : Net ρ} (hx : Stays E x) (hy : Stays E y) :
    Stays E (if c then x else y) := by
  split_ifs
  · exact hx
  · exact hy

/-- What leaves the socket uses it properly. -/
theorem isTidy {x : Net ρ} (h : Stays E x) : IsTidy E x := by
  intro v log r v' q hruns hE hq
  obtain ⟨q', hrun, htidy, -⟩ := h v.ctlSock v log r v' q hruns hE ⟨hq, rfl⟩
  exact ⟨q', hrun, htidy⟩

end Stays

namespace IsTidy

/-- A value uses no socket. -/
theorem pure (r : ρ) : IsTidy E (Pure.pure r : Net ρ) :=
  Follows.pure fun _ _ h => h

/-- Two parts that use it properly, one after the other. -/
theorem bind {x : Net ρ} {f : ρ → Net τ} (hx : IsTidy E x) (hf : ∀ a, IsTidy E (f a)) :
    IsTidy E (x >>= f) :=
  Follows.bind hx hf

end IsTidy

namespace Closes

/-- It is closed behind either branch. -/
private lemma ite {c : Prop} [Decidable c] {x y : Net ρ} (hx : Closes E x) (hy : Closes E y) :
    Closes E (if c then x else y) := by
  split_ifs
  · exact hx
  · exact hy

/-- The second part closes it. -/
lemma bind {x : Net ρ} {f : ρ → Net τ} (hx : IsTidy E x) (hf : ∀ a, Closes E (f a)) :
    Closes E (x >>= f) :=
  Follows.bind hx hf

/-- Nothing opens it again. -/
lemma bind_stays {x : Net ρ} {f : ρ → Net τ} (hx : Closes E x) (hf : ∀ a, Stays E (f a)) :
    Closes E (x >>= f) := by
  refine Follows.bind hx fun a => ?_
  refine (hf a (-1)).imp ?_ ?_
  · rintro v q ⟨htidy, rfl⟩
    exact ⟨htidy, htidy⟩
  · rintro _ v q ⟨htidy, hsock⟩
    exact ⟨htidy, (tidy_none htidy).mp hsock⟩

/-- What closes the socket uses it properly. -/
theorem isTidy {x : Net ρ} (h : Closes E x) : IsTidy E x :=
  Follows.post h fun _ _ _ h => h.1

end Closes

/-! ## The functions that leave the socket alone -/

/-- A call that the automaton does not look at leaves the socket. -/
theorem stays_call {c : Call} (h : ∀ q a, socketStep q ⟨c, a⟩ = some q) :
    Stays E (Calling.call c : Net (Answer c)) := by
  intro sock
  refine Follows.call fun v q a _ hq => ?_
  exact ⟨q, h q a, hq⟩

/-- A request is made on the open socket, or on none. -/
lemma stays_ioctl (request : Ioctl) : Stays E (ioctl request) := by
  refine fun sock => follows_ioctl fun v q a _ h => ⟨q, if_pos h.1.symm, ?_⟩
  split_ifs <;> exact h

/-- So is one for an interface. -/
theorem stays_ifreq (name : List UInt8) (request : Request) : Stays E (ifreq name request) :=
  stays_ioctl _

/-- `ifc_set_flags` leaves the socket. -/
theorem stays_ifcSetFlags (name : List UInt8) (set clr : UInt16) :
    Stays E (ifcSetFlags name set clr) :=
  (stays_ifreq name _).bind fun _ =>
    Stays.ite (Stays.pure _) ((stays_ifreq name _).bind fun _ => Stays.pure _)

/-- `ifc_set_addr` leaves it. -/
theorem stays_ifcSetAddr (name : List UInt8) (addr : UInt32) : Stays E (ifcSetAddr name addr) :=
  (stays_ifreq name _).bind fun _ => Stays.pure _

/-- `ifc_set_hwaddr` leaves it. -/
theorem stays_ifcSetHwaddr (name : List UInt8) (hwaddr : Vector UInt8 6) :
    Stays E (ifcSetHwaddr name hwaddr) :=
  (stays_ifreq name _).bind fun _ => Stays.pure _

/-- `ifc_set_prefixLength` leaves it. -/
lemma stays_ifcSetPrefixLength (name : List UInt8) (prefixLength : ℤ) :
    Stays E (ifcSetPrefixLength name prefixLength) :=
  Stays.ite (Stays.pure _) ((stays_ifreq name _).bind fun _ => Stays.pure _)

/-- `ifc_get_addr` leaves it. -/
lemma stays_ifcGetAddr (name : List UInt8) : Stays E (ifcGetAddr name) :=
  (stays_ifreq name _).bind fun _ => Stays.pure _

/-- `ifc_get_info` leaves it. -/
theorem stays_ifcGetInfo (name : List UInt8) : Stays E (ifcGetInfo name) :=
  (stays_ifreq name _).bind fun _ => (stays_ifreq name _).bind fun _ =>
    (stays_ifreq name _).bind fun _ => Stays.pure _

/-- The loop that clears addresses leaves it, by induction on its passes. -/
lemma stays_clearLoop (name : List UInt8) (passes : ℕ) : Stays E (clearLoop name passes) := by
  induction passes with
  | zero => exact Stays.pure _
  | succ passes ih =>
    refine Stays.bind (stays_ifcGetAddr name) fun p => ?_
    obtain ⟨r, addr⟩ := p
    refine Stays.ite (Stays.pure _) (Stays.ite ?_ (Stays.pure _))
    exact (stays_ifcSetAddr name 0).bind fun _ => ih

/-- The loop that removes routes leaves it, by induction on the rows. -/
theorem stays_removeLoop (name : List UInt8) (rows : List Route) :
    Stays E (removeLoop name rows) := by
  induction rows with
  | nil => exact Stays.pure _
  | cons r rows ih =>
    refine Stays.ite ?_ ih
    exact (stays_ioctl _).bind fun _ => ih

/-! ## The functions that open or close the socket -/

/-- `ifc_init` succeeds when there is a socket after it: the one that is open, or what `socket`
returns.

**Proof sketch.** With no socket the call of `socket` is made, and its descriptor kept if there is
one; the result is read from the variable, which is tidy in both cases. -/
theorem ifcInit_spec {p : Option ℕ → Prop}
    (hp : ∀ a : Except ℤ ℕ, E ⟨.socket, a⟩ → p (Except.toOption a)) :
    Follows E socketStep (fun v q => Tidy v q ∧ (q ≠ none → p q)) ifcInit
      fun r v q => Tidy v q ∧ (r = 0 ↔ q ≠ none) ∧ p q := by
  have hret : Follows E socketStep (fun v q => Tidy v q ∧ p q)
      (do let v ← get; return if v.ctlSock < 0 then -1 else 0 : Net ℤ)
      fun r v q => Tidy v q ∧ (r = 0 ↔ q ≠ none) ∧ p q := by
    refine Follows.get_bind fun u => Follows.pure ?_
    rintro v q ⟨⟨htidy, hq⟩, rfl⟩
    refine ⟨htidy, ?_, hq⟩
    unfold Tidy at htidy
    cases q with
    | none =>
      simp only [Option.elim_none] at htidy
      simp [htidy]
    | some fd =>
      simp only [Option.elim_some] at htidy
      rw [if_neg (by omega)]
      simp
  refine Follows.get_bind fun u => ?_
  dsimp only
  split_ifs with hsock
  · refine Follows.bind (R := fun a _ q => q = Except.toOption a ∧ p q) (Follows.call ?_)
      fun a => ?_
    · rintro v q a ha ⟨⟨htidy, -⟩, rfl⟩
      obtain rfl := (tidy_none htidy).mp hsock
      exact ⟨Except.toOption a, rfl, rfl, hp a ha⟩
    · cases a with
      | ok fd =>
        refine Follows.bind (R := fun _ v q => Tidy v q ∧ p q) (Follows.set ?_) fun _ => hret
        rintro v q ⟨rfl, hq⟩
        exact ⟨rfl, hq⟩
      | error e =>
        refine Follows.bind (R := fun _ v q => Tidy v q ∧ p q) (Follows.set ?_) fun _ => hret
        rintro v q ⟨rfl, hq⟩
        exact ⟨hsock, hq⟩
  · refine hret.weaken _ ?_
    rintro v q ⟨⟨htidy, hq⟩, rfl⟩
    exact ⟨htidy, hq fun hnone => hsock ((tidy_none htidy).mpr hnone)⟩

/-- `ifc_init` returns 0 exactly when a socket is open after it. -/
theorem ifcInit_result :
    Follows E socketStep Tidy ifcInit fun r v q => Tidy v q ∧ (r = 0 ↔ q ≠ none) :=
  (ifcInit_spec (p := fun _ => True) fun _ _ => trivial).imp (fun _ _ h => ⟨h, fun _ => trivial⟩)
    fun _ _ _ h => ⟨h.1, h.2.1⟩

/-- It opens one only if none is open. -/
theorem tidy_ifcInit : IsTidy E ifcInit :=
  ifcInit_result.post fun _ _ _ h => h.1

/-- `ifc_close` closes the socket that is open, if one is. -/
theorem closes_ifcClose : Closes E ifcClose := by
  refine Follows.get_bind fun u => ?_
  split_ifs with hsock
  · refine Follows.bind (R := fun _ _ q => q = none) (Follows.call ?_) fun _ => ?_
    · rintro v q a - ⟨htidy, rfl⟩
      refine ⟨none, if_pos ?_, rfl⟩
      cases q with
      | none => exact absurd htidy hsock
      | some fd => exact congrArg some htidy.symm
    · refine Follows.set ?_
      rintro v q rfl
      exact ⟨rfl, rfl⟩
  · refine Follows.pure ?_
    rintro v q ⟨htidy, rfl⟩
    exact ⟨htidy, (tidy_none htidy).mp (not_not.mp hsock)⟩

/-- A value that is returned after it. -/
theorem closes_return (r : ρ) : Closes E (do ifcClose; return r : Net ρ) :=
  closes_ifcClose.bind_stays fun _ => Stays.pure r

/-- `ifc_act_on_ipv4_route` closes the socket, whoever has opened it.

**Proof sketch.** `ifc_init` opens a socket or fails. If the variable is negative then, nothing is
open and the function returns; else the request is made on the socket, which is closed before the
function returns. -/
theorem closes_ifcActOnIpv4Route (action : Rtentry → Ioctl) (ifname : List UInt8) (dst : UInt32)
    (prefixLength : ℤ) (gw : UInt32) :
    Closes E (ifcActOnIpv4Route action ifname dst prefixLength gw) := by
  refine Closes.bind tidy_ifcInit fun _ => ?_
  refine Follows.get_bind fun u => ?_
  by_cases hsock : u.ctlSock < 0
  · rw [if_pos hsock]
    refine Follows.pure ?_
    rintro v q ⟨htidy, rfl⟩
    refine ⟨htidy, (tidy_none htidy).mp ?_⟩
    unfold Tidy at htidy
    cases q with
    | none => exact htidy
    | some fd =>
      simp only [Option.elim_some] at htidy
      omega
  · rw [if_neg hsock]
    refine Follows.weaken Tidy (fun _ _ h => h.1) ?_
    exact Closes.bind (stays_ioctl _).isTidy fun _ => closes_return _

/-- `ifc_clear_ipv4_addresses` closes it. -/
private lemma closes_ifcClearIpv4Addresses (name : List UInt8) :
    Closes E (ifcClearIpv4Addresses name) :=
  Closes.bind tidy_ifcInit fun _ => Closes.bind (stays_clearLoop name 255).isTidy
    fun _ => closes_ifcClose

/-- `ifc_enable` closes it. -/
private lemma closes_ifcEnable (ifname : List UInt8) : Closes E (ifcEnable ifname) :=
  Closes.bind tidy_ifcInit fun _ => Closes.bind (stays_ifcSetFlags ifname _ _).isTidy
    fun _ => closes_return _

/-- `ifc_disable` closes it. -/
private lemma closes_ifcDisable (ifname : List UInt8) : Closes E (ifcDisable ifname) :=
  Closes.bind tidy_ifcInit fun _ => Closes.bind (stays_ifcSetFlags ifname _ _).isTidy
    fun _ => Closes.bind (stays_ifcSetAddr ifname 0).isTidy
      fun _ => Closes.bind (stays_clearLoop ifname 255).isTidy fun _ => closes_return _

/-- `ifc_set_default_route` closes it. -/
private lemma closes_ifcSetDefaultRoute (ifname : List UInt8) (gateway : UInt32) :
    Closes E (ifcSetDefaultRoute ifname gateway) :=
  Closes.bind tidy_ifcInit fun _ => Closes.bind (closes_ifcActOnIpv4Route _ _ _ _ _).isTidy
    fun _ => closes_return _

/-- `ifc_remove_default_route` closes it. -/
theorem closes_ifcRemoveDefaultRoute (ifname : List UInt8) :
    Closes E (ifcRemoveDefaultRoute ifname) :=
  Closes.bind tidy_ifcInit fun _ => Closes.bind (stays_ioctl _).isTidy fun _ => closes_return _

/-- `ifc_configure` closes it, wherever it fails. -/
theorem closes_ifcConfigure (ifname : List UInt8)
    (address prefixLength gateway dns1 dns2 : UInt32) :
    Closes E (ifcConfigure ifname address prefixLength gateway dns1 dns2) := by
  refine Closes.bind tidy_ifcInit fun _ => ?_
  refine Closes.bind (stays_ifcSetFlags _ _ _).isTidy fun _ => Closes.ite (closes_return _) ?_
  refine Closes.bind (stays_ifcSetAddr _ _).isTidy fun _ => Closes.ite (closes_return _) ?_
  refine Closes.bind (stays_ifcSetPrefixLength _ _).isTidy fun _ => Closes.ite (closes_return _) ?_
  refine Closes.bind (closes_ifcActOnIpv4Route _ _ _ _ _).isTidy fun _ =>
    Closes.ite (closes_return _) ?_
  refine closes_ifcClose.bind_stays fun _ => ?_
  exact (stays_call fun _ _ => rfl).bind fun _ => (stays_call fun _ _ => rfl).bind
    fun _ => Stays.pure _

/-- `ifc_remove_host_routes` uses it properly; without a table it leaves it as it is. -/
theorem tidy_ifcRemoveHostRoutes (name : List UInt8) : IsTidy E (ifcRemoveHostRoutes name) := by
  refine IsTidy.bind (stays_call fun _ _ => rfl).isTidy fun contents => ?_
  cases contents with
  | none => exact IsTidy.pure _
  | some contents =>
    dsimp only
    cases skipHeader contents with
    | none => exact IsTidy.pure _
    | some body =>
      refine tidy_ifcInit.bind fun _ => (stays_removeLoop name _).isTidy.bind fun _ => ?_
      cases (scan body).undefined with
      | none => exact (closes_return _).isTidy
      | some u => exact IsTidy.pure _

/-- `ifc_get_default_route` uses it properly.

**Proof sketch.** The file is read first. If there is a table, the socket is opened, and closed
again unless a row is undefined. -/
private lemma tidy_ifcGetDefaultRoute (ifname : List UInt8) :
    IsTidy E (ifcGetDefaultRoute ifname) := by
  refine IsTidy.bind (stays_call fun _ _ => rfl).isTidy fun contents => ?_
  cases contents with
  | none => exact IsTidy.pure _
  | some contents =>
    dsimp only
    cases skipHeader contents with
    | none => exact IsTidy.pure _
    | some body =>
      refine tidy_ifcInit.bind fun _ => ?_
      cases (scan body).rows.find? (Route.isDefault ifname) with
      | none =>
        cases (scan body).undefined with
        | none => exact (closes_return _).isTidy
        | some u => exact IsTidy.pure _
      | some r => exact (closes_return _).isTidy

/-! ## Calls in any order -/

/-- A call of a function, with what it is given. -/
inductive Op where
  | init
  | close
  | getHwaddr (name : List UInt8)
  | getIfindex (name : List UInt8)
  | up (name : List UInt8)
  | down (name : List UInt8)
  | setAddr (name : List UInt8) (addr : UInt32)
  | setHwaddr (name : List UInt8) (hwaddr : Vector UInt8 6)
  | setMask (name : List UInt8) (mask : UInt32)
  | setPrefixLength (name : List UInt8) (prefixLength : ℤ)
  | getAddr (name : List UInt8)
  | getInfo (name : List UInt8)
  | clearIpv4Addresses (name : List UInt8)
  | createDefaultRoute (name : List UInt8) (gw : UInt32)
  | addHostRoute (name : List UInt8) (dst : UInt32)
  | enable (ifname : List UInt8)
  | disable (ifname : List UInt8)
  | removeHostRoutes (name : List UInt8)
  | getDefaultRoute (ifname : List UInt8)
  | setDefaultRoute (ifname : List UInt8) (gateway : UInt32)
  | removeDefaultRoute (ifname : List UInt8)
  | configure (ifname : List UInt8) (address prefixLength gateway dns1 dns2 : UInt32)

/-- A value that is not looked at. -/
def Net.ignore {ρ : Type} (x : Net ρ) : Net (Option Undefined) := do
  let _ ← x
  return none

/-- What is undefined in a value. -/
def Net.defined {ρ : Type} (x : Net (Except Undefined ρ)) : Net (Option Undefined) := do
  match ← x with
  | .ok _ => return none
  | .error u => return some u

/-- The call, and what is undefined in it. -/
def Op.perform : Op → Net (Option Undefined)
  | init => ifcInit.ignore
  | close => ifcClose.ignore
  | getHwaddr name => (ifcGetHwaddr name).ignore
  | getIfindex name => (ifcGetIfindex name).ignore
  | up name => (ifcUp name).ignore
  | down name => (ifcDown name).ignore
  | setAddr name addr => (ifcSetAddr name addr).ignore
  | setHwaddr name hwaddr => (ifcSetHwaddr name hwaddr).ignore
  | setMask name mask => (ifcSetMask name mask).ignore
  | setPrefixLength name prefixLength => (ifcSetPrefixLength name prefixLength).ignore
  | getAddr name => (ifcGetAddr name).ignore
  | getInfo name => (ifcGetInfo name).ignore
  | clearIpv4Addresses name => (ifcClearIpv4Addresses name).ignore
  | createDefaultRoute name gw => (ifcCreateDefaultRoute name gw).ignore
  | addHostRoute name dst => (ifcAddHostRoute name dst).ignore
  | enable ifname => (ifcEnable ifname).ignore
  | disable ifname => (ifcDisable ifname).ignore
  | removeHostRoutes name => (ifcRemoveHostRoutes name).defined
  | getDefaultRoute ifname => (ifcGetDefaultRoute ifname).defined
  | setDefaultRoute ifname gateway => (ifcSetDefaultRoute ifname gateway).ignore
  | removeDefaultRoute ifname => (ifcRemoveDefaultRoute ifname).ignore
  | configure ifname address prefixLength gateway dns1 dns2 =>
    (ifcConfigure ifname address prefixLength gateway dns1 dns2).ignore

/-- Calls one after the other, as long as everything is defined. -/
def operations : List Op → Net (Option Undefined)
  | [] => return none
  | op :: ops => do
    match ← op.perform with
    | none => operations ops
    | some u => return some u

/-- What is returned makes no difference. -/
lemma IsTidy.ignore {x : Net ρ} (hx : IsTidy E x) : IsTidy E x.ignore :=
  hx.bind fun _ => IsTidy.pure _

/-- Nor does looking at what is undefined. -/
lemma IsTidy.defined {x : Net (Except Undefined ρ)} (hx : IsTidy E x) : IsTidy E x.defined := by
  refine hx.bind fun r => ?_
  cases r with
  | ok r => exact IsTidy.pure _
  | error u => exact IsTidy.pure _

/-- Each of them uses the control socket properly.

**Proof sketch.** Each operation makes one request, or is a sequence of such, which the lemmas about
it put together. -/
lemma Op.isTidy (op : Op) : IsTidy E op.perform := by
  cases op with
  | init => exact tidy_ifcInit.ignore
  | close => exact closes_ifcClose.isTidy.ignore
  | getHwaddr name => exact ((stays_ifreq name _).bind fun _ => Stays.pure _).isTidy.ignore
  | getIfindex name => exact ((stays_ifreq name _).bind fun _ => Stays.pure _).isTidy.ignore
  | up name => exact (stays_ifcSetFlags name _ _).isTidy.ignore
  | down name => exact (stays_ifcSetFlags name _ _).isTidy.ignore
  | setAddr name addr => exact (stays_ifcSetAddr name addr).isTidy.ignore
  | setHwaddr name hwaddr => exact (stays_ifcSetHwaddr name hwaddr).isTidy.ignore
  | setMask name mask => exact ((stays_ifreq name _).bind fun _ => Stays.pure _).isTidy.ignore
  | setPrefixLength name prefixLength =>
    exact (stays_ifcSetPrefixLength name prefixLength).isTidy.ignore
  | getAddr name => exact (stays_ifcGetAddr name).isTidy.ignore
  | getInfo name => exact (stays_ifcGetInfo name).isTidy.ignore
  | clearIpv4Addresses name => exact (closes_ifcClearIpv4Addresses name).isTidy.ignore
  | createDefaultRoute name gw => exact (closes_ifcActOnIpv4Route _ _ _ _ _).isTidy.ignore
  | addHostRoute name dst => exact (closes_ifcActOnIpv4Route _ _ _ _ _).isTidy.ignore
  | enable ifname => exact (closes_ifcEnable ifname).isTidy.ignore
  | disable ifname => exact (closes_ifcDisable ifname).isTidy.ignore
  | removeHostRoutes name => exact (tidy_ifcRemoveHostRoutes name).defined
  | getDefaultRoute ifname => exact (tidy_ifcGetDefaultRoute ifname).defined
  | setDefaultRoute ifname gateway =>
    exact (closes_ifcSetDefaultRoute ifname gateway).isTidy.ignore
  | removeDefaultRoute ifname => exact (closes_ifcRemoveDefaultRoute ifname).isTidy.ignore
  | configure ifname address prefixLength gateway dns1 dns2 =>
    exact (closes_ifcConfigure ifname address prefixLength gateway dns1 dns2).isTidy.ignore

/-- Any calls use the socket properly, by induction on the calls. -/
private lemma tidy_operations (ops : List Op) : IsTidy E (operations ops) := by
  induction ops with
  | nil => exact IsTidy.pure _
  | cons op ops ih =>
    refine op.isTidy.bind fun r => ?_
    cases r with
    | none => exact ih
    | some u => exact IsTidy.pure _

/-- **The control socket**, for any calls in any order, and whatever the kernel returns: it is
opened only while it is closed, only the open one is closed, each request is made on the open one
or, while none is open, on none, and in the end the static variable is the open one. -/
theorem operations_tidy {ops : List Op} {errno : ℤ} {log : List (Sigma Answer)}
    {u : Option Undefined} {v : Vars}
    (h : ((operations ops).run ⟨-1, errno⟩).Runs log (u, v)) :
    ∃ q, run socketStep none log = some q ∧ v.ctlSock = q.elim (-1) fun n => (n : ℤ) :=
  tidy_operations (E := fun _ => True) ops ⟨-1, errno⟩ log u v none h (fun _ _ => trivial) rfl

/-- The socket is opened and closed. -/
theorem operations_tidy_init :
    run socketStep none [⟨.socket, .ok 3⟩, ⟨.close 3, ()⟩] = some none := by
  have h : ((operations [.init, .close]).run ⟨-1, 0⟩).Runs
      [⟨.socket, .ok 3⟩, ⟨.close 3, ()⟩] (none, ⟨-1, 0⟩) := ⟨_, _, rfl, _, _, rfl, rfl, rfl⟩
  obtain ⟨q, hrun, hv⟩ := operations_tidy h
  rw [hrun]
  cases q with
  | none => rfl
  | some fd => cases hv

end JzPretest.Netcfg

import JzPretest.TestWifi.DhcpHandshake
import JzPretest.TestWifi.Netcfg

set_option relaxedAutoImplicit false
set_option autoImplicit false

/-!
# What the command `dhcp` does to an interface

The requests that the kernel grants add up to a configuration of the interface. When `do_dhcp`
succeeds, this is what a server has said in one datagram.

## Main definitions

* `JzPretest.Netcfg.Config`, `JzPretest.Netcfg.configStep` — a configuration, as a log of calls
  tells it.
* `JzPretest.Netcfg.Config.Leased` — the configuration that a server has asked for.

## Main results

* `JzPretest.Netcfg.doDhcp_configures` — what `do_dhcp` leaves.
-/

namespace JzPretest.Netcfg

open Transition Calling Dhcp

/-! ## Configurations -/

/-- **The configuration of an interface**: what has been asked for and granted. -/
structure Config where
  hwaddr : Option (Vector UInt8 6)
  up : Bool
  addr : Option UInt32
  netmask : Option UInt32
  routes : List Rtentry
  lease : Option (Sigma ClientRun)
  properties : List (List UInt8 × List UInt8)

/-- Nothing has been asked for. -/
def Config.blank : Config := ⟨none, false, none, none, [], none, []⟩

/-- A request that is granted. -/
def Config.grant (c : Config) (a : Returned) : Request → Config
  | .setFlags flags => { c with up := flags &&& iffUp != 0 }
  | .setAddr addr => { c with addr := some addr }
  | .setNetmask mask => { c with netmask := some mask }
  | .getHwaddr => { c with hwaddr := some a.hwaddr }
  | _ => c

/-- The configuration after one more call. There is none when a request is for another interface, or
when the client is started for another hardware address, or on an interface that is not up, or that
has an address; a route that exists already is as good as one that is granted. -/
def configStep (iname : List UInt8) (c : Config) : Sigma Answer → Option Config
  | ⟨.ioctl _ (.interface name request), a⟩ =>
    if name = ifrName iname then some (if 0 ≤ Returned.result a then c.grant a request else c)
    else none
  | ⟨.ioctl _ (.addRoute rt), a⟩ =>
    if rt.dev = iname then
      some (if 0 ≤ Returned.result a ∨ Returned.errno a = eexist then
        { c with routes := c.routes ++ [rt] } else c)
    else none
  | ⟨.ioctl _ (.delRoute _), _⟩ => none
  | ⟨.dhcp hwaddr, r⟩ =>
    if c.hwaddr = some hwaddr ∧ c.up = true ∧ c.addr = some 0 then
      some { c with lease := some ⟨hwaddr, r⟩ }
    else none
  | ⟨.propertySet key value, _⟩ => some { c with properties := c.properties ++ [(key, value)] }
  | ⟨.socket, _⟩ | ⟨.close _, _⟩ => some c
  | ⟨.readRoutes, _⟩ | ⟨.readNames, _⟩ | ⟨.print _, _⟩ => none

/-- **The configuration that a server has asked for**: that of a run of the client which has ended
with what it has understood of a datagram. -/
structure Config.Leased (iname : List UInt8) (c : Config) (hwaddr : Vector UInt8 6)
    (r : ClientRun hwaddr) (info : DhcpInfo) : Prop where
  outcome : r.outcome = .configure info
  datagram : ∃ stack bytes bs, Event.datagram stack bytes ∈ r.events ∧
    payload stack bytes = some bs ∧ info = (infoOf bs).2
  prefixLength : 0 ≤ info.prefixLength.toInt32.toInt ∧ info.prefixLength.toInt32.toInt ≤ 32
  eq : c = {
    hwaddr := some hwaddr
    up := true
    addr := some info.ipaddr
    netmask := some (prefixLengthToIpv4Netmask info.prefixLength.toInt32.toInt)
    routes := [ipv4Route iname 0 0 info.gateway]
    lease := some ⟨hwaddr, r⟩
    properties := [(dnsPropName iname 49, dnsValue info.dns1),
      (dnsPropName iname 50, dnsValue info.dns2)] }

/-- A call that fails sets `errno`. -/
def SetsErrno : Sigma Answer → Prop
  | ⟨.socket, a⟩ => ∀ e, a = .error e → 0 < e
  | ⟨.ioctl _ _, a⟩ => Returned.result a < 0 → 0 < Returned.errno a
  | _ => True

/-! ## The rules -/

variable {iname : List UInt8}

/-- Programs under a kernel that sets `errno`, with the configuration of an interface. -/
abbrev Configures {ρ : Type} (iname : List UInt8) (P : Vars → Config → Prop) (x : Net ρ)
    (Q : ρ → Vars → Config → Prop) : Prop :=
  Follows SetsErrno (configStep iname) P x Q

/-- The configuration is this one; the control socket is open or not. -/
def At (c₀ : Config) (v : Vars) (c : Config) : Prop := c = c₀ ∧ -1 ≤ v.ctlSock

/-- The configuration is the first one before, and the second one after if all went well; the
properties are left alone. -/
def Gives (iname : List UInt8) (c₀ c₁ : Config) (x : Net ℤ) : Prop :=
  Configures iname (At c₀) x fun r v c =>
    At c v c ∧ c.properties = c₀.properties ∧ (r = 0 → c = c₁)

/-- A check. -/
lemma Gives.check {ρ : Type} {c₀ c₁ : Config} {x : Net ℤ} {y z : Net ρ}
    {Q : ρ → Vars → Config → Prop} (hx : Gives iname c₀ c₁ x)
    (hy : ∀ c, c.properties = c₀.properties → Configures iname (At c) y Q)
    (hz : Configures iname (At c₁) z Q) :
    Configures iname (At c₀) (do if (← x) ≠ 0 then y else z) Q := by
  refine Follows.bind hx fun r => ?_
  by_cases hr : r = 0
  · rw [if_neg (not_not.mpr hr)]
    exact hz.weaken _ fun _ _ h => ⟨h.2.2 hr, h.1.2⟩
  · rw [if_pos hr]
    refine Follows.fix fun c => Follows.assume (fun _ _ h => h.2 ▸ h.1.2.1) fun hc => ?_
    exact (hy c hc).weaken _ fun _ _ h => ⟨h.2, h.1.1.2⟩

/-- A request on the control socket. -/
lemma configures_ioctl {c₀ : Config} {request : Ioctl} {f : Returned → Config}
    (h : ∀ fd a, configStep iname c₀ ⟨.ioctl fd request, a⟩ = some (f a)) :
    Configures iname (At c₀) (ioctl request) fun a v c =>
      At (f a) v c ∧ (a.result < 0 → 0 < a.errno) := by
  refine follows_ioctl ?_
  rintro v c a ha ⟨rfl, hsock⟩
  refine ⟨f a, h _ a, ⟨rfl, ?_⟩, ha⟩
  split_ifs <;> exact hsock

/-- A request for this interface. -/
lemma configures_ifreq (c₀ : Config) (request : Request) :
    Configures iname (At c₀) (ifreq iname request) fun a v c =>
      At (if 0 ≤ a.result then c₀.grant a request else c₀) v c := by
  have hstep : ∀ fd a, configStep iname c₀ ⟨.ioctl fd (.interface (ifrName iname) request), a⟩ =
      some (if 0 ≤ Returned.result a then c₀.grant a request else c₀) := fun _ _ => if_pos rfl
  have hioctl := configures_ioctl (f := fun a => if 0 ≤ a.result then c₀.grant a request else c₀)
    hstep
  exact hioctl.post fun _ _ _ h => h.1

/-- A request sets no property, whether it is granted or not. -/
private lemma properties_grant (c : Config) (a : Returned) (request : Request) :
    (if 0 ≤ a.result then c.grant a request else c).properties = c.properties := by
  split_ifs
  · cases request <;> rfl
  · rfl

/-- A request whose result is returned. -/
lemma gives_ifreq (c₀ : Config) {request : Request} {c₁ : Config}
    (h : ∀ a, c₀.grant a request = c₁) :
    Gives iname c₀ c₁ (do let a ← ifreq iname request; return a.result) := by
  refine Follows.bind (configures_ifreq c₀ request) fun a => Follows.pure ?_
  rintro v c ⟨rfl, hsock⟩
  refine ⟨⟨rfl, hsock⟩, properties_grant c₀ a request, fun ha => ?_⟩
  rw [if_pos (by omega), h]

/-- `ifc_set_addr` gives the interface an address. -/
lemma gives_ifcSetAddr (c₀ : Config) (addr : UInt32) :
    Gives iname c₀ { c₀ with addr := some addr } (ifcSetAddr iname addr) :=
  gives_ifreq c₀ fun _ => rfl

/-- The flag is set. -/
private lemma or_iffUp (flags : UInt16) : (flags ||| iffUp) &&& iffUp = iffUp := by
  apply UInt16.toBitVec_inj.mp
  ext i hi
  rw [UInt16.toBitVec_and, UInt16.toBitVec_or, BitVec.getElem_and, BitVec.getElem_or]
  cases iffUp.toBitVec[i] <;> simp

/-- A failure gives nothing. -/
lemma gives_pure {c₀ c₁ : Config} {r : ℤ} (h : r ≠ 0) : Gives iname c₀ c₁ (pure r) := by
  refine Follows.pure ?_
  rintro v c ⟨rfl, hsock⟩
  exact ⟨⟨rfl, hsock⟩, rfl, fun hr => absurd hr h⟩

/-- An interface with the flag is up. -/
private lemma grant_iffUp (c : Config) (a : Returned) (flags : UInt16) :
    c.grant a (.setFlags (flags ||| iffUp)) = { c with up := true } := by
  have hup : ((flags ||| iffUp) &&& iffUp != 0) = true := by
    rw [or_iffUp flags]
    decide
  exact congrArg (fun b => { c with up := b }) hup

/-- `ifc_up` turns the interface on. -/
lemma gives_ifcUp (c₀ : Config) : Gives iname c₀ { c₀ with up := true } (ifcUp iname) := by
  refine Follows.bind (configures_ifreq c₀ .getFlags) fun a => ?_
  have hgrant : (if 0 ≤ a.result then c₀.grant a .getFlags else c₀) = c₀ := ite_self _
  rw [hgrant]
  by_cases ha : a.result < 0
  · rw [if_pos ha]
    exact gives_pure (by decide)
  · rw [if_neg ha]
    exact gives_ifreq c₀ fun b => grant_iffUp c₀ b _

/-- `ifc_set_prefixLength` gives it the net mask of the length. -/
private lemma gives_ifcSetPrefixLength (c₀ : Config) {prefixLength : ℤ}
    (hrange : 0 ≤ prefixLength ∧ prefixLength ≤ 32) :
    Gives iname c₀ { c₀ with netmask := some (prefixLengthToIpv4Netmask prefixLength) }
      (ifcSetPrefixLength iname prefixLength) := by
  unfold ifcSetPrefixLength
  rw [if_neg (by omega)]
  exact gives_ifreq c₀ fun _ => rfl

/-- `ifc_init` configures nothing, and it sets `errno` if there is no socket after it.

**Proof sketch.** The socket may be open already. If it is not, one is opened, or the call fails and
says why. -/
lemma configures_ifcInit (c₀ : Config) :
    Configures iname (At c₀) ifcInit fun _ v c => At c₀ v c ∧ (v.ctlSock < 0 → 0 < v.errno) := by
  have hret : Configures iname (fun v c => At c₀ v c ∧ (v.ctlSock < 0 → 0 < v.errno))
      (do let v ← get; return if v.ctlSock < 0 then -1 else 0 : Net ℤ)
      fun _ v c => At c₀ v c ∧ (v.ctlSock < 0 → 0 < v.errno) :=
    Follows.bind (Follows.get fun _ _ h => h) fun _ => Follows.pure fun _ _ h => h
  refine Follows.get_bind fun u => ?_
  dsimp only
  split_ifs with hsock
  · refine Follows.bind (R := fun a v c => c = c₀ ∧ ∀ e, a = Except.error e → 0 < e)
      (Follows.call ?_) fun a => ?_
    · rintro v c a ha ⟨⟨rfl, -⟩, -⟩
      exact ⟨c, rfl, rfl, ha⟩
    · cases a with
      | ok fd =>
        refine Follows.bind (Follows.set ?_) fun _ => hret
        rintro v c ⟨hc, -⟩
        exact ⟨⟨hc, by dsimp only; omega⟩, fun hneg => by dsimp only at hneg; omega⟩
      | error e =>
        refine Follows.bind (Follows.set ?_) fun _ => hret
        rintro v c ⟨hc, he⟩
        exact ⟨⟨hc, le_of_eq hsock.symm⟩, fun _ => he e rfl⟩
  · refine hret.weaken _ ?_
    rintro v c ⟨⟨hc, hle⟩, rfl⟩
    exact ⟨⟨hc, hle⟩, fun hneg => by omega⟩

/-- `ifc_close` configures nothing. -/
lemma configures_ifcClose (c₀ : Config) :
    Configures iname (At c₀) ifcClose fun _ => At c₀ := by
  refine Follows.get_bind fun u => ?_
  split_ifs with hsock
  · refine Follows.bind (R := fun _ _ c => c = c₀) (Follows.call ?_) fun _ => Follows.set ?_
    · rintro v c a - ⟨⟨rfl, -⟩, -⟩
      exact ⟨c, rfl, rfl⟩
    · rintro v c rfl
      exact ⟨rfl, le_refl _⟩
  · exact Follows.pure fun _ _ h => h.1

/-- Nor does a value that is returned after it. -/
lemma configures_return {ρ : Type} (c₀ : Config) (r : ρ) :
    Configures iname (At c₀) (do ifcClose; return r : Net ρ) fun r' v c => At c₀ v c ∧ r' = r :=
  Follows.bind (configures_ifcClose c₀) fun _ => Follows.pure fun _ _ h => ⟨h, rfl⟩

/-- `ifc_create_default_route` gives the interface a route, which may be there already.

**Proof sketch.** Without a socket it returns a negative number, since `errno` is positive. Else the
request is granted, or it is refused: with `EEXIST`, which counts as granted, or with another
`errno`, which is returned. -/
private lemma gives_ifcCreateDefaultRoute (c₀ : Config) (gw : UInt32) :
    Gives iname c₀ { c₀ with routes := c₀.routes ++ [ipv4Route iname 0 0 gw] }
      (ifcCreateDefaultRoute iname gw) := by
  refine Follows.bind (configures_ifcInit c₀) fun _ => ?_
  refine Follows.get_bind fun u => ?_
  by_cases hsock : u.ctlSock < 0
  · rw [if_pos hsock]
    refine Follows.assume (p := 0 < u.errno) (fun v c h => h.2 ▸ h.1.2 (h.2 ▸ hsock)) fun he => ?_
    exact (gives_pure (by omega)).weaken _ fun _ _ h => h.1.1
  · rw [if_neg hsock]
    have hstep : ∀ fd a, configStep iname c₀ ⟨.ioctl fd (.addRoute (ipv4Route iname 0 0 gw)), a⟩ =
        some (if 0 ≤ Returned.result a ∨ Returned.errno a = eexist then
          { c₀ with routes := c₀.routes ++ [ipv4Route iname 0 0 gw] } else c₀) :=
      fun _ _ => if_pos rfl
    have hioctl := configures_ioctl (f := fun a => if 0 ≤ a.result ∨ a.errno = eexist then
      { c₀ with routes := c₀.routes ++ [ipv4Route iname 0 0 gw] } else c₀) hstep
    refine Follows.bind (hioctl.weaken _ fun _ _ h => h.1.1) fun a => ?_
    refine Follows.assume (p := a.result < 0 → 0 < a.errno) (fun _ _ h => h.2) fun ha => ?_
    refine Follows.imp (configures_return _ _) (fun _ _ h => h.1) ?_
    rintro r v c ⟨⟨rfl, hsock⟩, rfl⟩
    refine ⟨⟨rfl, hsock⟩, by split_ifs <;> rfl, fun hr => if_pos ?_⟩
    by_cases hneg : a.result < 0
    · rw [if_pos hneg] at hr
      have := ha hneg
      refine .inr (by_contra fun he => ?_)
      rw [if_neg he] at hr
      omega
    · exact .inl (by omega)

/-! ## The command -/

/-- One more property is set. -/
private lemma configures_propertySet (c₀ : Config) (key value : List UInt8) :
    Configures iname (At c₀) (propertySet key value)
      fun _ => At { c₀ with properties := c₀.properties ++ [(key, value)] } := by
  refine Follows.call ?_
  rintro v c a - ⟨rfl, hsock⟩
  exact ⟨_, rfl, rfl, hsock⟩

/-- The configuration with what a server has said. -/
def Config.configured (iname : List UInt8) (c : Config) (info : DhcpInfo) : Config := {
  c with
  up := true
  addr := some info.ipaddr
  netmask := some (prefixLengthToIpv4Netmask info.prefixLength.toInt32.toInt)
  routes := c.routes ++ [ipv4Route iname 0 0 info.gateway]
  properties := c.properties ++ [(dnsPropName iname 49, dnsValue info.dns1),
    (dnsPropName iname 50, dnsValue info.dns2)] }

/-- What a command that fails leaves, and one that does not. -/
def Finishes (c₀ : Config) (p : Config → Prop) (r : ℤ) (_ : Vars) (c : Config) : Prop :=
  (r ≠ 0 → c.properties = c₀.properties) ∧ (r = 0 → p c)

/-- A failure leaves the properties. -/
private lemma finishes_failed {c₀ c : Config} {p : Config → Prop}
    (hc : c.properties = c₀.properties) :
    Configures iname (At c) (do ifcClose; return -1 : Net ℤ) (Finishes c₀ p) := by
  refine Follows.post (configures_return c (-1)) ?_
  rintro r v c ⟨⟨rfl, -⟩, rfl⟩
  exact ⟨fun _ => hc, fun hr => by cases hr⟩

/-- `dhcp_configure` configures the interface with what it is called with, if it succeeds.

**Proof sketch.** Each of the four steps gives the interface its part or ends with a failure, before
any property is set. The length of the prefix has to be in range, or the third step fails. -/
private lemma configures_dhcpConfigure (c₀ : Config) (info : DhcpInfo) :
    Configures iname (At c₀) (dhcpConfigure iname info) (Finishes c₀ fun c =>
      c = c₀.configured iname info ∧
        0 ≤ info.prefixLength.toInt32.toInt ∧ info.prefixLength.toInt32.toInt ≤ 32) := by
  refine Follows.bind (configures_ifcInit c₀) fun _ => ?_
  refine Follows.weaken (At c₀) (fun _ _ h => h.1) ?_
  refine (gives_ifcUp c₀).check (fun c hc => finishes_failed hc) ?_
  refine (gives_ifcSetAddr _ _).check (fun c hc => finishes_failed hc) ?_
  by_cases hrange : 0 ≤ info.prefixLength.toInt32.toInt ∧ info.prefixLength.toInt32.toInt ≤ 32
  · refine (gives_ifcSetPrefixLength _ hrange).check (fun c hc => finishes_failed hc) ?_
    refine (gives_ifcCreateDefaultRoute _ _).check (fun c hc => finishes_failed hc) ?_
    refine Follows.bind (configures_ifcClose _) fun _ => ?_
    refine Follows.bind (configures_propertySet _ _ _) fun _ => ?_
    refine Follows.bind (configures_propertySet _ _ _) fun _ => Follows.pure ?_
    rintro v c ⟨rfl, -⟩
    refine ⟨fun hr => absurd rfl hr, fun _ => ⟨?_, hrange⟩⟩
    simp [Config.configured]
  · have hfail : ifcSetPrefixLength iname info.prefixLength.toInt32.toInt = pure (-1) :=
      if_pos (by omega)
    rw [hfail, pure_bind, if_pos (by decide)]
    exact finishes_failed rfl

/-- What the client has been told.

**Proof sketch.** By the way in which the session of the client ends (`client_ends`): it has been
granted what the last datagram says, or takes what was heard last for granted. -/
lemma ClientRun.outcome_said {hwaddr : Vector UInt8 6} (r : ClientRun hwaddr)
    {info : DhcpInfo} (h : r.outcome = .configure info) :
    ∃ stack bytes bs, Event.datagram stack bytes ∈ r.events ∧
      payload stack bytes = some bs ∧ info = (infoOf bs).2 := by
  have hrun := r.run_eq
  rw [h] at hrun
  obtain ⟨before, e, s, hevents, hknows, hends⟩ := client_ends hrun
  generalize he : signal e = a at hends
  generalize r.client.closed = closed at hends
  cases hends with
  | unacknowledged htype =>
    obtain ⟨earlier, stack, bytes, bs, hearlier, hpayload, hinfo⟩ :=
      exists_datagram_of_lastWrite (hknows.lastWrite_of_type htype)
    refine ⟨stack, bytes, bs, ?_, hpayload, hinfo⟩
    have hmem := hearlier.subset (List.mem_append_right earlier (List.mem_singleton_self _))
    rw [hevents]
    exact List.mem_append_left [e] hmem
  | granted hphase hvalid htype =>
    obtain ⟨stack, bytes, rfl, hpayload⟩ := signal_eq_message he
    exact ⟨stack, bytes, _, by rw [hevents]; simp, hpayload, rfl⟩

/-- So does one with an open socket. -/
lemma finishes_pure {c₀ c : Config} {p : Config → Prop} (hc : c.properties = c₀.properties) :
    Configures iname (At c) (pure (-1) : Net ℤ) (Finishes c₀ p) := by
  refine Follows.pure ?_
  rintro v c ⟨rfl, -⟩
  exact ⟨fun _ => hc, fun hr => by cases hr⟩

/-- `ifc_get_hwaddr` finds the hardware address, if it finds any. -/
private lemma configures_ifcGetHwaddr (c₀ : Config) :
    Configures iname (At c₀) (ifcGetHwaddr iname) fun hwaddr =>
      At (hwaddr.elim c₀ fun hwaddr => { c₀ with hwaddr := some hwaddr }) := by
  refine Follows.bind (configures_ifreq c₀ .getHwaddr) fun a => Follows.pure ?_
  rintro v c ⟨rfl, hsock⟩
  refine ⟨?_, hsock⟩
  by_cases ha : a.result < 0
  · rw [if_neg (by omega), if_pos ha]
    rfl
  · rw [if_pos (by omega), if_neg ha]
    rfl

/-- `ifc_get_ifindex` configures nothing. -/
private lemma gives_ifcGetIfindex (c₀ : Config) : Gives iname c₀ c₀ (ifcGetIfindex iname) := by
  refine Follows.bind (configures_ifreq c₀ .getIfindex) fun a => Follows.pure ?_
  have hgrant : (if 0 ≤ a.result then c₀.grant a .getIfindex else c₀) = c₀ := ite_self _
  rw [hgrant]
  rintro v c ⟨rfl, hsock⟩
  exact ⟨⟨rfl, hsock⟩, rfl, fun _ => rfl⟩

/-- What is configured by the client, for the hardware address of the interface.

**Proof sketch.** In the order of the calls: the hardware address is read, the index asked for, the
client started, and what it returns is configured (`configures_dhcpConfigure`). -/
private lemma configures_dhcpInitIfc {c₀ : Config} (hup : c₀.up = true) (haddr : c₀.addr = some 0) :
    Configures iname (At c₀) (dhcpInitIfc iname) (Finishes c₀ fun c =>
      ∃ (hwaddr : Vector UInt8 6) (r : ClientRun hwaddr) (info : DhcpInfo),
        r.outcome = .configure info ∧
        (0 ≤ info.prefixLength.toInt32.toInt ∧ info.prefixLength.toInt32.toInt ≤ 32) ∧
        c = Config.configured iname { c₀ with hwaddr := some hwaddr, lease := some ⟨hwaddr, r⟩ }
          info) := by
  refine Follows.bind (configures_ifcGetHwaddr c₀) fun hwaddr => ?_
  cases hwaddr with
  | none => exact finishes_pure rfl
  | some hwaddr =>
    refine (gives_ifcGetIfindex { c₀ with hwaddr := some hwaddr }).check
      (fun c hc => finishes_pure hc) ?_
    refine Follows.bind (R := fun r =>
      At { c₀ with hwaddr := some hwaddr, lease := some ⟨hwaddr, r⟩ }) (Follows.call ?_) fun r => ?_
    · rintro v c r - ⟨rfl, hsock⟩
      exact ⟨_, if_pos ⟨rfl, hup, haddr⟩, rfl, hsock⟩
    · cases houtcome : r.outcome with
      | failed => exact finishes_pure rfl
      | configure info =>
        refine Follows.post (configures_dhcpConfigure _ info) ?_
        rintro n v c ⟨hfail, hdone⟩
        refine ⟨hfail, fun hn => ?_⟩
        obtain ⟨hc, hrange⟩ := hdone hn
        exact ⟨hwaddr, r, info, houtcome, hrange, hc⟩

/-- Any client can be granted something.

**Proof sketch.** A session that hears an offer and an acknowledgement at once
(`session_handshake`), with messages that hold nothing but their type. -/
theorem exists_granted (hwaddr : Vector UInt8 6) : ∃ (r : ClientRun hwaddr) (info : DhcpInfo),
    r.outcome = .configure info ∧ info.prefixLength = 0 := by
  have hoffer := fromServer_typeItem hwaddr 7 9 dhcpOffer
  have hack := fromServer_typeItem hwaddr (7 + 1) 9 dhcpAck
  obtain ⟨offer, hofferBytes⟩ := hoffer.exists_delivers
  obtain ⟨ack, hackBytes⟩ := hack.exists_delivers
  have hnil : ∀ a ∈ ([] : List Signal), a = .noise ∨ a = .silence := by simp
  obtain ⟨s, hsession, -⟩ := session_handshake .zero hnil (by simp) hnil (by simp)
    hoffer.validReply (by rw [hoffer.infoOf]; rfl) hack.validReply (by rw [hack.infoOf]; rfl)
  let stack : DhcpPacket := ⟨⟨1288, fun _ => 0⟩, rfl⟩
  rw [← signal_of_delivers hofferBytes hoffer.le stack,
    ← signal_of_delivers hackBytes hack.le stack] at hsession
  obtain ⟨c, hclient, -⟩ := @exists_client hwaddr 7 .zero
    [.datagram stack offer, .datagram stack ack] _ _ _ hsession .zero .zero .zero
  refine ⟨⟨7, .zero, .zero, .zero, .zero, _, _, c, hclient⟩, _, rfl, ?_⟩
  rw [hack.infoOf]
  rfl

/-- **What `do_dhcp` leaves**, whatever the kernel grants, when its calls set `errno` as they fail:
if it succeeds, the interface has been configured with what a server has said in one datagram, its
address, prefix, default route and name servers. All requests have been for this interface, and the
client has only been started for its hardware address, while it was up and had no address. If
`do_dhcp` fails, it has set no properties.

**Proof sketch.** In the order of the calls: the address is set to zero, the interface turned on,
and the client configures it (`configures_dhcpInitIfc`). What it configures has been said in one
datagram (`ClientRun.outcome_said`). -/
theorem doDhcp_configures {v₀ v : Vars} {log : List (Sigma Answer)} {r : ℤ}
    (h : ((doDhcp iname).run v₀).Runs log (r, v)) (hsock : -1 ≤ v₀.ctlSock)
    (hE : ∀ e ∈ log, SetsErrno e) :
    ∃ c, run (configStep iname) Config.blank log = some c ∧
      (r ≠ 0 → c.properties = []) ∧
      (r = 0 → ∃ hwaddr lease info, c.Leased iname hwaddr lease info) := by
  have hdo : Configures iname (At .blank) (doDhcp iname) (Finishes .blank fun c =>
      ∃ hwaddr lease info, c.Leased iname hwaddr lease info) := by
    refine (gives_ifcSetAddr _ 0).check (fun c hc => finishes_pure hc) ?_
    refine (gives_ifcUp _).check (fun c hc => finishes_pure hc) ?_
    refine Follows.post (configures_dhcpInitIfc rfl rfl) ?_
    rintro n v c ⟨hfail, hdone⟩
    refine ⟨hfail, fun hn => ?_⟩
    obtain ⟨hwaddr, lease, info, houtcome, hrange, rfl⟩ := hdone hn
    exact ⟨hwaddr, lease, info, houtcome, lease.outcome_said houtcome, hrange, rfl⟩
  obtain ⟨c, hrun, hfail, hdone⟩ := hdo v₀ log r v .blank h hE ⟨rfl, hsock⟩
  exact ⟨c, hrun, hfail, hdone⟩

/-- A request on the third descriptor that is granted. -/
def granted (request : Ioctl) : Sigma Answer :=
  ⟨.ioctl 3 request, ⟨0, 0, 0, 0, .replicate 6 0⟩⟩

/-- An interface for which a server grants something.

**Proof sketch.** The run is given call by call, with a client that is granted something
(`exists_granted`), and `doDhcp_configures` applies to it. -/
theorem doDhcp_configures_granted : ∃ (log : List (Sigma Answer)) (c : Config)
    (hwaddr : Vector UInt8 6) (lease : ClientRun hwaddr) (info : DhcpInfo),
    run (configStep (text ['l', 'o'])) Config.blank log = some c ∧
      c.Leased (text ['l', 'o']) hwaddr lease info := by
  obtain ⟨⟨xid, info₀, discoverMsg, requestMsg, reply, events, outcome, client, run_eq⟩, info, h,
    hprefix⟩ := exists_granted (.replicate 6 0)
  dsimp only at h
  subst h
  obtain ⟨type, ipaddr, gateway, prefixLength, dns1, dns2, serveraddr, lease⟩ := info
  dsimp only at hprefix
  subst hprefix
  have hrun : ((doDhcp (text ['l', 'o'])).run ⟨3, 0⟩).Runs
      [granted (.interface (text ['l', 'o']) (.setAddr 0)),
        granted (.interface (text ['l', 'o']) .getFlags),
        granted (.interface (text ['l', 'o']) (.setFlags 1)),
        granted (.interface (text ['l', 'o']) .getHwaddr),
        granted (.interface (text ['l', 'o']) .getIfindex),
        ⟨.dhcp (.replicate 6 0), ⟨xid, info₀, discoverMsg, requestMsg, reply, events, _, client,
          run_eq⟩⟩,
        granted (.interface (text ['l', 'o']) .getFlags),
        granted (.interface (text ['l', 'o']) (.setFlags 1)),
        granted (.interface (text ['l', 'o']) (.setAddr ipaddr)),
        granted (.interface (text ['l', 'o']) (.setNetmask 0)),
        granted (.addRoute (ipv4Route (text ['l', 'o']) 0 0 gateway)),
        ⟨.close 3, ()⟩,
        ⟨.propertySet (dnsPropName (text ['l', 'o']) 49) (dnsValue dns1), ()⟩,
        ⟨.propertySet (dnsPropName (text ['l', 'o']) 50) (dnsValue dns2), ()⟩] (0, ⟨-1, 0⟩) := by
    exact ⟨_, _, rfl, _, _, rfl, _, _, rfl, _, _, rfl, _, _, rfl, _, _, rfl, _, _, rfl, _, _, rfl,
      _, _, rfl, _, _, rfl, _, _, rfl, _, _, rfl, _, _, rfl, _, _, rfl, rfl, rfl⟩
  have hgranted : ∀ request, SetsErrno (granted request) := fun request h => by cases h
  obtain ⟨c, hlog, -, hleased⟩ := doDhcp_configures hrun (by decide) (by
    simp only [List.forall_mem_cons, hgranted, true_and]
    exact ⟨trivial, trivial, trivial, trivial, fun _ h => by cases h⟩)
  obtain ⟨hwaddr, lease, info, hleased⟩ := hleased rfl
  exact ⟨_, c, hwaddr, lease, info, hlog, hleased⟩

end JzPretest.Netcfg

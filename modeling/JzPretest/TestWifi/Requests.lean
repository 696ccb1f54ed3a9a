import JzPretest.TestWifi.Netcfg

set_option relaxedAutoImplicit false
set_option autoImplicit false

/-!
# What `netcfg` requests

`netcfg` is for one interface: nothing is requested for another one. The kernel takes fifteen bytes
of its name, though `netcfg` admits sixteen.

## Main definitions

* `JzPretest.Netcfg.requested` — the requests in a log.
* `JzPretest.Netcfg.Ioctl.About` — the requests for an interface.
* `JzPretest.Netcfg.Keeps`, `JzPretest.Netcfg.Concerns` — functions that request nothing, and
  nothing for another interface.

## Main results

* `JzPretest.Netcfg.main_requests` — all requests are for the interface.
-/

namespace JzPretest.Netcfg

open Transition Calling Dhcp

/-- The request of a call. -/
def requested : Sigma Answer → Option Ioctl
  | ⟨.ioctl _ request, _⟩ => some request
  | _ => none

variable {E : Sigma Answer → Prop} {ρ τ : Type}

/-! ## Functions that request nothing -/

/-- Nothing is requested. -/
def Keeps (E : Sigma Answer → Prop) (x : Net ρ) : Prop :=
  ∀ l₀, Follows E (collect requested) (fun _ l => l = l₀) x fun _ _ l => l = l₀

/-- A value requests nothing. -/
lemma Keeps.pure (r : ρ) : Keeps E (Pure.pure r : Net ρ) :=
  fun _ => Follows.pure fun _ _ h => h

/-- Two parts that request nothing, one after the other. -/
lemma Keeps.bind {x : Net ρ} {f : ρ → Net τ} (hx : Keeps E x) (hf : ∀ a, Keeps E (f a)) :
    Keeps E (x >>= f) :=
  fun l₀ => (hx l₀).bind fun a => hf a l₀

/-- A call that is no request. -/
lemma keeps_call {c : Call} (h : ∀ a, requested ⟨c, a⟩ = none) :
    Keeps E (Calling.call c : Net (Answer c)) := by
  intro l₀
  refine Follows.call fun v l a _ hl => ⟨l, ?_, hl⟩
  rw [collect, h, Option.toList_none, List.append_nil]

/-- Reading the variables is no request. -/
lemma Keeps.get {f : Vars → Net ρ} (hf : ∀ v, Keeps E (f v)) :
    Keeps E (MonadState.get >>= f) :=
  fun l₀ => Follows.bind (Follows.get fun _ _ h => h) fun v => hf v l₀

/-- Writing them is none. -/
lemma Keeps.set {f : PUnit → Net ρ} (v : Vars) (hf : ∀ u, Keeps E (f u)) :
    Keeps E (MonadStateOf.set v >>= f) :=
  fun l₀ => Follows.bind (Follows.set fun _ _ h => h) fun u => hf u l₀

/-- `ifc_init` requests nothing. -/
theorem keeps_ifcInit : Keeps E ifcInit := by
  have hret : Keeps E (do let v ← get; return if v.ctlSock < 0 then -1 else 0 : Net ℤ) :=
    Keeps.get fun _ => Keeps.pure _
  refine Keeps.get fun u => ?_
  dsimp only
  split_ifs with hsock
  · refine Keeps.bind (keeps_call fun _ => rfl) fun a => ?_
    cases a with
    | ok fd => exact Keeps.set _ fun _ => hret
    | error e => exact Keeps.set _ fun _ => hret
  · exact hret

/-- `ifc_close` requests nothing. -/
theorem keeps_ifcClose : Keeps E ifcClose := by
  refine Keeps.get fun u => ?_
  split_ifs
  · exact Keeps.bind (keeps_call fun _ => rfl) fun _ l₀ => Follows.set fun _ _ h => h
  · exact Keeps.pure _

/-! ## Functions that concern one interface -/

/-- The requests for an interface; those for a route have the whole of its name. -/
def Ioctl.About (iname : List UInt8) : Ioctl → Prop
  | .interface name _ => name = ifrName iname
  | .addRoute rt => rt.dev = iname
  | .delRoute rt => rt.dev = iname

variable {iname : List UInt8}

/-- All requests are for this interface. -/
def AllAbout (iname : List UInt8) (_ : Vars) (l : List Ioctl) : Prop :=
  ∀ request ∈ l, request.About iname

/-- Nothing is requested for another interface. -/
def Concerns (E : Sigma Answer → Prop) (iname : List UInt8) (x : Net ρ) : Prop :=
  Follows E (collect requested) (AllAbout iname) x fun _ => AllAbout iname

/-- What requests nothing requests nothing for another interface. -/
lemma Keeps.concerns {x : Net ρ} (hx : Keeps E x) : Concerns E iname x := by
  refine Follows.fix fun l₀ => ?_
  refine Follows.assume (p := ∀ request ∈ l₀, request.About iname) ?_ fun hl₀ => ?_
  · rintro v l ⟨h, rfl⟩
    exact h
  · refine (hx l₀).imp (fun _ _ h => h.2) ?_
    rintro r v l rfl
    exact hl₀

namespace Concerns

/-- A value requests nothing. -/
lemma pure (r : ρ) : Concerns E iname (Pure.pure r : Net ρ) :=
  (Keeps.pure r).concerns

/-- Two parts that concern the interface, one after the other. -/
lemma bind {x : Net ρ} {f : ρ → Net τ} (hx : Concerns E iname x)
    (hf : ∀ a, Concerns E iname (f a)) : Concerns E iname (x >>= f) :=
  Follows.bind hx hf

/-- Reading the variables concerns nothing. -/
private lemma get {f : Vars → Net ρ} (hf : ∀ v, Concerns E iname (f v)) :
    Concerns E iname (MonadState.get >>= f) :=
  Follows.bind (Follows.get fun _ _ h => h) hf

/-- A function of what is returned. -/
private lemma map {x : Net ρ} (hx : Concerns E iname x) (f : ρ → τ) : Concerns E iname (f <$> x) :=
  Follows.map hx

/-- Either branch concerns the interface. -/
lemma ite {c : Prop} [Decidable c] {x y : Net ρ} (hx : Concerns E iname x)
    (hy : Concerns E iname y) : Concerns E iname (if c then x else y) := by
  split_ifs
  · exact hx
  · exact hy

end Concerns

/-- A request for the interface. -/
lemma concerns_ioctl {request : Ioctl} (h : request.About iname) :
    Concerns E iname (ioctl request) := by
  refine follows_ioctl fun v l a _ hl => ⟨l ++ [request], rfl, ?_⟩
  intro r hr
  rcases List.mem_append.mp hr with hr | hr
  · exact hl r hr
  · rw [List.mem_singleton.mp hr]
    exact h

/-- A request with its name. -/
lemma concerns_ifreq (request : Request) : Concerns E iname (ifreq iname request) :=
  concerns_ioctl rfl

/-- `ifc_set_flags` concerns the interface. -/
lemma concerns_ifcSetFlags (set clr : UInt16) : Concerns E iname (ifcSetFlags iname set clr) :=
  (concerns_ifreq _).bind fun _ => Concerns.ite (Concerns.pure _)
    ((concerns_ifreq _).bind fun _ => Concerns.pure _)

/-- `ifc_set_addr` concerns it. -/
lemma concerns_ifcSetAddr (addr : UInt32) : Concerns E iname (ifcSetAddr iname addr) :=
  (concerns_ifreq _).bind fun _ => Concerns.pure _

/-- Closing the socket concerns nothing. -/
lemma concerns_return (r : ρ) : Concerns E iname (do ifcClose; return r : Net ρ) :=
  keeps_ifcClose.concerns.bind fun _ => Concerns.pure r

/-- `ifc_act_on_ipv4_route` concerns the interface of its route. -/
private lemma concerns_ifcActOnIpv4Route {action : Rtentry → Ioctl}
    (haction : ∀ rt, rt.dev = iname → (action rt).About iname) (dst : UInt32) (prefixLength : ℤ)
    (gw : UInt32) : Concerns E iname (ifcActOnIpv4Route action iname dst prefixLength gw) := by
  refine keeps_ifcInit.concerns.bind fun _ => Concerns.get fun v => ?_
  refine Concerns.ite (Concerns.pure _) ?_
  exact (concerns_ioctl (haction _ rfl)).bind fun _ => concerns_return _

/-- `ifc_configure` concerns the interface. -/
private lemma concerns_ifcConfigure (address prefixLength gateway dns1 dns2 : UInt32) :
    Concerns E iname (ifcConfigure iname address prefixLength gateway dns1 dns2) := by
  have hset : ∀ key value, Concerns E iname (propertySet key value) :=
    fun key value => (keeps_call fun _ => rfl).concerns
  refine keeps_ifcInit.concerns.bind fun _ => ?_
  refine (concerns_ifcSetFlags _ _).bind fun _ => Concerns.ite (concerns_return _) ?_
  refine (concerns_ifcSetAddr _).bind fun _ => Concerns.ite (concerns_return _) ?_
  refine Concerns.bind (Concerns.ite (Concerns.pure _)
    ((concerns_ifreq _).bind fun _ => Concerns.pure _)) fun _ => Concerns.ite (concerns_return _) ?_
  refine Concerns.bind ?_ fun _ => Concerns.ite (concerns_return _) ?_
  · exact concerns_ifcActOnIpv4Route (fun rt h => show Ioctl.About iname (.addRoute rt) from h)
      _ _ _
  refine keeps_ifcClose.concerns.bind fun _ => ?_
  exact (hset _ _).bind fun _ => (hset _ _).bind fun _ => Concerns.pure _

/-- `do_dhcp` concerns it. -/
private lemma concerns_doDhcp : Concerns E iname (doDhcp iname) := by
  refine (concerns_ifcSetAddr _).bind fun _ => Concerns.ite (Concerns.pure _) ?_
  refine (concerns_ifcSetFlags _ _).bind fun _ => Concerns.ite (Concerns.pure _) ?_
  refine Concerns.bind ((concerns_ifreq _).bind fun _ => Concerns.pure _) fun hwaddr => ?_
  cases hwaddr with
  | none => exact Concerns.pure _
  | some hwaddr =>
    refine Concerns.bind ((concerns_ifreq _).bind fun _ => Concerns.pure _) fun r => ?_
    refine Concerns.ite (Concerns.pure _) ?_
    refine Concerns.bind (keeps_call fun _ => rfl).concerns fun r => ?_
    cases r.outcome with
    | failed => exact Concerns.pure _
    | configure info => exact concerns_ifcConfigure _ _ _ _ _

/-- The loop that removes routes concerns it, by induction on the rows. -/
private lemma concerns_removeLoop (rows : List Route) :
    Concerns E iname (removeLoop iname rows) := by
  induction rows with
  | nil => exact Concerns.pure _
  | cons r rows ih =>
    refine Concerns.ite ?_ ih
    have habout : Ioctl.About iname (.delRoute (r.removed iname)) := rfl
    exact (concerns_ioctl habout).bind fun _ => ih

/-- `ifc_remove_host_routes` concerns it. -/
private lemma concerns_ifcRemoveHostRoutes : Concerns E iname (ifcRemoveHostRoutes iname) := by
  refine Concerns.bind (keeps_call fun _ => rfl).concerns fun contents => ?_
  cases contents with
  | none => exact Concerns.pure _
  | some contents =>
    dsimp only
    cases skipHeader contents with
    | none => exact Concerns.pure _
    | some body =>
      refine keeps_ifcInit.concerns.bind fun _ => (concerns_removeLoop _).bind fun _ => ?_
      cases (scan body).undefined with
      | none => exact concerns_return _
      | some u => exact Concerns.pure _

variable (etherAton : List UInt8 → Option (Vector UInt8 6))

/-- Each of the commands concerns the interface.

**Proof sketch.** By the function; each of them gets the name of the interface. -/
private lemma concerns_callFunc (func : Func) (args : List (List UInt8)) :
    Concerns E iname (callFunc etherAton iname func args) := by
  cases func with
  | doDhcp => exact concerns_doDhcp.map _
  | ifcUp => exact (concerns_ifcSetFlags _ _).map _
  | ifcDown => exact (concerns_ifcSetFlags _ _).map _
  | ifcRemoveHostRoutes => exact concerns_ifcRemoveHostRoutes
  | ifcRemoveDefaultRoute =>
    have habout : Ioctl.About iname
        (.delRoute ⟨iname, 0, none, none, rtfUp ||| rtfGateway⟩) := rfl
    refine Concerns.map (keeps_ifcInit.concerns.bind fun _ => ?_) _
    exact (concerns_ioctl habout).bind fun _ => concerns_return _
  | setHwaddr =>
    cases args with
    | nil => exact Concerns.pure _
    | cons asc args =>
      refine Concerns.map ?_ _
      unfold setHwaddr
      cases etherAton asc with
      | none => exact (keeps_call fun _ => rfl).concerns.bind fun _ => Concerns.pure _
      | some addr => exact (concerns_ifreq _).bind fun _ => Concerns.pure _

/-- The commands concern the interface.

**Proof sketch.** By the recursion of the loop, with `concerns_callFunc` for one command. -/
private lemma concerns_commandLoop (args : List (List UInt8)) :
    Concerns E iname (commandLoop etherAton iname args) := by
  induction args using commandLoop.induct with
  | case1 =>
    rw [commandLoop]
    exact concerns_return _
  | case2 word args hfind =>
    rw [commandLoop, hfind]
    exact Concerns.pure _
  | case3 word args func hfind hlen =>
    rw [commandLoop, hfind]
    dsimp only
    rw [if_pos hlen]
    exact concerns_return _
  | case4 word args func hfind hlen ih =>
    rw [commandLoop, hfind]
    dsimp only
    rw [if_neg hlen]
    refine (concerns_callFunc etherAton func args).bind fun r => ?_
    cases r with
    | error u => exact Concerns.pure _
    | ok r => exact Concerns.ite (concerns_return _) ih

/-- **All requests are for the interface** that `netcfg` is given, whatever the commands are and
whatever the kernel returns: those for the interface have its name, as far as there is room for it,
and those for routes the whole of it.

**Proof sketch.** Along the calls of `main`: printing and opening the socket request nothing of an
interface, and the loop over the commands is `concerns_commandLoop`. -/
theorem main_requests {args : List (List UInt8)} {errno : ℤ} {log : List (Sigma Answer)}
    {r : Except Undefined Exit} {v : Vars}
    (h : ((main etherAton (iname :: args)).run ⟨-1, errno⟩).Runs log (r, v)) :
    ∀ request ∈ log.filterMap requested, request.About iname := by
  have hprint : ∀ s, Concerns (fun _ => True) iname (printf s) :=
    fun s => (keeps_call fun _ => rfl).concerns
  have hmain : Concerns (fun _ => True) iname (main etherAton (iname :: args)) := by
    refine (hprint _).bind fun _ => keeps_ifcInit.concerns.bind fun n => ?_
    refine Concerns.ite (Concerns.pure _) ?_
    refine (hprint _).bind fun _ => ?_
    cases args with
    | nil => exact (hprint _).bind fun _ => Concerns.pure _
    | cons word rest =>
      refine (hprint _).bind fun _ => (hprint _).bind fun _ => ?_
      exact Concerns.ite (Concerns.pure _) (concerns_commandLoop etherAton _)
  obtain ⟨l, hrun, hl⟩ := hmain ⟨-1, errno⟩ log r v [] h (fun _ _ => trivial) (by simp [AllAbout])
  rw [run_collect, List.nil_append] at hrun
  obtain rfl := Option.some.inj hrun
  exact hl

/-- A name of sixteen bytes, of which the kernel takes fifteen. -/
theorem main_requests_cut :
    Ioctl.About (List.replicate 16 120) (.interface (List.replicate 15 120) .getFlags) := by
  have h : ((main (fun _ => none) [List.replicate 16 120, text ['u', 'p']]).run ⟨-1, 0⟩).Runs
      [⟨.print (mainLine 142), ()⟩, ⟨.socket, .ok 3⟩, ⟨.print (mainLine 147), ()⟩,
        ⟨.print (mainLine 154), ()⟩, ⟨.print (mainLine 157), ()⟩,
        ⟨.ioctl 3 (.interface (List.replicate 15 120) .getFlags), ⟨-1, 19, 0, 0, .replicate 6 0⟩⟩,
        ⟨.close 3, ()⟩] (.ok (.code 1), ⟨-1, 19⟩) := by
    refine ⟨_, _, rfl, _, _, rfl, _, _, rfl, _, _, rfl, _, _, rfl, ?_⟩
    rw [commandLoop]
    exact ⟨_, _, rfl, _, _, rfl, rfl, rfl⟩
  exact main_requests (fun _ => none) h _ (List.mem_singleton_self _)

end JzPretest.Netcfg

import JzPretest.TestWifi.Commands
import JzPretest.TestWifi.DoDhcp
import JzPretest.TestWifi.HostRoutes

set_option relaxedAutoImplicit false
set_option autoImplicit false

/-!
# Commands that are granted

Under a kernel that refuses no request on a descriptor that is open, orderly commands succeed, one
after the other.

## Main definitions

* `JzPretest.Netcfg.Willing` — a kernel that refuses nothing, except for requests on no descriptor.
* `JzPretest.Netcfg.Obeys`, `JzPretest.Netcfg.Manages` — what succeeds with an open socket, and with
  any.
* `JzPretest.Netcfg.granting` — a kernel that is willing, as a function of the calls.

## Main results

* `JzPretest.Netcfg.main_willing` — orderly commands succeed.
-/

namespace JzPretest.Netcfg

open Transition Calling Dhcp Reader

/-! ## A kernel that refuses nothing else -/

/-- Nothing is refused, except for requests on a negative descriptor; the client is granted an
address with the length of a prefix, and there is a table of routes. -/
def Willing : Sigma Answer → Prop
  | ⟨.socket, a⟩ => ∃ fd : ℕ, a = .ok fd
  | ⟨.ioctl fd _, a⟩ => 0 ≤ fd → Returned.result a = 0
  | ⟨.dhcp _, a⟩ => ∃ info, ClientRun.outcome a = .configure info ∧
      0 ≤ info.prefixLength.toInt32.toInt ∧ info.prefixLength.toInt32.toInt ≤ 32
  | ⟨.readRoutes, a⟩ => ∃ rows s, a = some s ∧ IsTable rows s
  | _ => True

/-- The control socket is open. -/
def Opened (v : Vars) (q : Option ℕ) : Prop := Tidy v q ∧ q ≠ none

/-- What succeeds with an open socket, and leaves it open. -/
def Obeys (x : Net ℤ) : Prop :=
  Follows Willing socketStep Opened x fun r v q => r = 0 ∧ Opened v q

/-- A request on the open socket is granted, and the socket stays open. -/
lemma willing_ioctl (request : Ioctl) :
    Follows Willing socketStep Opened (ioctl request) fun a v q => a.result = 0 ∧ Opened v q := by
  refine follows_ioctl ?_
  rintro v q a hwilling ⟨htidy, hq⟩
  have hsock : 0 ≤ v.ctlSock := by
    obtain ⟨fd, rfl⟩ := Option.ne_none_iff_exists'.mp hq
    rw [show v.ctlSock = fd from htidy]
    exact Int.natCast_nonneg fd
  have ha : Returned.result a = 0 := hwilling hsock
  refine ⟨q, if_pos htidy.symm, ha, ?_⟩
  rw [if_neg (by omega)]
  exact ⟨htidy, hq⟩

/-- `ifc_init` succeeds, and a socket is open after it. -/
lemma willing_ifcInit :
    Follows Willing socketStep Tidy ifcInit fun r v q => r = 0 ∧ Opened v q := by
  refine (ifcInit_spec (p := fun q => q ≠ none) ?_).imp (fun _ _ h => ⟨h, fun hq => hq⟩) ?_
  · rintro a ⟨fd, rfl⟩
    exact Option.some_ne_none fd
  · rintro r v q ⟨htidy, hr, hq⟩
    exact ⟨hr.mpr hq, htidy, hq⟩

/-- A check that what succeeds has succeeded. -/
lemma Obeys.check {ρ : Type} {x : Net ℤ} {y z : Net ρ} {Q : ρ → Vars → Option ℕ → Prop}
    (hx : Obeys x) (hz : Follows Willing socketStep Opened z Q) :
    Follows Willing socketStep Opened (do if (← x) ≠ 0 then y else z) Q := by
  refine Follows.bind hx fun r => ?_
  refine Follows.assume (p := r = 0) (fun _ _ h => h.1) fun hr => ?_
  rw [if_neg (not_not.mpr hr)]
  exact hz.weaken _ fun _ _ h => h.2

/-- What returns the result of a request succeeds. -/
lemma obeys_ioctl (request : Ioctl) {f : Returned → Net ℤ}
    (hf : ∀ a, a.result = 0 → f a = pure 0) : Obeys (ioctl request >>= f) := by
  refine Follows.bind (willing_ioctl request) fun a => ?_
  refine Follows.assume (p := a.result = 0) (fun _ _ h => h.1) fun ha => ?_
  rw [hf a ha]
  exact Follows.pure fun _ _ h => ⟨rfl, h.2⟩

/-- `ifc_set_addr` succeeds. -/
lemma obeys_ifcSetAddr (name : List UInt8) (addr : UInt32) : Obeys (ifcSetAddr name addr) :=
  obeys_ioctl _ fun _ ha => congrArg pure ha

/-- `ifc_set_flags` succeeds. -/
lemma obeys_ifcSetFlags (name : List UInt8) (set clr : UInt16) :
    Obeys (ifcSetFlags name set clr) := by
  refine Follows.bind (willing_ioctl _) fun a => ?_
  refine Follows.assume (p := a.result = 0) (fun _ _ h => h.1) fun ha => ?_
  rw [if_neg (by omega)]
  exact (obeys_ioctl _ fun _ hb => congrArg pure hb).weaken _ fun _ _ h => h.2

/-- `ifc_set_prefixLength` succeeds if the length is in range. -/
private lemma obeys_ifcSetPrefixLength (name : List UInt8) {prefixLength : ℤ}
    (hpos : 0 ≤ prefixLength)
    (hle : prefixLength ≤ 32) : Obeys (ifcSetPrefixLength name prefixLength) := by
  unfold ifcSetPrefixLength
  rw [if_neg (by omega)]
  exact obeys_ioctl _ fun _ ha => congrArg pure ha

/-- What succeeds, whether the socket is open or not. -/
def Manages {ρ : Type} (r₀ : ρ) (x : Net ρ) : Prop :=
  Follows Willing socketStep Tidy x fun r _ _ => r = r₀

/-- What succeeds in any case succeeds with an open socket. -/
lemma Manages.opened {ρ : Type} {r₀ : ρ} {x : Net ρ} (hx : Manages r₀ x) :
    Follows Willing socketStep Opened x fun r _ _ => r = r₀ :=
  Follows.weaken _ (fun _ _ h => h.1) hx

/-- What succeeds with an open socket succeeds behind `ifc_init`. -/
lemma manages_init {ρ : Type} {r₀ : ρ} {x : Net ρ}
    (hx : Follows Willing socketStep Opened x fun r _ _ => r = r₀) :
    Manages r₀ (do let _ ← ifcInit; x) :=
  Follows.bind willing_ifcInit fun _ => Follows.weaken _ (fun _ _ h => h.2) hx

/-- A value that is returned after the socket has been closed. -/
lemma manages_return {ρ : Type} (r₀ : ρ) :
    Follows Willing socketStep Opened (do ifcClose; return r₀ : Net ρ) fun r _ _ => r = r₀ :=
  Follows.bind (R := fun _ _ _ => True)
    (Follows.imp closes_ifcClose (fun _ _ h => h.1) fun _ _ _ _ => trivial)
    fun _ => Follows.pure fun _ _ _ => rfl

/-- `ifc_act_on_ipv4_route` succeeds. -/
private lemma manages_ifcActOnIpv4Route (action : Rtentry → Ioctl) (ifname : List UInt8)
    (dst : UInt32) (prefixLength : ℤ) (gw : UInt32) :
    Manages 0 (ifcActOnIpv4Route action ifname dst prefixLength gw) := by
  refine manages_init ?_
  refine Follows.get_bind fun u => ?_
  refine Follows.assume (p := ¬ u.ctlSock < 0) ?_ fun hsock => ?_
  · rintro v q ⟨⟨htidy, hq⟩, rfl⟩
    obtain ⟨fd, rfl⟩ := Option.ne_none_iff_exists'.mp hq
    rw [show u.ctlSock = fd from htidy]
    omega
  · rw [if_neg hsock]
    refine Follows.bind (Follows.weaken _ (fun _ _ h => h.1) (willing_ioctl _)) fun a => ?_
    refine Follows.assume (p := a.result = 0) (fun _ _ h => h.1) fun ha => ?_
    rw [if_neg (by omega), ha]
    exact Follows.weaken _ (fun _ _ h => h.2) (manages_return 0)

/-- `ifc_configure` succeeds if the length of the prefix is in range.

**Proof sketch.** It opens a socket. Each of its steps succeeds with it; the last of them closes it,
and nothing is requested any more. -/
private lemma manages_ifcConfigure (ifname : List UInt8) (address gateway dns1 dns2 : UInt32)
    {prefixLength : UInt32} (hpos : 0 ≤ prefixLength.toInt32.toInt)
    (hle : prefixLength.toInt32.toInt ≤ 32) :
    Manages 0 (ifcConfigure ifname address prefixLength gateway dns1 dns2) := by
  refine manages_init ?_
  refine (obeys_ifcSetFlags _ _ _).check ?_
  refine (obeys_ifcSetAddr _ _).check ?_
  refine (obeys_ifcSetPrefixLength _ hpos hle).check ?_
  refine Follows.bind ((manages_ifcActOnIpv4Route _ _ _ _ _).opened.and
    (Follows.weaken _ (fun _ _ h => h.1) (closes_ifcActOnIpv4Route _ _ _ _ _).isTidy)) fun r => ?_
  refine Follows.assume (p := r = 0) (fun _ _ h => h.1) fun hr => ?_
  rw [if_neg (not_not.mpr hr)]
  refine Follows.bind (Follows.weaken _ (fun _ _ h => h.2) closes_ifcClose.isTidy) fun _ => ?_
  refine Follows.bind (stays_call fun _ _ => rfl).isTidy fun _ => ?_
  refine Follows.bind (stays_call fun _ _ => rfl).isTidy fun _ => ?_
  exact Follows.pure fun _ _ _ => rfl

/-- `do_dhcp` succeeds with an open socket.

**Proof sketch.** Its requests are granted, and so is the lease, with a prefix in range; then it is
`manages_ifcConfigure`. -/
private lemma willing_doDhcp (iname : List UInt8) :
    Follows Willing socketStep Opened (doDhcp iname) fun r _ _ => r = 0 := by
  refine (obeys_ifcSetAddr _ _).check ((obeys_ifcSetFlags _ _ _).check ?_)
  refine Follows.bind (R := fun hwaddr v q => hwaddr ≠ none ∧ Opened v q)
    (Follows.bind (willing_ioctl _) fun a => Follows.pure fun v q h => ?_) fun hwaddr => ?_
  · rw [if_neg (by omega)]
    exact ⟨Option.some_ne_none _, h.2⟩
  refine Follows.assume (p := hwaddr ≠ none) (fun _ _ h => h.1) fun hne => ?_
  obtain ⟨hwaddr, rfl⟩ := Option.ne_none_iff_exists'.mp hne
  refine Follows.weaken Opened (fun _ _ h => h.2) ?_
  have hindex : Obeys (ifcGetIfindex iname) :=
    obeys_ioctl _ fun a ha => congrArg pure (if_neg (by omega))
  refine hindex.check ?_
  refine Follows.bind (R := fun (r : ClientRun hwaddr) v q => (∃ info, r.outcome = .configure info ∧
      0 ≤ info.prefixLength.toInt32.toInt ∧ info.prefixLength.toInt32.toInt ≤ 32) ∧ Opened v q)
    (Follows.call fun v q a ha h => ⟨q, rfl, ha, h⟩) fun r => ?_
  refine Follows.assume (fun _ _ h => h.1) fun hinfo => ?_
  obtain ⟨info, houtcome, hpos, hle⟩ := hinfo
  rw [houtcome]
  exact Follows.weaken _ (fun _ _ h => h.2.1) (manages_ifcConfigure iname _ _ _ _ hpos hle)

/-- `ifc_remove_default_route` succeeds. -/
private lemma manages_ifcRemoveDefaultRoute (ifname : List UInt8) :
    Manages 0 (ifcRemoveDefaultRoute ifname) := by
  refine manages_init ?_
  refine Follows.bind (willing_ioctl _) fun a => ?_
  refine Follows.assume (p := a.result = 0) (fun _ _ h => h.1) fun ha => ?_
  rw [ha]
  exact Follows.weaken _ (fun _ _ h => h.2) (manages_return 0)

/-- `ifc_remove_host_routes` succeeds, since there is a table. -/
private lemma manages_ifcRemoveHostRoutes (name : List UInt8) :
    Manages (.ok 0) (ifcRemoveHostRoutes name) := by
  refine Follows.bind (R := fun s v q => (∃ rows s', s = some s' ∧ IsTable rows s') ∧ Tidy v q)
    (Follows.call fun v q a ha h => ⟨q, rfl, ha, h⟩) fun contents => ?_
  refine Follows.assume (fun _ _ h => h.1) fun htable => ?_
  obtain ⟨rows, s, rfl, htable⟩ := htable
  obtain ⟨body, hskip, hscan⟩ := scan_table htable
  dsimp only
  rw [hskip]
  dsimp only
  rw [hscan]
  refine Follows.weaken Tidy (fun _ _ h => h.2) (manages_init ?_)
  refine Follows.bind (R := fun _ => Tidy) ?_ fun _ => ?_
  · exact Follows.weaken _ (fun _ _ h => h.1) (stays_removeLoop name rows).isTidy
  · exact Follows.bind closes_ifcClose.isTidy fun _ => Follows.pure fun _ _ _ => rfl

/-! ## The program -/

variable {etherAton : List UInt8 → Option (Vector UInt8 6)} {iname : List UInt8}

/-- `set_hwaddr` succeeds with an address that parses. -/
private lemma obeys_setHwaddr {asc : List UInt8} (hasc : etherAton asc ≠ none) :
    Obeys (setHwaddr etherAton iname asc) := by
  obtain ⟨addr, haddr⟩ := Option.ne_none_iff_exists'.mp hasc
  unfold setHwaddr
  rw [haddr]
  exact obeys_ioctl _ fun _ ha => congrArg pure ha

/-- A command that has the socket it needs succeeds.

**Proof sketch.** By the command: those that need the socket make requests that succeed and leave it
open, and those that close it succeed with or without it. -/
private lemma callFunc_willing {c : Command} (hc : c.Parses etherAton) (rest : List (List UInt8)) :
    Follows Willing socketStep (fun v q => Tidy v q ∧ (c.func.needsSocket = true → q ≠ none))
      (callFunc etherAton iname c.func (c.args ++ rest))
      fun r v q => r = .ok 0 ∧ Tidy v q ∧ (c.func.closesSocket = false → q ≠ none) := by
  obtain ⟨func, args, hlen⟩ := c
  have hobeys : ∀ {x : Net ℤ}, func.needsSocket = true → Obeys x → Follows Willing socketStep
      (fun v q => Tidy v q ∧ (func.needsSocket = true → q ≠ none)) (Except.ok <$> x)
      fun r v q => r = (.ok 0 : Except Undefined ℤ) ∧ Tidy v q ∧
        (func.closesSocket = false → q ≠ none) := by
    intro x hfunc hx
    refine Follows.map (Follows.imp hx (fun _ _ h => ⟨h.1, h.2 hfunc⟩) fun r v q h => ?_)
    exact ⟨congrArg _ h.1, h.2.1, fun _ => h.2.2⟩
  have htidy : IsTidy Willing (callFunc etherAton iname func (args ++ rest)) :=
    tidy_callFunc etherAton iname func (args ++ rest)
  have hcloses : func.closesSocket = true →
      Follows Willing socketStep (fun v q => Tidy v q ∧ (func.needsSocket = true → q ≠ none))
        (callFunc etherAton iname func (args ++ rest)) (fun r _ _ => r = .ok 0) →
      Follows Willing socketStep (fun v q => Tidy v q ∧ (func.needsSocket = true → q ≠ none))
        (callFunc etherAton iname func (args ++ rest))
        fun r v q => r = .ok 0 ∧ Tidy v q ∧ (func.closesSocket = false → q ≠ none) := by
    intro hfunc hx
    refine (hx.and (Follows.weaken _ (fun _ _ h => h.1) htidy)).post ?_
    rintro r v q ⟨hr, hq⟩
    refine ⟨hr, hq, fun h => ?_⟩
    rw [hfunc] at h
    cases h
  cases func with
  | doDhcp =>
    refine hcloses rfl (Follows.map (Follows.imp (willing_doDhcp iname) ?_ ?_))
    · exact fun _ _ h => ⟨h.1, h.2 rfl⟩
    · exact fun _ _ _ h => congrArg _ h
  | ifcUp => exact hobeys rfl (obeys_ifcSetFlags iname _ _)
  | ifcDown => exact hobeys rfl (obeys_ifcSetFlags iname _ _)
  | ifcRemoveHostRoutes =>
    exact hcloses rfl (Follows.weaken _ (fun _ _ h => h.1) (manages_ifcRemoveHostRoutes iname))
  | ifcRemoveDefaultRoute =>
    refine hcloses rfl (Follows.map (Follows.imp (manages_ifcRemoveDefaultRoute iname) ?_ ?_))
    · exact fun _ _ h => h.1
    · exact fun _ _ _ h => congrArg _ h
  | setHwaddr =>
    obtain ⟨asc, rfl⟩ := List.length_eq_one_iff.mp (Nat.succ.inj hlen)
    exact hobeys rfl (obeys_setHwaddr (hc rfl asc (List.mem_singleton_self asc)))

/-- The loop returns zero for orderly commands, with the socket that they need.

**Proof sketch.** Induction on the commands. The first one has the socket it needs and succeeds
(`callFunc_willing`); it has closed the socket only if none of the others needs it. -/
private lemma commandLoop_willing {cs : List Command} (horderly : Orderly cs)
    (hcs : ∀ c ∈ cs, c.Parses etherAton) :
    Follows Willing socketStep
      (fun v q => Tidy v q ∧ ∀ c ∈ cs, c.func.needsSocket = true → q ≠ none)
      (commandLoop etherAton iname (cs.flatMap Command.words))
      fun r _ _ => r = .ok (.code 0) := by
  induction cs with
  | nil =>
    rw [List.flatMap_nil, commandLoop]
    refine Follows.bind (R := fun _ _ _ => True) ?_ fun _ => Follows.pure fun _ _ _ => rfl
    exact Follows.imp closes_ifcClose (fun _ _ h => h.1) fun _ _ _ _ => trivial
  | cons c cs ih =>
    obtain ⟨hc, horderly⟩ := List.pairwise_cons.mp horderly
    rw [List.flatMap_cons, Command.words, List.cons_append, commandLoop, findCmd_eq_some.mpr rfl]
    dsimp only
    rw [if_neg (c.nargs_le _), c.drop_args]
    have hcall := @callFunc_willing etherAton iname c (hcs c (by simp)) (cs.flatMap Command.words)
    refine Follows.fix fun q₀ => ?_
    refine Follows.assume (p := ∀ d ∈ c :: cs, d.func.needsSocket = true → q₀ ≠ none) ?_
      fun hneeds => ?_
    · rintro v q ⟨⟨-, h⟩, rfl⟩
      exact h
    refine Follows.bind (hcall.weaken _ ?_) fun r => ?_
    · rintro v q ⟨⟨htidy, -⟩, rfl⟩
      exact ⟨htidy, hneeds c (by simp)⟩
    refine Follows.assume (p := r = .ok 0) (fun _ _ h => h.1) ?_
    rintro rfl
    dsimp only
    rw [if_neg (not_not.mpr rfl)]
    refine (ih horderly fun d hd => hcs d (by simp [hd])).weaken _ ?_
    rintro v q ⟨-, htidy, hopen⟩
    refine ⟨htidy, fun d hd hneed => hopen ?_⟩
    -- it does not close the socket, since `d` comes after it
    by_contra hclose
    rw [Bool.not_eq_false] at hclose
    rw [hc d hd hclose] at hneed
    cases hneed

/-- Orderly commands succeed, whatever the variables are before them.

**Proof sketch.** The socket is opened, the name fits, and then the loop over the commands is
`commandLoop_willing`. -/
theorem willing_main {cs : List Command} (hne : cs ≠ []) (hlen : iname.length ≤ 16)
    (horderly : Orderly cs) (hcs : ∀ c ∈ cs, c.Parses etherAton) :
    Follows Willing socketStep Tidy (main etherAton (iname :: cs.flatMap Command.words))
      fun r _ _ => r = .ok (.code 0) := by
  have hprint : ∀ s, Follows Willing socketStep Opened (printf s) fun _ => Opened :=
    fun s => Follows.call fun _ q _ _ h => ⟨q, rfl, h⟩
  have hloop := @commandLoop_willing etherAton iname cs horderly hcs
  obtain ⟨c, cs, rfl⟩ := List.exists_cons_of_ne_nil hne
  rw [List.flatMap_cons, Command.words, List.cons_append] at hloop ⊢
  refine Follows.bind (stays_printf _).isTidy fun _ => ?_
  refine Follows.bind willing_ifcInit fun r => ?_
  refine Follows.assume (p := r = 0) (fun _ _ h => h.1) fun hr => ?_
  rw [if_neg (not_not.mpr hr)]
  refine Follows.weaken Opened (fun _ _ h => h.2) ?_
  refine Follows.bind (hprint _) fun _ => Follows.bind (hprint _) fun _ =>
    Follows.bind (hprint _) fun _ => ?_
  rw [if_neg (by omega)]
  exact Follows.weaken _ (fun _ _ h => ⟨h.1, fun _ _ _ => h.2⟩) hloop

/-! ## One that is willing -/

/-- A kernel that grants each request on a descriptor, with this client and this table of routes. -/
def granting (lease : ∀ hwaddr, ClientRun hwaddr) (routes : List UInt8) : ∀ c, Answer c
  | .socket => .ok 3
  | .close _ => ()
  | .ioctl fd _ => ⟨if fd < 0 then -1 else 0, 9, 0, 0, .replicate 6 0⟩
  | .dhcp hwaddr => lease hwaddr
  | .readRoutes => some routes
  | .propertySet _ _ => ()
  | .readNames => none
  | .print _ => ()

/-- It is a willing one, for some client and some table.

**Proof sketch.** For each hardware address there is a client that is granted something
(`exists_granted`), and the table of two rows is written out (`exists_isTable`). -/
theorem exists_willing_granting :
    ∃ lease routes, ∀ c, Willing ⟨c, granting lease routes c⟩ := by
  have hlease : ∀ hwaddr, ∃ r : ClientRun hwaddr, ∃ info, r.outcome = .configure info ∧
      0 ≤ info.prefixLength.toInt32.toInt ∧ info.prefixLength.toInt32.toInt ≤ 32 := by
    intro hwaddr
    obtain ⟨r, info, houtcome, hzero⟩ := exists_granted hwaddr
    refine ⟨r, info, houtcome, ?_⟩
    rw [hzero]
    decide
  choose lease hlease using hlease
  have hlo : IsWord (text ['l', 'o']) := isWord_of_all (List.cons_ne_nil _ _) rfl
  have hwords : ∀ r ∈ [Route.mk (text ['l', 'o']) 1 2 5 0 0 0 0xFFFFFFFF 0 0 0,
      Route.mk (text ['l', 'o']) 0 2 3 0 0 0 0 0 0 0], IsWord r.name ∧ r.name.length ≤ 63 := by
    simpa using ⟨hlo, by decide⟩
  obtain ⟨routes, hroutes⟩ := exists_isTable hwords
  refine ⟨lease, routes, fun c => ?_⟩
  cases c with
  | socket => exact ⟨3, rfl⟩
  | ioctl fd request => exact fun hfd => if_neg (by omega)
  | dhcp hwaddr => exact hlease hwaddr
  | readRoutes => exact ⟨_, routes, rfl, hroutes⟩
  | close | propertySet | readNames | print => trivial

/-- `ether_aton`, for one address. -/
def atonTwo (asc : List UInt8) : Option (Vector UInt8 6) :=
  if asc = text ['0', ':', '0', ':', '0', ':', '0', ':', '0', ':', '2'] then
    some #v[0, 0, 0, 0, 0, 2]
  else none

/-- One command of each kind: those that need the socket, then those that close it. -/
def eachCommand : List Command := [
  ⟨.ifcDown, [], rfl⟩,
  ⟨.setHwaddr, [text ['0', ':', '0', ':', '0', ':', '0', ':', '0', ':', '2']], rfl⟩,
  ⟨.ifcUp, [], rfl⟩,
  ⟨.doDhcp, [], rfl⟩,
  ⟨.ifcRemoveHostRoutes, [], rfl⟩,
  ⟨.ifcRemoveDefaultRoute, [], rfl⟩]

/-- They are orderly. -/
theorem orderly_eachCommand : Orderly eachCommand := by
  unfold Orderly eachCommand
  simp only [List.pairwise_cons, List.forall_mem_cons]
  decide

/-- The hardware address among them is one. -/
theorem parses_eachCommand : ∀ c ∈ eachCommand, c.Parses atonTwo := by
  unfold eachCommand
  simp only [List.forall_mem_cons]
  have hother : ∀ c : Command, c.func ≠ .setHwaddr → c.Parses atonTwo := fun c h hc => absurd hc h
  refine ⟨hother _ (by decide), fun _ asc hasc => ?_, hother _ (by decide), hother _ (by decide),
    hother _ (by decide), hother _ (by decide), fun _ h => by cases h⟩
  rw [List.mem_singleton.mp hasc]
  decide

/-- **Orderly commands succeed**: if the kernel refuses nothing but requests on no descriptor, then
`netcfg` returns zero, for any interface and any number of commands. -/
theorem main_willing {cs : List Command} {errno : ℤ} {log : List (Sigma Answer)}
    {r : Except Undefined Exit} {v : Vars} (hne : cs ≠ []) (hlen : iname.length ≤ 16)
    (horderly : Orderly cs) (hcs : ∀ c ∈ cs, c.Parses etherAton)
    (h : ((main etherAton (iname :: cs.flatMap Command.words)).run ⟨-1, errno⟩).Runs log (r, v))
    (hE : ∀ e ∈ log, Willing e) : r = .ok (.code 0) := by
  obtain ⟨-, -, hpost⟩ := willing_main hne hlen horderly hcs ⟨-1, errno⟩ log r v none h hE rfl
  exact hpost

/-- An interface is turned off, given a hardware address, turned on and configured, and then its
routes are removed. -/
theorem main_willing_each : ∃ log r v, ((main atonTwo
    (text ['l', 'o'] :: eachCommand.flatMap Command.words)).run ⟨-1, 0⟩).Runs log (r, v) ∧
      r = .ok (.code 0) := by
  obtain ⟨lease, routes, hwilling⟩ := exists_willing_granting
  obtain ⟨log, hruns, hlog⟩ := exists_runs (granting lease routes) ((main atonTwo
    (text ['l', 'o'] :: eachCommand.flatMap Command.words)).run ⟨-1, 0⟩)
  refine ⟨log, _, _, hruns, main_willing (List.cons_ne_nil _ _) (by decide) orderly_eachCommand
    parses_eachCommand hruns fun e he => ?_⟩
  obtain ⟨c, a⟩ := e
  have ha : a = granting lease routes c := hlog _ he
  rw [ha]
  exact hwilling c

end JzPretest.Netcfg

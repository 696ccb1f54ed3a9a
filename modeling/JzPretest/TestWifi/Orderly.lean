import JzPretest.TestWifi.Willing

set_option relaxedAutoImplicit false
set_option autoImplicit false

/-!
# Commands, one after the other

A command that makes requests on the control socket fails after one that leaves it closed, and
`netcfg` with it.

## Main definitions

* `JzPretest.Netcfg.Refuses` — a kernel that refuses requests on no descriptor.

## Main results

* `JzPretest.Netcfg.main_succeeds` — nothing but orderly commands succeeds.
-/

namespace JzPretest.Netcfg

open Transition Calling Dhcp

/-! ## A kernel that refuses requests on no descriptor -/

/-- A request on a negative descriptor is refused. -/
def Refuses : Sigma Answer → Prop
  | ⟨.ioctl fd _, a⟩ => fd < 0 → Returned.result a < 0
  | _ => True

/-- The control socket is closed. -/
def Closed (v : Vars) (q : Option ℕ) : Prop := Tidy v q ∧ q = none

/-- What fails without a socket. -/
def Fails (x : Net ℤ) : Prop := Follows Refuses socketStep Closed x fun r _ _ => r ≠ 0

/-- A request without a socket is refused, and the socket stays closed. -/
private lemma refused_ioctl (request : Ioctl) :
    Follows Refuses socketStep Closed (ioctl request) fun a v q => a.result < 0 ∧ Closed v q := by
  refine follows_ioctl ?_
  rintro v q a hrefuse ⟨htidy, rfl⟩
  have hsock : v.ctlSock = -1 := htidy
  have ha : Returned.result a < 0 := hrefuse (by omega)
  refine ⟨none, if_pos htidy.symm, ha, ?_⟩
  rw [if_pos ha]
  exact ⟨htidy, rfl⟩

/-- What returns the failure of a request fails. -/
lemma fails_ioctl (request : Ioctl) {f : Returned → Net ℤ}
    (hf : ∀ a, a.result < 0 → f a = pure a.result ∨ f a = pure (-1)) :
    Fails (ioctl request >>= f) := by
  refine Follows.bind (refused_ioctl request) fun a => ?_
  refine Follows.assume (p := a.result < 0) (fun _ _ h => h.1) fun ha => ?_
  rcases hf a ha with hf | hf <;> rw [hf]
  · exact Follows.pure fun _ _ _ => ne_of_lt ha
  · exact Follows.pure fun _ _ _ => by decide

/-- `ifc_set_flags` fails. -/
private lemma fails_ifcSetFlags (name : List UInt8) (set clr : UInt16) :
    Fails (ifcSetFlags name set clr) :=
  fails_ioctl _ fun _ ha => .inr (if_pos ha)

/-- `ifc_set_addr` fails. -/
private lemma fails_ifcSetAddr (name : List UInt8) (addr : UInt32) : Fails (ifcSetAddr name addr) :=
  fails_ioctl _ fun _ _ => .inl rfl

/-- `set_hwaddr` fails, whether the address parses or not. -/
private lemma fails_setHwaddr (etherAton : List UInt8 → Option (Vector UInt8 6))
    (name asc : List UInt8) : Fails (setHwaddr etherAton name asc) := by
  unfold setHwaddr
  cases etherAton asc with
  | none =>
    refine Follows.bind (R := fun _ _ _ => True) (Follows.call fun v q a _ _ => ⟨q, rfl, trivial⟩)
      fun _ => Follows.pure fun _ _ _ => ?_
    decide
  | some addr => exact fails_ioctl _ fun _ _ => .inl rfl

/-- `do_dhcp` fails, at its first request. -/
private lemma fails_doDhcp (iname : List UInt8) : Fails (doDhcp iname) := by
  refine Follows.bind (fails_ifcSetAddr iname 0) fun r => ?_
  refine Follows.assume (p := r ≠ 0) (fun _ _ h => h) fun hr => ?_
  rw [if_pos hr]
  exact Follows.pure fun _ _ _ => by decide

variable {etherAton : List UInt8 → Option (Vector UInt8 6)} {iname : List UInt8}

/-- A command that succeeds without a socket is one that does not need it.

**Proof sketch.** Each of the functions that need the socket fails; the other two open one by
themselves. -/
private lemma callFunc_needsSocket (func : Func) (args : List (List UInt8)) :
    Follows Refuses socketStep Closed (callFunc etherAton iname func args)
      fun r _ _ => r = .ok 0 → func.needsSocket = false := by
  have hmap : ∀ {x : Net ℤ}, Fails x → Follows Refuses socketStep Closed (Except.ok <$> x)
      fun r _ _ => r = (.ok 0 : Except Undefined ℤ) → func.needsSocket = false := by
    intro x hx
    refine Follows.map (Follows.post hx fun r _ _ hr h => ?_)
    exact absurd (Except.ok.inj h) hr
  cases func with
  | doDhcp => exact hmap (fails_doDhcp iname)
  | ifcUp => exact hmap (fails_ifcSetFlags iname _ _)
  | ifcDown => exact hmap (fails_ifcSetFlags iname _ _)
  | ifcRemoveHostRoutes =>
    exact Follows.imp (tidy_ifcRemoveHostRoutes iname) (fun _ _ h => h.1) fun _ _ _ _ _ => rfl
  | ifcRemoveDefaultRoute =>
    exact Follows.imp ((closes_ifcRemoveDefaultRoute iname).isTidy.map _) (fun _ _ h => h.1)
      fun _ _ _ _ _ => rfl
  | setHwaddr =>
    cases args with
    | nil => exact Follows.pure fun _ _ _ h => by cases h
    | cons asc args => exact hmap (fails_setHwaddr etherAton iname asc)

/-! ## What a command leaves -/

variable {E : Sigma Answer → Prop}

/-- The socket is closed in the end, if the function succeeds. -/
def ClosesIf {ρ : Type} (E : Sigma Answer → Prop) (p : ρ → Prop) (x : Net ρ) : Prop :=
  Follows E socketStep Tidy x fun r _ q => p r → q = none

/-- What closes the socket closes it if it succeeds. -/
lemma Closes.closesIf {ρ : Type} {p : ρ → Prop} {x : Net ρ} (hx : Closes E x) :
    ClosesIf E p x :=
  Follows.post hx fun _ _ _ h _ => h.2

/-- What comes last closes it. -/
lemma IsTidy.bind_closesIf {ρ τ : Type} {p : τ → Prop} {x : Net ρ} {f : ρ → Net τ}
    (hx : IsTidy E x) (hf : ∀ a, ClosesIf E p (f a)) : ClosesIf E p (x >>= f) :=
  Follows.bind hx hf

/-- A failure may leave it open. -/
lemma closesIf_pure {ρ : Type} {p : ρ → Prop} {r : ρ} (h : ¬ p r) :
    ClosesIf E p (Pure.pure r : Net ρ) :=
  Follows.pure fun _ _ _ hr => absurd hr h

/-- Either branch closes it. -/
private lemma closesIf_ite {ρ : Type} {p : ρ → Prop} {c : Prop} [Decidable c] {x y : Net ρ}
    (hx : ClosesIf E p x) (hy : ClosesIf E p y) : ClosesIf E p (if c then x else y) := by
  split_ifs
  · exact hx
  · exact hy

/-- `do_dhcp` leaves the socket closed if it succeeds, since it ends with `ifc_configure`. -/
private lemma closesIf_doDhcp (iname : List UInt8) : ClosesIf E (· = 0) (doDhcp iname) := by
  have hfail : ClosesIf E (· = 0) (Pure.pure (-1) : Net ℤ) := closesIf_pure (by decide)
  refine (stays_ifcSetAddr _ _).isTidy.bind_closesIf fun r => closesIf_ite hfail ?_
  refine (stays_ifcSetFlags _ _ _).isTidy.bind_closesIf fun r => closesIf_ite hfail ?_
  refine ((stays_ifreq _ _).bind fun _ => Stays.pure _).isTidy.bind_closesIf fun hwaddr => ?_
  cases hwaddr with
  | none => exact hfail
  | some hwaddr =>
    refine ((stays_ifreq _ _).bind fun _ => Stays.pure _).isTidy.bind_closesIf fun r => ?_
    refine closesIf_ite hfail ?_
    refine (stays_call fun _ _ => rfl).isTidy.bind_closesIf fun r => ?_
    cases r.outcome with
    | failed => exact hfail
    | configure info => exact (closes_ifcConfigure _ _ _ _ _ _).closesIf

/-- `ifc_remove_host_routes` leaves it closed if it succeeds.

**Proof sketch.** Without a table it fails. With one the socket is opened and used, and closed
unless a row is undefined. -/
private lemma closesIf_ifcRemoveHostRoutes (name : List UInt8) :
    ClosesIf E (· = .ok 0) (ifcRemoveHostRoutes name) := by
  have hfail : ClosesIf E (· = .ok 0) (Pure.pure (.ok (-1)) : Net (Except Undefined ℤ)) :=
    closesIf_pure fun h => by cases h
  refine (stays_call fun _ _ => rfl).isTidy.bind_closesIf fun contents => ?_
  cases contents with
  | none => exact hfail
  | some contents =>
    dsimp only
    cases skipHeader contents with
    | none => exact hfail
    | some body =>
      refine tidy_ifcInit.bind_closesIf fun _ => ?_
      refine (stays_removeLoop name _).isTidy.bind_closesIf fun _ => ?_
      cases (scan body).undefined with
      | none => exact (closes_return _).closesIf
      | some u => exact closesIf_pure fun h => by cases h

/-- A command of those that close the socket has closed it, if it succeeds. -/
private lemma callFunc_closesSocket {func : Func} (hfunc : func.closesSocket = true)
    (args : List (List UInt8)) : ClosesIf E (· = .ok 0) (callFunc etherAton iname func args) := by
  cases func with
  | doDhcp =>
    refine Follows.map (Follows.post (closesIf_doDhcp iname) fun r _ q h hr => ?_)
    exact h (Except.ok.inj hr)
  | ifcRemoveHostRoutes => exact closesIf_ifcRemoveHostRoutes iname
  | ifcRemoveDefaultRoute =>
    refine Follows.map (Follows.post (closes_ifcRemoveDefaultRoute iname) ?_)
    exact fun _ _ _ h _ => h.2
  | ifcUp => cases hfunc
  | ifcDown => cases hfunc
  | setHwaddr => cases hfunc

/-- If `hwaddr` succeeds, its operand has been parsed.

**Proof sketch.** By what `ether_aton` returns: without an address `set_hwaddr` returns -1. -/
private lemma callFunc_parses {func : Func} (hfunc : func = .setHwaddr) (args : List (List UInt8)) :
    Follows E socketStep Tidy (callFunc etherAton iname func args)
      fun r _ _ => r = .ok 0 → ∀ asc, args.head? = some asc → etherAton asc ≠ none := by
  subst hfunc
  cases args with
  | nil => exact Follows.pure fun _ _ _ h => by cases h
  | cons asc args =>
    change Follows E socketStep Tidy (Except.ok <$> setHwaddr etherAton iname asc) _
    unfold setHwaddr
    cases hasc : etherAton asc with
    | none =>
      refine Follows.map (Follows.bind (stays_printf _).isTidy fun _ => Follows.pure ?_)
      exact fun _ _ _ h => by cases h
    | some addr =>
      refine Follows.map (Follows.post (stays_ifcSetHwaddr iname addr).isTidy ?_)
      rintro r v q - - asc' hasc'
      obtain rfl := Option.some.inj hasc'
      rw [hasc]
      exact Option.some_ne_none addr

/-- What a command needs and what it leaves, if it succeeds.

**Proof sketch.** Three facts about the command, each of which has its own lemma for the commands
that it concerns: it needs the socket, it closes it, and its address is one. -/
private lemma callFunc_succeeds (func : Func) (args : List (List UInt8)) (q₀ : Option ℕ) :
    Follows Refuses socketStep (fun v q => Tidy v q ∧ q = q₀) (callFunc etherAton iname func args)
      fun r v q => Tidy v q ∧ (r = .ok 0 →
        (q₀ = none → func.needsSocket = false) ∧ (func.closesSocket = true → q = none) ∧
        (func = .setHwaddr → ∀ asc, args.head? = some asc → etherAton asc ≠ none)) := by
  have htidy : Follows Refuses socketStep (fun v q => Tidy v q ∧ q = q₀)
      (callFunc etherAton iname func args) fun _ => Tidy :=
    Follows.weaken _ (fun _ _ h => h.1) (tidy_callFunc etherAton iname func args)
  have hneeds : Follows Refuses socketStep (fun v q => Tidy v q ∧ q = q₀)
      (callFunc etherAton iname func args)
      fun r _ _ => r = .ok 0 → q₀ = none → func.needsSocket = false := by
    by_cases hq : q₀ = none
    · exact Follows.imp (callFunc_needsSocket func args) (fun v q h => ⟨h.1, h.2.trans hq⟩)
        fun _ _ _ h hr _ => h hr
    · exact htidy.post fun _ _ _ _ _ h => absurd h hq
  have hcloses : Follows Refuses socketStep (fun v q => Tidy v q ∧ q = q₀)
      (callFunc etherAton iname func args)
      fun r _ q => r = .ok 0 → func.closesSocket = true → q = none := by
    by_cases hfunc : func.closesSocket = true
    · exact Follows.imp (callFunc_closesSocket hfunc args) (fun _ _ h => h.1)
        fun _ _ _ h hr _ => h hr
    · exact htidy.post fun _ _ _ _ _ h => absurd h hfunc
  have hparses : Follows Refuses socketStep (fun v q => Tidy v q ∧ q = q₀)
      (callFunc etherAton iname func args) fun r _ _ => r = .ok 0 →
        func = .setHwaddr → ∀ asc, args.head? = some asc → etherAton asc ≠ none := by
    by_cases hfunc : func = .setHwaddr
    · exact Follows.imp (callFunc_parses hfunc args) (fun _ _ h => h.1) fun _ _ _ h hr _ => h hr
    · exact htidy.post fun _ _ _ _ _ h => absurd h hfunc
  refine (htidy.and (hneeds.and (hcloses.and hparses))).post ?_
  rintro r v q ⟨h, hneeds, hcloses, hparses⟩
  exact ⟨h, fun hr => ⟨hneeds hr, hcloses hr, hparses hr⟩⟩

/-! ## The program -/

/-- The words are those of orderly commands, and if the socket is closed before them then none of
them needs it. -/
def Admitted (etherAton : List UInt8 → Option (Vector UInt8 6)) (args : List (List UInt8))
    (q : Option ℕ) : Prop :=
  ∃ cs : List Command, args = cs.flatMap Command.words ∧ Orderly cs ∧
    (∀ c ∈ cs, c.Parses etherAton) ∧ (q = none → ∀ c ∈ cs, c.func.needsSocket = false)

/-- Each command needs the socket or closes it. -/
lemma Func.closes_of_not_needs {func : Func} (h : func.needsSocket = false) :
    func.closesSocket = true := by
  cases func <;> first | rfl | cases h

/-- A command in front of others that are admitted behind it.

**Proof sketch.** The command with its operands comes first. If it closes the socket, none of the
others needs it; and if the socket is closed before it, the command does not need it, so that it
closes it (`Func.closes_of_not_needs`), and again none of the others needs it. -/
lemma Admitted.cons {func : Func} {args : List (List UInt8)} {q₀ q : Option ℕ}
    (hlen : func.nargs ≤ args.length + 1) (hneeds : q₀ = none → func.needsSocket = false)
    (hcloses : func.closesSocket = true → q = none)
    (hparses : func = .setHwaddr → ∀ asc, args.head? = some asc → etherAton asc ≠ none)
    (h : Admitted etherAton (args.drop (func.nargs - 1)) q) :
    Admitted etherAton (func.word :: args) q₀ := by
  obtain ⟨cs, hargs, horderly, hcs, hnone⟩ := h
  have hpos : 1 ≤ func.nargs := by cases func <;> decide
  have hlength : (args.take (func.nargs - 1)).length + 1 = func.nargs := by
    rw [List.length_take]
    omega
  refine ⟨⟨func, args.take (func.nargs - 1), hlength⟩ :: cs, ?_, ?_, ?_, ?_⟩
  · rw [List.flatMap_cons, ← hargs]
    simp [Command.words]
  · refine List.pairwise_cons.mpr ⟨fun d hd hc => hnone (hcloses hc) d hd, horderly⟩
  · intro c hc
    rcases List.mem_cons.mp hc with rfl | hc
    · rintro rfl asc hasc
      refine hparses rfl asc ?_
      cases args with
      | nil => cases hasc
      | cons a args =>
        simp only [Func.nargs, Nat.add_one_sub_one, List.take_succ_cons, List.take_zero,
          List.mem_singleton] at hasc
        rw [hasc, List.head?_cons]
    · exact hcs c hc
  · intro hq₀ c hc
    rcases List.mem_cons.mp hc with rfl | hc
    · exact hneeds hq₀
    · exact hnone (hcloses (Func.closes_of_not_needs (hneeds hq₀))) c hc

/-- The program fails. -/
private lemma failed_code_one : Follows E socketStep Tidy
    (do ifcClose; return .ok (.code 1) : Net (Except Undefined Exit))
    fun r _ _ => r ≠ .ok (.code 0) := by
  refine Follows.bind closes_ifcClose.isTidy fun _ => Follows.pure fun _ _ _ h => ?_
  cases h

/-- If the loop returns zero, the words that are left are admitted.

**Proof sketch.** By the recursion of the loop. Behind a command that has succeeded
(`callFunc_succeeds`) the socket is in some state, for which the other words are admitted by
induction; `Admitted.cons` puts the command in front. -/
private lemma commandLoop_succeeds (args : List (List UInt8)) (q₀ : Option ℕ) :
    Follows Refuses socketStep (fun v q => Tidy v q ∧ q = q₀) (commandLoop etherAton iname args)
      fun r _ _ => r = .ok (.code 0) → Admitted etherAton args q₀ := by
  induction args using commandLoop.induct generalizing q₀ with
  | case1 =>
    rw [commandLoop]
    refine Follows.imp (Closes.isTidy (closes_return _)) (fun _ _ h => h.1) fun _ _ _ _ _ => ?_
    exact ⟨[], rfl, List.Pairwise.nil, by simp, by simp⟩
  | case2 word args hfind =>
    rw [commandLoop, hfind]
    exact Follows.pure fun _ _ _ h => by cases h
  | case3 word args func hfind hlen =>
    rw [commandLoop, hfind]
    dsimp only
    rw [if_pos hlen]
    exact Follows.imp failed_code_one (fun _ _ h => h.1) fun _ _ _ h hr => absurd hr h
  | case4 word args func hfind hlen ih =>
    rw [commandLoop, hfind]
    dsimp only
    rw [if_neg hlen]
    refine Follows.bind (callFunc_succeeds func args q₀) fun r => ?_
    cases r with
    | error u => exact Follows.pure fun _ _ _ h => by cases h
    | ok r =>
      dsimp only
      by_cases hr : r = 0
      · rw [if_neg (not_not.mpr hr)]
        refine Follows.fix fun q => ?_
        subst hr
        refine Follows.assume (p := (q₀ = none → func.needsSocket = false) ∧
          (func.closesSocket = true → q = none) ∧
          (func = .setHwaddr → ∀ asc, args.head? = some asc → etherAton asc ≠ none)) ?_ ?_
        · rintro v q' ⟨⟨-, h⟩, rfl⟩
          exact h rfl
        · rintro ⟨hneeds, hcloses, hparses⟩
          refine Follows.imp (ih q) (fun _ _ h => ⟨h.1.1, h.2⟩) fun _ _ _ h hr => ?_
          obtain rfl := findCmd_eq_some.mp hfind
          exact (h hr).cons (by omega) hneeds hcloses hparses
      · rw [if_pos hr]
        exact Follows.imp failed_code_one (fun _ _ h => h.1) fun _ _ _ h hr => absurd hr h

/-- **Nothing but orderly commands succeeds**: when `netcfg` with some words returns zero, under a
kernel that refuses requests on no descriptor, the words are an interface and commands for it, with
hardware addresses that are some, and no command that makes requests on the control socket comes
after one that closes it. So there is nothing but `flhosts` and `deldefault` after `dhcp`.

**Proof sketch.** Along the calls of `main`: a result of zero is that of the loop over the commands,
which says that they are orderly (`commandLoop_succeeds`). -/
theorem main_succeeds {args : List (List UInt8)} {errno : ℤ} {log : List (Sigma Answer)} {v : Vars}
    (h : ((main etherAton args).run ⟨-1, errno⟩).Runs log (.ok (.code 0), v))
    (hE : ∀ e ∈ log, Refuses e) (hargs : args ≠ []) :
    ∃ (iname : List UInt8) (cs : List Command), args = iname :: cs.flatMap Command.words ∧
      cs ≠ [] ∧ iname.length ≤ 16 ∧ Orderly cs ∧ ∀ c ∈ cs, c.Parses etherAton := by
  have hmain : Follows Refuses socketStep Tidy (main etherAton args) fun r _ _ =>
      r = .ok (.code 0) → ∃ (iname : List UInt8) (cs : List Command),
        args = iname :: cs.flatMap Command.words ∧ cs ≠ [] ∧ iname.length ≤ 16 ∧ Orderly cs ∧
          ∀ c ∈ cs, c.Parses etherAton := by
    refine Follows.bind (stays_printf _).isTidy fun _ => ?_
    refine Follows.bind tidy_ifcInit fun r => ?_
    by_cases hr : r = 0
    · rw [if_neg (not_not.mpr hr)]
      refine Follows.bind (stays_printf _).isTidy fun _ => ?_
      match args, hargs with
      | [_], _ =>
        refine Follows.bind (stays_printf _).isTidy fun _ => Follows.pure fun _ _ _ h => ?_
        cases h
      | iname :: word :: rest, _ =>
        refine Follows.bind (stays_printf _).isTidy fun _ => ?_
        refine Follows.bind (stays_printf _).isTidy fun _ => ?_
        by_cases hlen : 16 < iname.length
        · rw [if_pos hlen]
          exact Follows.pure fun _ _ _ h => by cases h
        · rw [if_neg hlen]
          refine Follows.fix fun q => Follows.post (commandLoop_succeeds (word :: rest) q)
            fun _ _ _ h hr => ?_
          obtain ⟨cs, hwords, horderly, hcs, -⟩ := h hr
          refine ⟨iname, cs, congrArg _ hwords, ?_, by omega, horderly, hcs⟩
          rintro rfl
          cases hwords
    · rw [if_pos hr]
      exact Follows.pure fun _ _ _ h => by cases h
  obtain ⟨-, -, hpost⟩ := hmain ⟨-1, errno⟩ log _ v none h hE rfl
  exact hpost rfl

/-- Requests on the third descriptor are granted, and those on no descriptor are refused. -/
private lemma refuses_granting (lease : ∀ hwaddr, ClientRun hwaddr) (routes : List UInt8)
    (c : Call) :
    Refuses ⟨c, granting lease routes c⟩ := by
  cases c with
  | ioctl fd request =>
    intro hfd
    change (if fd < 0 then -1 else 0 : ℤ) < 0
    rw [if_pos hfd]
    decide
  | socket | close | dhcp | readRoutes | propertySet | readNames | print => trivial

/-- An interface is turned off, given a hardware address, turned on and configured, and then its
routes are removed.

**Proof sketch.** The run is that under the granting kernel, where the commands succeed because they
are orderly (`willing_main`). -/
theorem main_succeeds_each : ∃ (iname : List UInt8) (cs : List Command),
    [text ['l', 'o'], text ['d', 'o', 'w', 'n'], text ['h', 'w', 'a', 'd', 'd', 'r'],
      text ['0', ':', '0', ':', '0', ':', '0', ':', '0', ':', '2'], text ['u', 'p'],
      text ['d', 'h', 'c', 'p'], text ['f', 'l', 'h', 'o', 's', 't', 's'],
      text ['d', 'e', 'l', 'd', 'e', 'f', 'a', 'u', 'l', 't']] =
        iname :: cs.flatMap Command.words ∧
      cs ≠ [] ∧ iname.length ≤ 16 ∧ Orderly cs ∧ ∀ c ∈ cs, c.Parses atonTwo := by
  obtain ⟨lease, routes, hwilling⟩ := exists_willing_granting
  have hargs : [text ['l', 'o'], text ['d', 'o', 'w', 'n'], text ['h', 'w', 'a', 'd', 'd', 'r'],
      text ['0', ':', '0', ':', '0', ':', '0', ':', '0', ':', '2'], text ['u', 'p'],
      text ['d', 'h', 'c', 'p'], text ['f', 'l', 'h', 'o', 's', 't', 's'],
      text ['d', 'e', 'l', 'd', 'e', 'f', 'a', 'u', 'l', 't']] =
        text ['l', 'o'] :: eachCommand.flatMap Command.words := rfl
  rw [hargs]
  obtain ⟨log, hruns, hlog⟩ := exists_runs (granting lease routes) ((main atonTwo
    (text ['l', 'o'] :: eachCommand.flatMap Command.words)).run ⟨-1, 0⟩)
  have hE : ∀ e ∈ log, Willing e ∧ Refuses e := by
    rintro ⟨c, a⟩ he
    have ha : a = granting lease routes c := hlog _ he
    rw [ha]
    exact ⟨hwilling c, refuses_granting lease routes c⟩
  obtain ⟨-, -, hpost⟩ := willing_main (List.cons_ne_nil _ _) (by decide) orderly_eachCommand
    parses_eachCommand ⟨-1, 0⟩ log _ _ none hruns (fun e he => (hE e he).1) rfl
  rw [show Calling.result (granting lease routes) ((main atonTwo
    (text ['l', 'o'] :: eachCommand.flatMap Command.words)).run ⟨-1, 0⟩) =
      (.ok (.code 0), _) from Prod.ext hpost rfl] at hruns
  exact main_succeeds hruns (fun e he => (hE e he).2) (List.cons_ne_nil _ _)

end JzPretest.Netcfg

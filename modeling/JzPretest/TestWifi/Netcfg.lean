import JzPretest.TestWifi.ControlSocket

set_option relaxedAutoImplicit false
set_option autoImplicit false

/-!
# `netcfg`

`netcfg` lists the interfaces, or runs some commands for one of them, until one fails. It opens the
control socket once, before the first command; but some of the commands close it, and the commands
after them have none.

## Main definitions

* `JzPretest.Netcfg.doDhcp` — the command `dhcp`.
* `JzPretest.Netcfg.dumpInterfaces` — the list of interfaces.
* `JzPretest.Netcfg.commandLoop`, `JzPretest.Netcfg.main` — the program.

## Main results

* `JzPretest.Netcfg.main_closes` — the descriptors that are open in the end.
-/

namespace JzPretest.Netcfg

open Transition Calling Dhcp

/-! ## The command `dhcp` -/

/-- `dhcp_configure`. -/
def dhcpConfigure (ifname : List UInt8) (info : DhcpInfo) : Net ℤ :=
  ifcConfigure ifname info.ipaddr info.prefixLength info.gateway info.dns1 info.dns2

/-- `dhcp_init_ifc`, around its loop. -/
def dhcpInitIfc (ifname : List UInt8) : Net ℤ := do
  match ← ifcGetHwaddr ifname with
  | none => return -1
  | some hwaddr =>
    if (← ifcGetIfindex ifname) ≠ 0 then return -1
    let r ← dhcpLoop hwaddr
    match r.outcome with
    | .failed => return -1
    | .configure info => dhcpConfigure ifname info

/-- `do_dhcp`. -/
def doDhcp (iname : List UInt8) : Net ℤ := do
  if (← ifcSetAddr iname 0) ≠ 0 then return -1
  if (← ifcUp iname) ≠ 0 then return -1
  dhcpInitIfc iname

/-! ## The list of interfaces -/

/-- A text to the left of blanks, in so many places at least. -/
def padRight (width : ℕ) (s : List UInt8) : List UInt8 := s ++ List.replicate (width - s.length) 32

/-- A text to the right of a fill, in so many places at least. -/
def padLeft (width : ℕ) (fill : UInt8) (s : List UInt8) : List UInt8 :=
  List.replicate (width - s.length) fill ++ s

/-- `%x`, in so many places at least. -/
def hex (width n : ℕ) : List UInt8 := padLeft width 48 (text (Nat.toDigits 16 n))

/-- The state that an interface is listed with. -/
def stateWord (flags : UInt32) : List UInt8 :=
  if flags &&& 1 ≠ 0 then text ['U', 'P', ' ', ' '] else text ['D', 'O', 'W', 'N']

/-- What is printed of an interface before its hardware address. -/
def infoText (name : List UInt8) (info : Info) : List UInt8 :=
  padRight 8 name ++ [32] ++ stateWord info.flags ++ [32, 32] ++
    padLeft 40 32 (ipaddrToString info.addr) ++ [47] ++ padRight 4 (decimal info.prefixLength) ++
    text ['0', 'x'] ++ hex 8 info.flags.toNat ++ [32]

/-- What is printed of its hardware address. -/
def hwaddrText (hwaddr : Option (Vector UInt8 6)) : List UInt8 :=
  match hwaddr with
  | none => [10]
  | some hwaddr => List.intercalate [58] (hwaddr.toList.map fun b => hex 2 b.toNat) ++ [10]

/-- `dump_interface`. -/
def dumpInterface (name : List UInt8) : Net Unit := do
  let info ← ifcGetInfo name
  printf (infoText name info)
  let hwaddr ← ifcGetHwaddr name
  printf (hwaddrText hwaddr)

/-- The loop of `dump_interfaces`, for the names that are left. -/
def dumpLoop : List (List UInt8) → Net Unit
  | [] => return
  | name :: names => do
    if name.head? ≠ some 46 then
      dumpInterface name
    dumpLoop names

/-- `dump_interfaces`. -/
def dumpInterfaces : Net ℤ := do
  match ← readNames with
  | none => return -1
  | some names =>
    dumpLoop names
    return 0

/-! ## The commands -/

/-- The functions in `CMDS`. -/
inductive Func where
  | doDhcp
  | ifcUp
  | ifcDown
  | ifcRemoveHostRoutes
  | ifcRemoveDefaultRoute
  | setHwaddr
  deriving DecidableEq, Repr

/-- `CMDS[n].nargs`. -/
def Func.nargs : Func → ℕ
  | .setHwaddr => 2
  | _ => 1

/-- `CMDS`. -/
def cmds : List (List UInt8 × Func) := [
  (text ['d', 'h', 'c', 'p'], .doDhcp),
  (text ['u', 'p'], .ifcUp),
  (text ['d', 'o', 'w', 'n'], .ifcDown),
  (text ['f', 'l', 'h', 'o', 's', 't', 's'], .ifcRemoveHostRoutes),
  (text ['d', 'e', 'l', 'd', 'e', 'f', 'a', 'u', 'l', 't'], .ifcRemoveDefaultRoute),
  (text ['h', 'w', 'a', 'd', 'd', 'r'], .setHwaddr)]

/-- The search for a command. -/
def findCmd (word : List UInt8) : Option Func := (cmds.find? fun cmd => cmd.1 == word).map Prod.snd

/-- `set_hwaddr`. -/
def setHwaddr (etherAton : List UInt8 → Option (Vector UInt8 6)) (name asc : List UInt8) :
    Net ℤ := do
  match etherAton asc with
  | none =>
    printf (text ['F', 'a', 'i', 'l', 'e', 'd', ' ', 't', 'o', ' ', 'p', 'a', 'r', 's', 'e', ' '] ++
      [39] ++ asc ++ [39, 10])
    return -1
  | some addr => ifcSetHwaddr name addr

/-- `call_func`, for a function with the name of the interface and the words behind the command. -/
def callFunc (etherAton : List UInt8 → Option (Vector UInt8 6)) (iname : List UInt8) :
    Func → List (List UInt8) → Net (Except Undefined ℤ)
  | .doDhcp, _ => Except.ok <$> doDhcp iname
  | .ifcUp, _ => Except.ok <$> ifcUp iname
  | .ifcDown, _ => Except.ok <$> ifcDown iname
  | .ifcRemoveHostRoutes, _ => ifcRemoveHostRoutes iname
  | .ifcRemoveDefaultRoute, _ => Except.ok <$> ifcRemoveDefaultRoute iname
  | .setHwaddr, asc :: _ => Except.ok <$> setHwaddr etherAton iname asc
  | .setHwaddr, [] => return .ok (-1)

/-- How the program ends: it returns, or leaves with a code, or `usage` does so. -/
inductive Exit where
  | code (n : ℤ)
  | usage
  deriving DecidableEq, Repr

/-- The loop of `main`, for the words that are left. -/
def commandLoop (etherAton : List UInt8 → Option (Vector UInt8 6)) (iname : List UInt8) :
    List (List UInt8) → Net (Except Undefined Exit)
  | [] => do
    ifcClose
    return .ok (.code 0)
  | word :: args =>
    match findCmd word with
    | none => return .ok .usage
    | some func =>
      if args.length + 1 < func.nargs then do
        ifcClose
        return .ok (.code 1)
      else do
        match ← callFunc etherAton iname func args with
        | .error u => return .error u
        | .ok r =>
          if r ≠ 0 then
            ifcClose
            return .ok (.code 1)
          else commandLoop etherAton iname (args.drop (func.nargs - 1))
termination_by args => args.length
decreasing_by exact Nat.lt_succ_of_le (List.drop_sublist _ _).length_le

/-- `printf("%s: %d------------\n", __func__, __LINE__)`. -/
def mainLine (line : ℕ) : List UInt8 :=
  text ['m', 'a', 'i', 'n', ':', ' '] ++ decimal line ++ List.replicate 12 45 ++ [10]

/-- `main`, for the words behind the name of the program. -/
def main (etherAton : List UInt8 → Option (Vector UInt8 6)) (args : List (List UInt8)) :
    Net (Except Undefined Exit) := do
  printf (mainLine 142)
  if (← ifcInit) ≠ 0 then return .ok (.code 1)
  printf (mainLine 147)
  match args with
  | [] =>
    let result ← dumpInterfaces
    ifcClose
    return .ok (.code result)
  | [_] =>
    printf (mainLine 154)
    return .ok .usage
  | iname :: word :: rest =>
    printf (mainLine 154)
    printf (mainLine 157)
    if 16 < iname.length then return .ok .usage
    commandLoop etherAton iname (word :: rest)

/-! ## What is open in the end -/

variable {E : Sigma Answer → Prop} {ρ τ : Type}

/-- Either branch uses the socket properly. -/
lemma IsTidy.ite {c : Prop} [Decidable c] {x y : Net ρ} (hx : IsTidy E x) (hy : IsTidy E y) :
    IsTidy E (if c then x else y) := by
  split_ifs
  · exact hx
  · exact hy

/-- A function of what is returned. -/
theorem IsTidy.map {x : Net ρ} (hx : IsTidy E x) (f : ρ → τ) : IsTidy E (f <$> x) := by
  rw [map_eq_pure_bind]
  exact hx.bind fun _ => IsTidy.pure _

/-- `dhcp_init_ifc` uses the socket properly. -/
private lemma tidy_dhcpInitIfc (ifname : List UInt8) : IsTidy E (dhcpInitIfc ifname) := by
  refine IsTidy.bind ((stays_ifreq _ _).bind fun _ => Stays.pure _).isTidy fun hwaddr => ?_
  cases hwaddr with
  | none => exact IsTidy.pure _
  | some hwaddr =>
    refine IsTidy.bind ((stays_ifreq _ _).bind fun _ => Stays.pure _).isTidy fun r => ?_
    refine IsTidy.ite (IsTidy.pure _) ?_
    refine IsTidy.bind (stays_call fun _ _ => rfl).isTidy fun r => ?_
    cases r.outcome with
    | failed => exact IsTidy.pure _
    | configure info => exact (closes_ifcConfigure _ _ _ _ _ _).isTidy

/-- `do_dhcp` uses it properly. -/
private lemma tidy_doDhcp (iname : List UInt8) : IsTidy E (doDhcp iname) := by
  refine IsTidy.bind (stays_ifcSetAddr _ _).isTidy fun r => IsTidy.ite (IsTidy.pure _) ?_
  refine IsTidy.bind (stays_ifcSetFlags _ _ _).isTidy fun r => IsTidy.ite (IsTidy.pure _) ?_
  exact tidy_dhcpInitIfc iname

/-- `printf` leaves the socket. -/
theorem stays_printf (s : List UInt8) : Stays E (printf s) := stays_call fun _ _ => rfl

/-- `set_hwaddr` leaves it. -/
private lemma stays_setHwaddr (etherAton : List UInt8 → Option (Vector UInt8 6))
    (name asc : List UInt8) : Stays E (setHwaddr etherAton name asc) := by
  unfold setHwaddr
  cases etherAton asc with
  | none => exact (stays_printf _).bind fun _ => Stays.pure _
  | some addr => exact stays_ifcSetHwaddr name addr

/-- `dump_interface` leaves it. -/
private lemma stays_dumpInterface (name : List UInt8) : Stays E (dumpInterface name) :=
  (stays_ifcGetInfo name).bind fun _ => (stays_printf _).bind fun _ =>
    ((stays_ifreq name _).bind fun _ => Stays.pure _).bind fun _ => stays_printf _

/-- The loop of `dump_interfaces` leaves it, by induction on the names. -/
private lemma stays_dumpLoop (names : List (List UInt8)) : Stays E (dumpLoop names) := by
  induction names with
  | nil => exact Stays.pure _
  | cons name names ih =>
    exact Stays.ite ((stays_dumpInterface name).bind fun _ => ih) ih

/-- `dump_interfaces` leaves it. -/
private lemma stays_dumpInterfaces : Stays E dumpInterfaces := by
  refine Stays.bind (stays_call fun _ _ => rfl) fun names => ?_
  cases names with
  | none => exact Stays.pure _
  | some names => exact (stays_dumpLoop names).bind fun _ => Stays.pure _

variable (etherAton : List UInt8 → Option (Vector UInt8 6)) (iname : List UInt8)

/-- Each of the commands uses it properly. -/
theorem tidy_callFunc (func : Func) (args : List (List UInt8)) :
    IsTidy E (callFunc etherAton iname func args) := by
  cases func with
  | doDhcp => exact (tidy_doDhcp iname).map _
  | ifcUp => exact (stays_ifcSetFlags iname _ _).isTidy.map _
  | ifcDown => exact (stays_ifcSetFlags iname _ _).isTidy.map _
  | ifcRemoveHostRoutes => exact tidy_ifcRemoveHostRoutes iname
  | ifcRemoveDefaultRoute => exact (closes_ifcRemoveDefaultRoute iname).isTidy.map _
  | setHwaddr =>
    cases args with
    | nil => exact IsTidy.pure _
    | cons asc args => exact (stays_setHwaddr etherAton iname asc).isTidy.map _

/-- The socket is closed before the program returns, or leaves with a code. -/
def Leaves (E : Sigma Answer → Prop) (x : Net (Except Undefined Exit)) : Prop :=
  Follows E socketStep Tidy x fun r v q => Tidy v q ∧ ∀ n, r = .ok (.code n) → q = none

/-- What comes last closes the socket. -/
lemma IsTidy.bind_leaves {x : Net ρ} {f : ρ → Net (Except Undefined Exit)} (hx : IsTidy E x)
    (hf : ∀ a, Leaves E (f a)) : Leaves E (x >>= f) :=
  Follows.bind hx hf

/-- An end without a code may leave it open. -/
lemma leaves_pure {r : Except Undefined Exit} (h : ∀ n, r ≠ .ok (.code n)) :
    Leaves E (Pure.pure r) :=
  Follows.pure fun _ _ htidy => ⟨htidy, fun n hr => absurd hr (h n)⟩

/-- It is closed before the program ends with a code. -/
lemma leaves_code (n : ℤ) : Leaves E (do ifcClose; return .ok (.code n)) :=
  Follows.post (closes_return _) fun _ _ _ h => ⟨h.1, fun _ _ => h.2⟩

/-- It is closed behind the commands.

**Proof sketch.** By the recursion of the loop. It ends without a code at a word that is no command
and where something is undefined, and with one where an operand is missing, a command fails, or no
word is left. -/
private lemma leaves_commandLoop (args : List (List UInt8)) :
    Leaves E (commandLoop etherAton iname args) := by
  induction args using commandLoop.induct with
  | case1 =>
    rw [commandLoop]
    exact leaves_code 0
  | case2 word args hfind =>
    rw [commandLoop, hfind]
    exact leaves_pure fun n h => by cases h
  | case3 word args func hfind hlen =>
    rw [commandLoop, hfind]
    dsimp only
    rw [if_pos hlen]
    exact leaves_code 1
  | case4 word args func hfind hlen ih =>
    rw [commandLoop, hfind]
    dsimp only
    rw [if_neg hlen]
    refine (tidy_callFunc etherAton iname func args).bind_leaves fun r => ?_
    cases r with
    | error u => exact leaves_pure fun n h => by cases h
    | ok r =>
      dsimp only
      by_cases hr : r = 0
      · rw [if_neg (not_not.mpr hr)]
        exact ih
      · rw [if_pos hr]
        exact leaves_code 1

/-- **The descriptors that are open in the end**: whatever the commands are, and whatever the kernel
returns, the control socket is used properly, and it is closed before the program returns, or leaves
with a code; only `usage` leaves it open.

**Proof sketch.** By the words: without any, the interfaces are listed; with one or a name that
is too long, `usage` leaves; otherwise the loop over the commands closes the socket on every way
out. -/
theorem main_closes {args : List (List UInt8)} {errno : ℤ} {log : List (Sigma Answer)}
    {r : Except Undefined Exit} {v : Vars}
    (h : ((main etherAton args).run ⟨-1, errno⟩).Runs log (r, v)) :
    ∃ q, run socketStep none log = some q ∧ ∀ n, r = .ok (.code n) → q = none := by
  have hleaves : Leaves (fun _ => True) (main etherAton args) := by
    refine (stays_printf _).isTidy.bind_leaves fun _ => ?_
    refine Follows.bind ifcInit_result fun r => ?_
    by_cases hr : r = 0
    · rw [if_neg (not_not.mpr hr)]
      refine Follows.weaken Tidy (fun _ _ h => h.1) ?_
      refine (stays_printf _).isTidy.bind_leaves fun _ => ?_
      cases args with
      | nil =>
        refine stays_dumpInterfaces.isTidy.bind_leaves fun result => ?_
        exact leaves_code result
      | cons iname args =>
        cases args with
        | nil =>
          exact (stays_printf _).isTidy.bind_leaves fun _ => leaves_pure fun n h => by cases h
        | cons word rest =>
          refine (stays_printf _).isTidy.bind_leaves fun _ => ?_
          refine (stays_printf _).isTidy.bind_leaves fun _ => ?_
          split_ifs
          · exact leaves_pure fun n h => by cases h
          · exact leaves_commandLoop etherAton iname (word :: rest)
    · rw [if_pos hr]
      refine Follows.pure fun v q h => ⟨h.1, fun _ _ => ?_⟩
      by_contra hq
      exact hr (h.2.mpr hq)
  obtain ⟨q, hrun, -, hclosed⟩ := hleaves ⟨-1, errno⟩ log r v none h (fun _ _ => trivial) rfl
  exact ⟨q, hrun, hclosed⟩

/-- The list of the interfaces, where there is none. -/
theorem main_closes_list : run socketStep none [⟨.print (mainLine 142), ()⟩, ⟨.socket, .ok 3⟩,
    ⟨.print (mainLine 147), ()⟩, ⟨.readNames, none⟩, ⟨.close 3, ()⟩] = some none := by
  have h : ((main (fun _ => none) []).run ⟨-1, 0⟩).Runs [⟨.print (mainLine 142), ()⟩,
      ⟨.socket, .ok 3⟩, ⟨.print (mainLine 147), ()⟩, ⟨.readNames, none⟩, ⟨.close 3, ()⟩]
      (.ok (.code (-1)), ⟨-1, 0⟩) :=
    ⟨_, _, rfl, _, _, rfl, _, _, rfl, _, _, rfl, _, _, rfl, rfl, rfl⟩
  obtain ⟨q, hrun, hclosed⟩ := main_closes (fun _ => none) h
  rw [hrun, hclosed (-1) rfl]

end JzPretest.Netcfg

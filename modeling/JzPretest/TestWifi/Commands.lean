import JzPretest.TestWifi.Netcfg

set_option relaxedAutoImplicit false
set_option autoImplicit false

/-!
# Commands

The words behind the name of the interface are those of commands. `netcfg` opens the control socket
once: four of its commands make their requests on it as they find it, and three leave it closed.

## Main definitions

* `JzPretest.Netcfg.Command` — a command, with its operands.
* `JzPretest.Netcfg.Orderly` — commands that can be run one after the other.
-/

namespace JzPretest.Netcfg

open Dhcp

/-- The name of a function in `CMDS`. -/
def Func.word : Func → List UInt8
  | doDhcp => text ['d', 'h', 'c', 'p']
  | ifcUp => text ['u', 'p']
  | ifcDown => text ['d', 'o', 'w', 'n']
  | ifcRemoveHostRoutes => text ['f', 'l', 'h', 'o', 's', 't', 's']
  | ifcRemoveDefaultRoute => text ['d', 'e', 'l', 'd', 'e', 'f', 'a', 'u', 'l', 't']
  | setHwaddr => text ['h', 'w', 'a', 'd', 'd', 'r']

/-- The functions that make requests on the socket that is open before them. -/
def Func.needsSocket : Func → Bool
  | doDhcp | ifcUp | ifcDown | setHwaddr => true
  | ifcRemoveHostRoutes | ifcRemoveDefaultRoute => false

/-- The functions after which it is closed. -/
def Func.closesSocket : Func → Bool
  | doDhcp | ifcRemoveHostRoutes | ifcRemoveDefaultRoute => true
  | ifcUp | ifcDown | setHwaddr => false

/-- A command, with the words behind its name. -/
structure Command where
  func : Func
  args : List (List UInt8)
  length_args : args.length + 1 = func.nargs

/-- The words of a command. -/
def Command.words (c : Command) : List (List UInt8) := c.func.word :: c.args

/-- None that needs the socket comes after one that closes it. -/
def Orderly (cs : List Command) : Prop :=
  cs.Pairwise fun c d => c.func.closesSocket = true → d.func.needsSocket = false

/-- The hardware address behind `hwaddr` is one. -/
def Command.Parses (etherAton : List UInt8 → Option (Vector UInt8 6)) (c : Command) : Prop :=
  c.func = .setHwaddr → ∀ asc ∈ c.args, etherAton asc ≠ none

/-- A function is found by its name, and by nothing else. -/
theorem findCmd_eq_some {word : List UInt8} {func : Func} :
    findCmd word = some func ↔ word = func.word := by
  constructor
  · intro h
    obtain ⟨cmd, hfind, rfl⟩ := Option.map_eq_some_iff.mp h
    have hword : cmd.1 = word := by simpa using List.find?_some hfind
    rw [← hword]
    have hmem := List.mem_of_find?_eq_some hfind
    simp only [cmds, List.mem_cons, List.not_mem_nil, or_false] at hmem
    rcases hmem with rfl | rfl | rfl | rfl | rfl | rfl <;> rfl
  · rintro rfl
    cases func <;> rfl

/-- There are enough words for a command with its operands. -/
theorem Command.nargs_le (c : Command) (rest : List (List UInt8)) :
    ¬ (c.args ++ rest).length + 1 < c.func.nargs := by
  rw [List.length_append, ← c.length_args]
  omega

/-- Behind the operands come the words of the other commands. -/
theorem Command.drop_args (c : Command) (rest : List (List UInt8)) :
    (c.args ++ rest).drop (c.func.nargs - 1) = rest := by
  rw [← c.length_args, Nat.add_sub_cancel]
  exact List.drop_left

end JzPretest.Netcfg

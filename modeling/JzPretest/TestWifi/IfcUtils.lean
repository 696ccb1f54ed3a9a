import JzPretest.Semantics.Calling
import JzPretest.Semantics.CString
import JzPretest.TestWifi.DhcpClient
import JzPretest.TestWifi.RouteTable

set_option relaxedAutoImplicit false
set_option autoImplicit false

/-!
# The interface utilities

What `ifc_utils.c` asks of the kernel for an interface of IPv4: its flags and addresses, its routes,
and the properties with its name servers. The control socket is a static variable: `ifc_init` opens
it unless it is open, and `ifc_close` closes it. Some functions do both by themselves, so the socket
is closed after them, whoever has opened it.

## Main definitions

* `JzPretest.Netcfg.Call`, `JzPretest.Netcfg.Answer` — the calls and what they return.
* `JzPretest.Netcfg.Net` — programs with the static variables; the functions under their names.
-/

namespace JzPretest.Netcfg

open Transition Dhcp

/-! ## Calls -/

/-- `struct rtentry`; `none` is what `memset` leaves of an address. -/
structure Rtentry where
  dev : List UInt8
  dst : UInt32
  genmask : Option UInt32
  gateway : Option UInt32
  flags : UInt32
  deriving DecidableEq, Repr

/-- What an interface is asked for with `ioctl`. -/
inductive Request where
  | getFlags
  | setFlags (flags : UInt16)
  | getAddr
  | setAddr (addr : UInt32)
  | getNetmask
  | setNetmask (mask : UInt32)
  | getHwaddr
  | setHwaddr (hwaddr : Vector UInt8 6)
  | getIfindex
  deriving DecidableEq, Repr

/-- The requests of `ioctl`: one for the interface with a name, or one for a route. -/
inductive Ioctl where
  | interface (name : List UInt8) (request : Request)
  | addRoute (rt : Rtentry)
  | delRoute (rt : Rtentry)
  deriving DecidableEq, Repr

/-- What `ioctl` returns, `errno` if that is negative, and what is in `struct ifreq` then. -/
structure Returned where
  result : ℤ
  errno : ℤ
  flags : UInt16
  addr : UInt32
  hwaddr : Vector UInt8 6
  deriving DecidableEq, Repr

/-- A run of the loop of `dhcp_init_ifc` to its end. -/
structure ClientRun (hwaddr : Vector UInt8 6) where
  xid : UInt32
  info₀ : DhcpInfo
  discoverMsg : DhcpMsg
  requestMsg : DhcpMsg
  reply : DhcpMsg
  events : List Event
  outcome : Outcome
  client : Client
  run_eq : run Dhcp.step (Client.start hwaddr xid info₀ discoverMsg requestMsg reply) events =
    some (.returned outcome client)

/-- The calls: of the kernel, of the loop of `dhcp_init_ifc`, and of the C library, for a file, for
the properties and for the output. -/
inductive Call where
  | socket
  | close (fd : ℤ)
  | ioctl (fd : ℤ) (request : Ioctl)
  | dhcp (hwaddr : Vector UInt8 6)
  | readRoutes
  | propertySet (key value : List UInt8)
  | readNames
  | print (text : List UInt8)

/-- What a call returns: a descriptor or `errno`, the text of the table of routes and the names of
the interfaces if there are any. -/
def Answer : Call → Type
  | .socket => Except ℤ ℕ
  | .close _ => Unit
  | .ioctl _ _ => Returned
  | .dhcp hwaddr => ClientRun hwaddr
  | .readRoutes => Option (List UInt8)
  | .propertySet _ _ => Unit
  | .readNames => Option (List (List UInt8))
  | .print _ => Unit

/-- `ifc_ctl_sock` and `errno`. -/
structure Vars where
  ctlSock : ℤ
  errno : ℤ
  deriving DecidableEq, Repr

/-- Programs with these variables. -/
abbrev Net (ρ : Type) : Type := StateT Vars (Calling Call Answer) ρ

/-- `socket`. -/
def socket : Net (Except ℤ ℕ) := Calling.call Call.socket

/-- `close`. -/
def close (fd : ℤ) : Net Unit := Calling.call (Call.close fd)

/-- The loop of `dhcp_init_ifc`. -/
def dhcpLoop (hwaddr : Vector UInt8 6) : Net (ClientRun hwaddr) := Calling.call (Call.dhcp hwaddr)

/-- The text of the table of routes. -/
def readRoutes : Net (Option (List UInt8)) := Calling.call Call.readRoutes

/-- `property_set`. -/
def propertySet (key value : List UInt8) : Net Unit := Calling.call (Call.propertySet key value)

/-- The names of the interfaces, as `readdir` returns them. -/
def readNames : Net (Option (List (List UInt8))) := Calling.call Call.readNames

/-- `printf`. -/
def printf (text : List UInt8) : Net Unit := Calling.call (Call.print text)

/-- `ioctl`, on a descriptor. -/
def ioctlOn (fd : ℤ) (request : Ioctl) : Net Returned := Calling.call (Call.ioctl fd request)

/-- `ioctl`, on the control socket. -/
def ioctl (request : Ioctl) : Net Returned := do
  let v ← get
  let a ← ioctlOn v.ctlSock request
  set (if a.result < 0 then { v with errno := a.errno } else v)
  return a

/-! ## The functions -/

/-- `ifc_init`. -/
def ifcInit : Net ℤ := do
  let v ← get
  if v.ctlSock = -1 then
    match ← socket with
    | .ok fd => set { v with ctlSock := fd }
    | .error e => set { v with errno := e }
  let v ← get
  return if v.ctlSock < 0 then -1 else 0

/-- `ifc_close`. -/
def ifcClose : Net Unit := do
  let v ← get
  if v.ctlSock ≠ -1 then
    close v.ctlSock
    set { v with ctlSock := -1 }

/-- `ifc_init_ifr`: the name, as far as there is room for it. -/
def ifrName (name : List UInt8) : List UInt8 := name.take 15

/-- `ioctl`, for the interface with this name. -/
def ifreq (name : List UInt8) (request : Request) : Net Returned :=
  ioctl (.interface (ifrName name) request)

/-- `IFF_UP`. -/
def iffUp : UInt16 := 1

/-- `ifc_get_hwaddr`; there is no address if it fails. -/
def ifcGetHwaddr (name : List UInt8) : Net (Option (Vector UInt8 6)) := do
  let a ← ifreq name .getHwaddr
  return if a.result < 0 then none else some a.hwaddr

/-- `ifc_get_ifindex`, without the index. -/
def ifcGetIfindex (name : List UInt8) : Net ℤ := do
  let a ← ifreq name .getIfindex
  return if a.result < 0 then -1 else 0

/-- `ifc_set_flags`. -/
def ifcSetFlags (name : List UInt8) (set clr : UInt16) : Net ℤ := do
  let a ← ifreq name .getFlags
  if a.result < 0 then return -1
  let b ← ifreq name (.setFlags ((a.flags &&& ~~~clr) ||| set))
  return b.result

/-- `ifc_up`. -/
def ifcUp (name : List UInt8) : Net ℤ := ifcSetFlags name iffUp 0

/-- `ifc_down`. -/
def ifcDown (name : List UInt8) : Net ℤ := ifcSetFlags name 0 iffUp

/-- `ifc_set_addr`. -/
def ifcSetAddr (name : List UInt8) (addr : UInt32) : Net ℤ := do
  let a ← ifreq name (.setAddr addr)
  return a.result

/-- `ifc_set_hwaddr`. -/
def ifcSetHwaddr (name : List UInt8) (hwaddr : Vector UInt8 6) : Net ℤ := do
  let a ← ifreq name (.setHwaddr hwaddr)
  return a.result

/-- `ifc_set_mask`. -/
def ifcSetMask (name : List UInt8) (mask : UInt32) : Net ℤ := do
  let a ← ifreq name (.setNetmask mask)
  return a.result

/-- `ifc_set_prefixLength`. -/
def ifcSetPrefixLength (name : List UInt8) (prefixLength : ℤ) : Net ℤ := do
  if 32 < prefixLength ∨ prefixLength < 0 then return -1
  let a ← ifreq name (.setNetmask (prefixLengthToIpv4Netmask prefixLength))
  return a.result

/-- `ifc_get_addr`: what it returns, and the address. -/
def ifcGetAddr (name : List UInt8) : Net (ℤ × UInt32) := do
  let a ← ifreq name .getAddr
  return (a.result, if a.result < 0 then 0 else a.addr)

/-- What `ifc_get_info` finds. -/
structure Info where
  addr : UInt32
  prefixLength : ℕ
  flags : UInt32
  deriving DecidableEq, Repr

/-- `ifc_get_info`; the flags are extended with their sign. -/
def ifcGetInfo (name : List UInt8) : Net Info := do
  let a ← ifreq name .getAddr
  let b ← ifreq name .getNetmask
  let c ← ifreq name .getFlags
  return {
    addr := if a.result < 0 then 0 else a.addr
    prefixLength := if b.result < 0 then 0 else ipv4NetmaskToPrefixLength b.addr
    flags := if c.result < 0 then 0 else c.flags.toInt16.toInt32.toUInt32 }

/-- `EEXIST`. -/
def eexist : ℤ := 17

/-- The entry that `ifc_act_on_ipv4_route` fills in. -/
def ipv4Route (ifname : List UInt8) (dst : UInt32) (prefixLength : ℤ) (gw : UInt32) : Rtentry where
  dev := ifname
  dst := dst
  genmask := some (prefixLengthToIpv4Netmask prefixLength)
  gateway := if gw ≠ 0 then some gw else none
  flags := rtfUp ||| (if prefixLength = 32 then rtfHost else 0) |||
    (if gw ≠ 0 then rtfGateway else 0)

/-- `ifc_act_on_ipv4_route`, for one of the two requests. -/
def ifcActOnIpv4Route (action : Rtentry → Ioctl) (ifname : List UInt8) (dst : UInt32)
    (prefixLength : ℤ) (gw : UInt32) : Net ℤ := do
  let _ ← ifcInit
  let v ← get
  if v.ctlSock < 0 then return -v.errno
  let a ← ioctl (action (ipv4Route ifname dst prefixLength gw))
  ifcClose
  return if a.result < 0 then (if a.errno = eexist then 0 else -a.errno) else a.result

/-- `ifc_create_default_route`. -/
def ifcCreateDefaultRoute (name : List UInt8) (gw : UInt32) : Net ℤ :=
  ifcActOnIpv4Route .addRoute name 0 0 gw

/-- `ifc_add_host_route`. -/
def ifcAddHostRoute (name : List UInt8) (dst : UInt32) : Net ℤ :=
  ifcActOnIpv4Route .addRoute name dst 32 0

/-- The loop that takes the addresses of an interface away, for so many passes more. -/
def clearLoop (name : List UInt8) : ℕ → Net Unit
  | 0 => return
  | passes + 1 => do
    let (r, addr) ← ifcGetAddr name
    if r < 0 then return
    if addr ≠ 0 then
      let _ ← ifcSetAddr name 0
      clearLoop name passes

/-- `ifc_clear_ipv4_addresses`. -/
def ifcClearIpv4Addresses (name : List UInt8) : Net Unit := do
  let _ ← ifcInit
  clearLoop name 255
  ifcClose

/-- `ifc_enable`. -/
def ifcEnable (ifname : List UInt8) : Net ℤ := do
  let _ ← ifcInit
  let result ← ifcUp ifname
  ifcClose
  return result

/-- `ifc_disable`. -/
def ifcDisable (ifname : List UInt8) : Net ℤ := do
  let _ ← ifcInit
  let result ← ifcDown ifname
  let _ ← ifcSetAddr ifname 0
  clearLoop ifname 255
  ifcClose
  return result

/-- The rows for which `ifc_remove_host_routes` removes a route. -/
def Route.isHostRoute (name : List UInt8) (r : Route) : Bool :=
  r.flags &&& (rtfUp ||| rtfHost) == rtfUp ||| rtfHost && r.name == name

/-- The route that is removed for a row. -/
def Route.removed (name : List UInt8) (r : Route) : Rtentry where
  dev := name
  dst := r.dest
  genmask := some r.mask
  gateway := some r.gway
  flags := 0

/-- The loop that removes routes, for the rows that are left. -/
def removeLoop (name : List UInt8) : List Route → Net Unit
  | [] => return
  | r :: rows => do
    if r.isHostRoute name then
      let _ ← ioctl (.delRoute (r.removed name))
    removeLoop name rows

/-- `ifc_remove_host_routes`. -/
def ifcRemoveHostRoutes (name : List UInt8) : Net (Except Undefined ℤ) := do
  match ← readRoutes with
  | none => return .ok (-1)
  | some text =>
    match skipHeader text with
    | none => return .ok (-1)
    | some body =>
      let _ ← ifcInit
      removeLoop name (scan body).rows
      match (scan body).undefined with
      | some u => return .error u
      | none =>
        ifcClose
        return .ok 0

/-- The row that `ifc_get_default_route` looks for. -/
def Route.isDefault (ifname : List UInt8) (r : Route) : Bool :=
  r.flags &&& (rtfUp ||| rtfGateway) == rtfUp ||| rtfGateway && r.dest == 0 && r.name == ifname

/-- `ifc_get_default_route`. -/
def ifcGetDefaultRoute (ifname : List UInt8) : Net (Except Undefined UInt32) := do
  match ← readRoutes with
  | none => return .ok 0
  | some text =>
    match skipHeader text with
    | none => return .ok 0
    | some body =>
      let _ ← ifcInit
      match (scan body).rows.find? (Route.isDefault ifname), (scan body).undefined with
      | none, some u => return .error u
      | r, _ =>
        ifcClose
        return .ok ((r.map Route.gway).getD 0)

/-- `ifc_set_default_route`. -/
def ifcSetDefaultRoute (ifname : List UInt8) (gateway : UInt32) : Net ℤ := do
  let _ ← ifcInit
  let result ← ifcCreateDefaultRoute ifname gateway
  ifcClose
  return result

/-- `ifc_remove_default_route`. -/
def ifcRemoveDefaultRoute (ifname : List UInt8) : Net ℤ := do
  let _ ← ifcInit
  let a ← ioctl (.delRoute ⟨ifname, 0, none, none, rtfUp ||| rtfGateway⟩)
  ifcClose
  return a.result

/-- `ipaddr_to_string`. -/
def ipaddrToString (addr : UInt32) : List UInt8 :=
  List.intercalate [46] ((littleEndian 4 addr.toNat).map fun b => decimal b.toNat)

/-- The name of a property, as far as there is room for it. -/
def dnsPropName (ifname : List UInt8) (digit : UInt8) : List UInt8 :=
  (text ['n', 'e', 't', '.'] ++ ifname ++ text ['.', 'd', 'n', 's'] ++ [digit]).take 31

/-- The value of such a property. -/
def dnsValue (dns : UInt32) : List UInt8 := if dns ≠ 0 then ipaddrToString dns else []

/-- `ifc_configure`. -/
def ifcConfigure (ifname : List UInt8) (address : UInt32) (prefixLength : UInt32)
    (gateway dns1 dns2 : UInt32) : Net ℤ := do
  let _ ← ifcInit
  if (← ifcUp ifname) ≠ 0 then
    ifcClose
    return -1
  if (← ifcSetAddr ifname address) ≠ 0 then
    ifcClose
    return -1
  if (← ifcSetPrefixLength ifname prefixLength.toInt32.toInt) ≠ 0 then
    ifcClose
    return -1
  if (← ifcCreateDefaultRoute ifname gateway) ≠ 0 then
    ifcClose
    return -1
  ifcClose
  propertySet (dnsPropName ifname 49) (dnsValue dns1)
  propertySet (dnsPropName ifname 50) (dnsValue dns2)
  return 0

end JzPretest.Netcfg

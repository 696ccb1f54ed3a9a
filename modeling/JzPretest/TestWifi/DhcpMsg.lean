import JzPretest.Semantics.ByteIO

set_option relaxedAutoImplicit false
set_option autoImplicit false

/-!
# DHCP messages

`struct dhcp_msg` has a fixed part, and room for options behind it. `dhcpmsg.c` builds the two
messages that the client sends, the one that looks for servers and the one that requests an address
from one of them.

## Main definitions

* `JzPretest.Dhcp.DhcpMsg` — a message in memory, with its fields.
* `JzPretest.Dhcp.initDhcpDiscoverMsg`, `JzPretest.Dhcp.initDhcpRequestMsg` — the two messages.

## Main results

* `JzPretest.Dhcp.fromClient_discover`, `JzPretest.Dhcp.fromClient_request` — their fixed parts.
-/

namespace JzPretest.Dhcp

/-- `htons` and `ntohs`: the network has the highest byte first. -/
abbrev htons (v : UInt16) : UInt16 := swap16 v

@[inherit_doc htons] abbrev ntohs (v : UInt16) : UInt16 := swap16 v

/-- `PORT_BOOTP_SERVER`. -/
def portBootpServer : UInt32 := 67

/-- `PORT_BOOTP_CLIENT`. -/
def portBootpClient : UInt32 := 68

/-- `OP_BOOTREQUEST`. -/
def opBootrequest : UInt8 := 1

/-- `OP_BOOTREPLY`. -/
def opBootreply : UInt8 := 2

/-- `FLAGS_BROADCAST`. -/
def flagsBroadcast : UInt16 := 0x8000

/-- `HTYPE_ETHER`. -/
def htypeEther : UInt8 := 1

/-- `DHCP_MSG_FIXED_SIZE`. -/
def dhcpMsgFixedSize : ℕ := 236

/-- `sizeof(struct dhcp_msg)`: 1024 bytes for options follow the fixed part. -/
abbrev dhcpMsgSize : ℕ := 1260

/-- `OPT_COOKIE1` to `OPT_COOKIE4`. -/
def optCookie : List UInt8 := [0x63, 0x82, 0x53, 0x63]

/-- The cookie has four bytes. -/
@[simp] theorem length_optCookie : optCookie.length = 4 := rfl

/-- `OPT_PAD`. -/
def optPad : UInt8 := 0

/-- `OPT_SUBNET_MASK`. -/
def optSubnetMask : UInt8 := 1

/-- `OPT_GATEWAY`. -/
def optGateway : UInt8 := 3

/-- `OPT_DNS`. -/
def optDns : UInt8 := 6

/-- `OPT_BROADCAST_ADDR`. -/
def optBroadcastAddr : UInt8 := 28

/-- `OPT_REQUESTED_IP`. -/
def optRequestedIp : UInt8 := 50

/-- `OPT_LEASE_TIME`. -/
def optLeaseTime : UInt8 := 51

/-- `OPT_MESSAGE_TYPE`. -/
def optMessageType : UInt8 := 53

/-- `OPT_SERVER_ID`. -/
def optServerId : UInt8 := 54

/-- `OPT_PARAMETER_LIST`. -/
def optParameterList : UInt8 := 55

/-- `OPT_END`. -/
def optEnd : UInt8 := 255

/-- `DHCPDISCOVER`. -/
def dhcpDiscover : UInt8 := 1

/-- `DHCPOFFER`. -/
def dhcpOffer : UInt8 := 2

/-- `DHCPREQUEST`. -/
def dhcpRequest : UInt8 := 3

/-- `DHCPACK`. -/
def dhcpAck : UInt8 := 5

/-- `DHCPNAK`. -/
def dhcpNak : UInt8 := 6

/-! ## Messages in memory -/

/-- `struct dhcp_msg`. -/
@[ext] structure DhcpMsg where
  data : Buffer
  size_eq : data.size = dhcpMsgSize

namespace DhcpMsg

/-- `op`. -/
def op (m : DhcpMsg) : UInt8 := m.data.byte 0

/-- `htype`. -/
def htype (m : DhcpMsg) : UInt8 := m.data.byte 1

/-- `hlen`. -/
def hlen (m : DhcpMsg) : UInt8 := m.data.byte 2

/-- `xid`. -/
def xid (m : DhcpMsg) : UInt32 := m.data.field32 4

/-- `yiaddr`. -/
def yiaddr (m : DhcpMsg) : UInt32 := m.data.field32 16

/-- The first bytes of `chaddr`. -/
def chaddr (m : DhcpMsg) (n : ℕ) : List UInt8 := slice m.data.byte 28 n

/-- The message that `memset` leaves. -/
def zero : DhcpMsg := ⟨⟨dhcpMsgSize, fun _ => 0⟩, rfl⟩

/-- Bytes are stored in a message, which has room for them. -/
def put (m : DhcpMsg) (pos : ℕ) (bytes : List UInt8)
    (_ : pos + bytes.length ≤ dhcpMsgSize) : DhcpMsg :=
  ⟨m.data.overlay pos bytes, m.size_eq⟩

end DhcpMsg

/-! ## The messages of the client -/

/-- `init_dhcp_msg`: the message, and where its next option belongs. -/
def initDhcpMsg (type : UInt8) (hwaddr : Vector UInt8 6) (xid : UInt32) : DhcpMsg × ℕ :=
  let msg := DhcpMsg.zero
  let msg := msg.put 0 [opBootrequest, htypeEther, 6, 0] (by simp [dhcpMsgSize])
  let msg := msg.put 10 (littleEndian 2 (htons flagsBroadcast).toNat) (by simp [dhcpMsgSize])
  let msg := msg.put 4 (littleEndian 4 xid.toNat) (by simp [dhcpMsgSize])
  let msg := msg.put 28 hwaddr.toList (by simp [dhcpMsgSize])
  let msg := msg.put 236 (optCookie ++ [optMessageType, 1, type]) (by simp [dhcpMsgSize])
  (msg, 236 + 7)

/-- The option with the list of the options that the client wants to know. -/
def parameterList : List UInt8 :=
  [optParameterList, 4, optSubnetMask, optGateway, optDns, optBroadcastAddr]

/-- What `init_dhcp_discover_msg` puts behind the type. -/
def discoverOptions : List UInt8 := parameterList ++ [optEnd]

/-- What `init_dhcp_request_msg` puts behind the type. -/
def requestOptions (ipaddr serveraddr : UInt32) : List UInt8 :=
  parameterList ++ [optRequestedIp, 4] ++ littleEndian 4 ipaddr.toNat ++
    [optServerId, 4] ++ littleEndian 4 serveraddr.toNat ++ [optEnd]

/-- The options of the message that looks for servers. -/
@[simp] theorem length_discoverOptions : discoverOptions.length = 7 := rfl

/-- The options of the message that requests an address. -/
@[simp] theorem length_requestOptions (ipaddr serveraddr : UInt32) :
    (requestOptions ipaddr serveraddr).length = 19 := rfl

/-- `init_dhcp_discover_msg`: the message, and its size. -/
def initDhcpDiscoverMsg (hwaddr : Vector UInt8 6) (xid : UInt32) : DhcpMsg × ℕ :=
  let (msg, x) := initDhcpMsg dhcpDiscover hwaddr xid
  (msg.put 243 discoverOptions (by simp [dhcpMsgSize]), x + discoverOptions.length)

/-- `init_dhcp_request_msg`: the message, and its size. -/
def initDhcpRequestMsg (hwaddr : Vector UInt8 6) (xid ipaddr serveraddr : UInt32) :
    DhcpMsg × ℕ :=
  let (msg, x) := initDhcpMsg dhcpRequest hwaddr xid
  (msg.put 243 (requestOptions ipaddr serveraddr) (by simp [dhcpMsgSize]),
    x + (requestOptions ipaddr serveraddr).length)

/-! ## What the messages hold -/

namespace DhcpMsg

/-- What is stored is there. -/
theorem slice_put (m : DhcpMsg) (pos : ℕ) {n : ℕ} {bytes : List UInt8}
    (h : pos + bytes.length ≤ dhcpMsgSize) (hn : bytes.length = n) :
    slice (m.put pos bytes h).data.byte pos n = bytes := by
  subst hn
  exact Buffer.slice_overlay m.data pos bytes

/-- What is stored elsewhere changes nothing here. -/
theorem slice_put_of_disjoint (m : DhcpMsg) {pos p n : ℕ} {bytes : List UInt8}
    {hput : pos + bytes.length ≤ dhcpMsgSize} (h : p + n ≤ pos ∨ pos + bytes.length ≤ p) :
    slice (m.put pos bytes hput).data.byte p n = slice m.data.byte p n :=
  Buffer.slice_overlay_of_disjoint m.data h

/-- The fixed part of a message of this client. -/
structure FromClient (m : DhcpMsg) (hwaddr : Vector UInt8 6) (xid : UInt32) : Prop where
  head : slice m.data.byte 0 4 = [opBootrequest, htypeEther, 6, 0]
  xid : slice m.data.byte 4 4 = littleEndian 4 xid.toNat
  yiaddr : slice m.data.byte 16 4 = [0, 0, 0, 0]
  chaddr : slice m.data.byte 28 6 = hwaddr.toList

/-- The fixed part stays as it is when options are stored. -/
lemma FromClient.put {m : DhcpMsg} {hwaddr : Vector UInt8 6} {xid : UInt32}
    (h : m.FromClient hwaddr xid) {pos : ℕ} {bytes : List UInt8}
    (hput : pos + bytes.length ≤ dhcpMsgSize) (hpos : dhcpMsgFixedSize ≤ pos) :
    (m.put pos bytes hput).FromClient hwaddr xid := by
  unfold dhcpMsgFixedSize at hpos
  constructor
  · rw [slice_put_of_disjoint m (by omega), h.head]
  · rw [slice_put_of_disjoint m (by omega), h.xid]
  · rw [slice_put_of_disjoint m (by omega), h.yiaddr]
  · rw [slice_put_of_disjoint m (by omega), h.chaddr]

end DhcpMsg

/-- **A message of the client**: its fixed part. -/
lemma fromClient_init (type : UInt8) (hwaddr : Vector UInt8 6) (xid : UInt32) :
    (initDhcpMsg type hwaddr xid).1.FromClient hwaddr xid := by
  unfold initDhcpMsg
  refine DhcpMsg.FromClient.put ⟨?_, ?_, ?_, ?_⟩ (by simp [dhcpMsgSize]) (by decide)
  · rw [DhcpMsg.slice_put_of_disjoint _ (by simp), DhcpMsg.slice_put_of_disjoint _ (by simp),
      DhcpMsg.slice_put_of_disjoint _ (by simp)]
    exact DhcpMsg.slice_put _ 0 (by simp [dhcpMsgSize]) rfl
  · rw [DhcpMsg.slice_put_of_disjoint _ (by simp)]
    exact DhcpMsg.slice_put _ 4 (by simp [dhcpMsgSize]) (length_littleEndian 4 _)
  · rw [DhcpMsg.slice_put_of_disjoint _ (by simp), DhcpMsg.slice_put_of_disjoint _ (by simp),
      DhcpMsg.slice_put_of_disjoint _ (by simp), DhcpMsg.slice_put_of_disjoint _ (by simp)]
    rfl
  · exact DhcpMsg.slice_put _ 28 (by simp [dhcpMsgSize]) hwaddr.length_toList

/-- **The message that looks for servers**: its fixed part. -/
theorem fromClient_discover (hwaddr : Vector UInt8 6) (xid : UInt32) :
    (initDhcpDiscoverMsg hwaddr xid).1.FromClient hwaddr xid :=
  (fromClient_init dhcpDiscover hwaddr xid).put (by simp [dhcpMsgSize]) (by decide)

/-- **The message that requests an address**: its fixed part. -/
theorem fromClient_request (hwaddr : Vector UInt8 6) (xid ipaddr serveraddr : UInt32) :
    (initDhcpRequestMsg hwaddr xid ipaddr serveraddr).1.FromClient hwaddr xid :=
  (fromClient_init dhcpRequest hwaddr xid).put (by simp [dhcpMsgSize]) (by decide)

end JzPretest.Dhcp

import JzPretest.TestWifi.PacketDelivery

set_option relaxedAutoImplicit false
set_option autoImplicit false

/-!
# The DHCP client

`dhcp_init_ifc` broadcasts for a server, requests the address that one of them offers, and
configures the interface with it. It sends its message again after 4, 8 and 16 seconds, and gives up
32 seconds later. What it waits for is one event after another: the time-out of `poll`, a failure of
`poll` or of `read`, or a datagram, which need not have anything to do with it.

## Main definitions

* `JzPretest.Dhcp.isValidReply` — the check of a reply.
* `JzPretest.Dhcp.Client` — the variables of `dhcp_init_ifc`; `JzPretest.Dhcp.Event` — what a round
  of its loop can be woken up by.
* `JzPretest.Dhcp.Client.handle`, `JzPretest.Dhcp.step` — a round of the loop.
* `JzPretest.Dhcp.payload`, `JzPretest.Dhcp.Overruns` — what a datagram is to the client.
* `JzPretest.Dhcp.ValidReply` — what a valid reply consists of.

## Main results

* `JzPretest.Dhcp.Client.transmit_eq` — what is sent.
* `JzPretest.Dhcp.Client.handle_datagram` — what the client makes of a datagram.
-/

namespace JzPretest.Dhcp

open Transition

/-- `STATE_SELECTING` and `STATE_REQUESTING`. -/
inductive Phase where
  | selecting
  | requesting
  deriving DecidableEq, Repr

/-- `TIMEOUT_INITIAL`. -/
def timeoutInitial : ℕ := 4000

/-- `TIMEOUT_MAX`. -/
def timeoutMax : ℕ := 32000

/-- `INADDR_ANY`. -/
def inaddrAny : UInt32 := 0

/-- `INADDR_BROADCAST`. -/
def inaddrBroadcast : UInt32 := 0xffffffff

/-- `send_message`: the packet that is sent. -/
def sendMessage (msg : DhcpMsg) (size : ℕ) : Except Fault (List UInt8) :=
  sendPacket msg size inaddrAny inaddrBroadcast portBootpClient portBootpServer

/-- `is_valid_reply`. -/
def isValidReply (msg reply : DhcpMsg) (sz : ℤ) : Bool :=
  if sz < dhcpMsgFixedSize then false
  else if reply.op ≠ opBootreply then false
  else if reply.xid ≠ msg.xid then false
  else if reply.htype ≠ msg.htype then false
  else if reply.hlen ≠ msg.hlen then false
  else if msg.chaddr msg.hlen.toNat ≠ reply.chaddr msg.hlen.toNat then false
  else true

/-- The variables of `dhcp_init_ifc`, with the packets that it has handed to the socket, and whether
it has closed the socket. -/
structure Client where
  hwaddr : Vector UInt8 6
  state : Phase
  timeout : ℕ
  xid : UInt32
  info : DhcpInfo
  discoverMsg : DhcpMsg
  requestMsg : DhcpMsg
  reply : DhcpMsg
  sent : List (List UInt8)
  closed : Bool

/-- What `errno` can be after `poll` has failed. -/
inductive PollErrno where
  | eagain
  | eintr
  | other
  deriving DecidableEq, Repr

/-- What `errno` can be after `read` has failed. -/
inductive ReadErrno where
  | enetdown
  | enxio
  | other
  deriving DecidableEq, Repr

/-- What `poll` returns with, and what is read then. A datagram comes with what the memory of
`receive_packet` holds before. -/
inductive Event where
  | timeout
  | pollFailed (errno : PollErrno)
  | readFailed (errno : ReadErrno)
  | datagram (stack : DhcpPacket) (bytes : List UInt8)

/-- What `dhcp_init_ifc` returns: `-1`, or what `dhcp_configure` makes of an information. -/
inductive Outcome where
  | failed
  | configure (info : DhcpInfo)
  deriving DecidableEq, Repr

/-- Where `dhcp_init_ifc` is: at the beginning of a round, at its end, or out of bounds. -/
inductive Status where
  | polling (c : Client)
  | returned (outcome : Outcome) (c : Client)
  | crashed (fault : Fault) (c : Client)

namespace Client

/-- What follows the label `transmit`. -/
def transmit (c : Client) : Except Fault Client :=
  match c.state with
  | .selecting => do
    let (msg, size) := initDhcpDiscoverMsg c.hwaddr c.xid
    let packet ← sendMessage msg size
    return { c with discoverMsg := msg, sent := c.sent ++ [packet] }
  | .requesting => do
    let (msg, size) := initDhcpRequestMsg c.hwaddr c.xid c.info.ipaddr c.info.serveraddr
    let packet ← sendMessage msg size
    return { c with requestMsg := msg, sent := c.sent ++ [packet] }

/-- The next round comes after the message has been sent, unless something has been out of
bounds. -/
def resume (c : Client) : Status :=
  match c.transmit with
  | .ok c => .polling c
  | .error f => .crashed f c

/-- The message that a reply has to belong to. -/
def awaited (c : Client) : DhcpMsg :=
  match c.state with
  | .selecting => c.discoverMsg
  | .requesting => c.requestMsg

/-- The last `switch` of the loop, for a valid reply. -/
def answer (c : Client) : Status :=
  match c.state with
  | .selecting =>
    if c.info.type = dhcpOffer.toUInt32 then
      resume { c with state := .requesting, timeout := timeoutInitial, xid := c.xid + 1 }
    else .polling c
  | .requesting =>
    if c.info.type = dhcpAck.toUInt32 then .returned (.configure c.info) { c with closed := true }
    else if c.info.type = dhcpNak.toUInt32 then .returned .failed { c with closed := true }
    else .polling c

/-- What follows `receive_packet`, if it has returned `r`: what is decoded is kept, also of a reply
that is not valid. -/
def hear (c : Client) (r : ℤ) (reply : DhcpMsg) : Status :=
  match decodeDhcpMsg reply r with
  | .error f => .crashed f c
  | .ok (_, info) =>
    if isValidReply c.awaited reply r then answer { c with reply, info }
    else .polling { c with reply, info }

/-- A round of the loop. -/
def handle (c : Client) : Event → Status
  | .timeout =>
    if timeoutMax ≤ c.timeout then
      if c.info.type = dhcpOffer.toUInt32 then .returned (.configure c.info) c
      else .returned .failed { c with closed := true }
    else resume { c with timeout := c.timeout * 2 }
  | .pollFailed .eagain => .polling c
  | .pollFailed .eintr => .polling c
  | .pollFailed .other => .returned .failed c
  | .readFailed .enetdown => .returned .failed c
  | .readFailed .enxio => .returned .failed c
  | .readFailed .other => .polling c
  | .datagram stack bytes =>
    match receivePacket stack (some bytes) c.reply with
    | .error f => .crashed f c
    | .ok (r, reply) => if r < 0 then .polling { c with reply } else c.hear r reply

/-- `dhcp_init_ifc` up to the loop; the variables that it leaves uninitialised hold anything. -/
def start (hwaddr : Vector UInt8 6) (xid : UInt32) (info : DhcpInfo)
    (discoverMsg requestMsg reply : DhcpMsg) : Status :=
  resume
    { hwaddr, xid, discoverMsg, requestMsg, reply
      state := .selecting
      timeout := timeoutInitial
      info := { info with type := 0 }
      sent := []
      closed := false }

end Client

/-- An event: `dhcp_init_ifc` waits for one as long as it has not returned. -/
def step : Status → Event → Option Status
  | .polling c, e => some (c.handle e)
  | _, _ => none

/-! ## What is sent -/

/-- The packet that looks for servers. -/
def discoverPacket (hwaddr : Vector UInt8 6) (xid : UInt32) : List UInt8 :=
  ((sendMessage (initDhcpDiscoverMsg hwaddr xid).1 250).toOption).getD []

/-- The packet that requests an address. -/
def requestPacket (hwaddr : Vector UInt8 6) (xid ipaddr serveraddr : UInt32) : List UInt8 :=
  ((sendMessage (initDhcpRequestMsg hwaddr xid ipaddr serveraddr).1 262).toOption).getD []

/-- A message that is short enough is sent. -/
lemma sendMessage_eq_ok {msg : DhcpMsg} {size : ℕ} (h : size ≤ dhcpMsgSize) :
    sendMessage msg size = .ok ((sendMessage msg size).toOption.getD []) := by
  obtain ⟨udp, hsend, -⟩ := sendPacket_eq msg h inaddrAny inaddrBroadcast portBootpClient
    portBootpServer
  rw [sendMessage, hsend]
  rfl

/-- The message that looks for servers is sent. -/
private lemma sendMessage_discover (hwaddr : Vector UInt8 6) (xid : UInt32) :
    sendMessage (initDhcpDiscoverMsg hwaddr xid).1 (initDhcpDiscoverMsg hwaddr xid).2 =
      .ok (discoverPacket hwaddr xid) :=
  sendMessage_eq_ok (show 250 ≤ dhcpMsgSize by decide)

/-- The message that requests an address is sent. -/
private lemma sendMessage_request (hwaddr : Vector UInt8 6) (xid ipaddr serveraddr : UInt32) :
    sendMessage (initDhcpRequestMsg hwaddr xid ipaddr serveraddr).1
        (initDhcpRequestMsg hwaddr xid ipaddr serveraddr).2 =
      .ok (requestPacket hwaddr xid ipaddr serveraddr) :=
  sendMessage_eq_ok (show 262 ≤ dhcpMsgSize by decide)

namespace Client

/-- What the client sends next. -/
def packet (c : Client) : List UInt8 :=
  match c.state with
  | .selecting => discoverPacket c.hwaddr c.xid
  | .requesting => requestPacket c.hwaddr c.xid c.info.ipaddr c.info.serveraddr

/-- After a message has been sent. -/
def transmitted (c : Client) : Client :=
  match c.state with
  | .selecting =>
    { c with
      discoverMsg := (initDhcpDiscoverMsg c.hwaddr c.xid).1
      sent := c.sent ++ [c.packet] }
  | .requesting =>
    { c with
      requestMsg := (initDhcpRequestMsg c.hwaddr c.xid c.info.ipaddr c.info.serveraddr).1
      sent := c.sent ++ [c.packet] }

/-- **Sending** stays within the messages. -/
theorem transmit_eq (c : Client) : c.transmit = .ok c.transmitted := by
  unfold transmit transmitted packet
  cases c.state with
  | selecting =>
    simp only [sendMessage_discover]
    rfl
  | requesting =>
    simp only [sendMessage_request]
    rfl

/-- The client waits after it has sent its message. -/
theorem resume_eq (c : Client) : c.resume = .polling c.transmitted := by
  rw [resume, transmit_eq]

/-- Sending leaves the hardware address. -/
@[simp] theorem transmitted_hwaddr (c : Client) : c.transmitted.hwaddr = c.hwaddr := by
  unfold transmitted
  split <;> rfl

/-- It leaves the state. -/
@[simp] theorem transmitted_state (c : Client) : c.transmitted.state = c.state := by
  unfold transmitted
  split <;> simp_all

/-- It leaves the time-out. -/
@[simp] theorem transmitted_timeout (c : Client) : c.transmitted.timeout = c.timeout := by
  unfold transmitted
  split <;> rfl

/-- It leaves the number of the transaction. -/
@[simp] theorem transmitted_xid (c : Client) : c.transmitted.xid = c.xid := by
  unfold transmitted
  split <;> rfl

/-- It leaves what has been heard. -/
@[simp] theorem transmitted_info (c : Client) : c.transmitted.info = c.info := by
  unfold transmitted
  split <;> rfl

/-- It leaves the socket. -/
@[simp] theorem transmitted_closed (c : Client) : c.transmitted.closed = c.closed := by
  unfold transmitted
  split <;> rfl

/-- One more packet has been sent. -/
@[simp] theorem transmitted_sent (c : Client) : c.transmitted.sent = c.sent ++ [c.packet] := by
  unfold transmitted
  split <;> rfl

/-- The message that has been sent is the one that a reply has to belong to. -/
theorem fromClient_transmitted (c : Client) :
    c.transmitted.awaited.FromClient c.hwaddr c.xid := by
  unfold transmitted awaited
  cases c.state with
  | selecting => exact fromClient_discover c.hwaddr c.xid
  | requesting => exact fromClient_request c.hwaddr c.xid c.info.ipaddr c.info.serveraddr

end Client

/-! ## What is heard -/

/-- The message that a datagram delivers. -/
def payload (stack : DhcpPacket) (bytes : List UInt8) : Option (List UInt8) :=
  if (stack.read bytes).Accepted (readLen bytes) ∧ 8 ≤ (stack.read bytes).udpLength ∧
      (stack.read bytes).udpLength ≤ 8 + dhcpMsgSize then
    some (slice (stack.read bytes).data.byte 28 ((stack.read bytes).udpLength - 8))
  else none

/-- A datagram that makes `receive_packet` run out of bounds. -/
def Overruns (stack : DhcpPacket) (bytes : List UInt8) : Prop :=
  (stack.read bytes).Accepted (readLen bytes) ∧
    ¬ (8 ≤ (stack.read bytes).udpLength ∧ (stack.read bytes).udpLength ≤ 8 + dhcpMsgSize)

instance (stack : DhcpPacket) (bytes : List UInt8) : Decidable (Overruns stack bytes) :=
  inferInstanceAs (Decidable (_ ∧ _))

/-- A reply to the message with this number, of the client with this address. -/
structure ValidReply (hwaddr : Vector UInt8 6) (xid : UInt32) (bytes : List UInt8) : Prop where
  long : dhcpMsgFixedSize ≤ bytes.length
  head : bytes.take 3 = [opBootreply, htypeEther, 6]
  xid : (bytes.drop 4).take 4 = littleEndian 4 xid.toNat
  chaddr : (bytes.drop 28).take 6 = hwaddr.toList

instance (hwaddr : Vector UInt8 6) (xid : UInt32) (bytes : List UInt8) :
    Decidable (ValidReply hwaddr xid bytes) :=
  decidable_of_iff (dhcpMsgFixedSize ≤ bytes.length ∧
      bytes.take 3 = [opBootreply, htypeEther, 6] ∧
      (bytes.drop 4).take 4 = littleEndian 4 xid.toNat ∧ (bytes.drop 28).take 6 = hwaddr.toList)
    ⟨fun ⟨h1, h2, h3, h4⟩ => ⟨h1, h2, h3, h4⟩, fun ⟨h1, h2, h3, h4⟩ => ⟨h1, h2, h3, h4⟩⟩

/-- A message that is delivered is no longer than the room for it. -/
private lemma length_le_of_payload {stack : DhcpPacket} {bytes bs : List UInt8}
    (h : payload stack bytes = some bs) : bs.length ≤ dhcpMsgSize := by
  unfold payload at h
  split_ifs at h with hcond
  obtain rfl := Option.some.inj h
  rw [length_slice]
  omega

/-- **What a datagram is to the client**: it delivers a message, it is refused, or it makes
`receive_packet` run out of bounds.

**Proof sketch.** By whether the packet is accepted and whether its UDP length fits. -/
theorem receivePacket_cases (stack : DhcpPacket) (bytes : List UInt8) (reply : DhcpMsg) :
    (∃ bs reply', payload stack bytes = some bs ∧ ¬ Overruns stack bytes ∧
      receivePacket stack (some bytes) reply = .ok (bs.length, reply') ∧
      slice reply'.data.byte 0 bs.length = bs) ∨
    (payload stack bytes = none ∧ ¬ Overruns stack bytes ∧
      receivePacket stack (some bytes) reply = .ok (-1, reply)) ∨
    (payload stack bytes = none ∧ Overruns stack bytes ∧
      ∃ f, receivePacket stack (some bytes) reply = .error f) := by
  by_cases haccepted : (stack.read bytes).Accepted (readLen bytes)
  · by_cases hfits : 8 ≤ (stack.read bytes).udpLength ∧
        (stack.read bytes).udpLength ≤ 8 + dhcpMsgSize
    · have hreceive := receivePacket_of_accepted reply haccepted hfits.1
        (by rw [length_slice]; omega)
      have hlen : ((stack.read bytes).udpLength : ℤ) - 8 =
          (slice (stack.read bytes).data.byte 28 ((stack.read bytes).udpLength - 8)).length := by
        rw [length_slice]
        omega
      exact .inl ⟨_, _, if_pos ⟨haccepted, hfits⟩, fun h => h.2 hfits,
        hreceive.trans (congrArg Except.ok (Prod.ext hlen rfl)),
        DhcpMsg.slice_put reply 0 (by rw [length_slice]; omega) rfl⟩
    · refine .inr (.inr ⟨if_neg fun h => hfits h.2, ⟨haccepted, hfits⟩, ?_⟩)
      exact (receivePacket_eq_error_iff stack bytes reply).mpr ⟨haccepted, hfits⟩
  · refine .inr (.inl ⟨if_neg fun h => haccepted h.1, fun h => haccepted h.1, ?_⟩)
    exact (receivePacket_eq_neg_one_iff stack bytes reply).mpr haccepted

/-- What `is_valid_reply` checks, for a message of this client.

**Proof sketch.** The message of the client has the type and the length of Ethernet addresses, its
number and its address, so comparing with it is comparing with these. Each field of the reply is
read from the bytes that came. -/
private lemma isValidReply_iff {msg reply : DhcpMsg} {hwaddr : Vector UInt8 6} {xid : UInt32}
    (hmsg : msg.FromClient hwaddr xid) {bs : List UInt8}
    (hreply : slice reply.data.byte 0 bs.length = bs) :
    isValidReply msg reply bs.length = true ↔ ValidReply hwaddr xid bs := by
  have hfixed : dhcpMsgFixedSize = 236 := rfl
  by_cases hlong : bs.length < dhcpMsgFixedSize
  · rw [isValidReply, if_pos (by omega)]
    exact iff_of_false (by simp) fun h => absurd h.long (by omega)
  have hhtype : msg.htype = htypeEther :=
    List.singleton_inj.mp (slice_of_slice hmsg.head (k := 1) (m := 1) (by decide))
  have hhlen : msg.hlen = 6 :=
    List.singleton_inj.mp (slice_of_slice hmsg.head (k := 2) (m := 1) (by decide))
  have hxid : msg.xid = xid := Buffer.field32_eq hmsg.xid
  have hhead : bs.take 3 = [reply.op, reply.htype, reply.hlen] := by
    have h := slice_of_slice hreply (k := 0) (m := 3) (by omega)
    rw [List.drop_zero] at h
    exact h.symm
  have hxid' : (bs.drop 4).take 4 = slice reply.data.byte 4 4 := by
    rw [← slice_of_slice hreply (by omega), Nat.zero_add]
  have hchaddr : (bs.drop 28).take 6 = reply.chaddr 6 := by
    rw [← slice_of_slice hreply (by omega), Nat.zero_add, DhcpMsg.chaddr]
  have hvalid : ValidReply hwaddr xid bs ↔
      (reply.op = opBootreply ∧ reply.htype = htypeEther ∧ reply.hlen = 6) ∧
        reply.xid = xid ∧ reply.chaddr 6 = hwaddr.toList := by
    constructor
    · rintro ⟨-, h1, h2, h3⟩
      rw [hhead] at h1
      simp only [List.cons.injEq, and_true] at h1
      exact ⟨h1, Buffer.field32_eq (hxid'.symm.trans h2), hchaddr.symm.trans h3⟩
    · rintro ⟨⟨h1, h2, h3⟩, h4, h5⟩
      refine ⟨by omega, by rw [hhead, h1, h2, h3], ?_, hchaddr.trans h5⟩
      rw [hxid', Buffer.slice_field32, ← h4, DhcpMsg.xid]
  have hchaddr' : msg.chaddr 6 = hwaddr.toList := hmsg.chaddr
  have hcheck : ∀ (p : Prop) [Decidable p] (b : Bool),
      (if ¬ p then false else b) = true ↔ p ∧ b = true := by
    intro p _ b
    by_cases hp : p <;> simp [hp]
  rw [hvalid, isValidReply, if_neg (by omega), hhtype, hhlen, hxid,
    show (6 : UInt8).toNat = 6 from rfl, hchaddr']
  simp only [ne_eq, hcheck, and_true]
  constructor
  · rintro ⟨h1, h2, h3, h4, h5⟩
    exact ⟨⟨h1, h3, h4⟩, h2, h5.symm⟩
  · rintro ⟨⟨h1, h2, h3⟩, h4, h5⟩
    exact ⟨h1, h4, h2, h3, h5.symm⟩

/-- **A datagram**: what it delivers is kept, valid or not, and answered if it is valid.

**Proof sketch.** By `receivePacket_cases`: what is delivered is decoded as its bytes say
(`decode_eq`), and valid if they are a valid reply. -/
theorem Client.handle_datagram {c : Client} (hc : c.awaited.FromClient c.hwaddr c.xid)
    (stack : DhcpPacket) (bytes : List UInt8) :
    (∃ bs reply, payload stack bytes = some bs ∧ ¬ Overruns stack bytes ∧
      c.handle (.datagram stack bytes) =
        if ValidReply c.hwaddr c.xid bs then answer { c with reply, info := (infoOf bs).2 }
        else .polling { c with reply, info := (infoOf bs).2 }) ∨
    (payload stack bytes = none ∧ ¬ Overruns stack bytes ∧
      c.handle (.datagram stack bytes) = .polling c) ∨
    (payload stack bytes = none ∧ Overruns stack bytes ∧
      ∃ f, c.handle (.datagram stack bytes) = .crashed f c) := by
  rcases receivePacket_cases stack bytes c.reply with
    ⟨bs, reply, hpayload, hoverruns, hreceive, hreply⟩ | ⟨hpayload, hoverruns, hreceive⟩ |
    ⟨hpayload, hoverruns, f, hreceive⟩
  · refine .inl ⟨bs, reply, hpayload, hoverruns, ?_⟩
    have hdecode := decode_eq reply (length_le_of_payload hpayload)
    rw [hreply] at hdecode
    simp only [handle, hreceive]
    rw [if_neg (by omega), hear, hdecode]
    simp only [isValidReply_iff hc hreply]
  · refine .inr (.inl ⟨hpayload, hoverruns, ?_⟩)
    simp only [handle, hreceive]
    rw [if_pos (by decide)]
  · refine .inr (.inr ⟨hpayload, hoverruns, f, ?_⟩)
    simp only [handle, hreceive]

end JzPretest.Dhcp

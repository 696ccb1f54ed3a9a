import JzPretest.TestWifi.DhcpSession

set_option relaxedAutoImplicit false
set_option autoImplicit false

/-!
# A server for the DHCP client

What a server sends to the client, and what arrives of it.

## Main definitions

* `JzPretest.Dhcp.FromServer` — a message of a server to this client; `JzPretest.Dhcp.serverMsg` is
  one, with any options.
* `JzPretest.Dhcp.Delivers` — a datagram that such a message arrives in.

## Main results

* `JzPretest.Dhcp.Delivers.payload`, `JzPretest.Dhcp.FromServer.infoOf` — what arrives of it.
* `JzPretest.Dhcp.signal_of_delivers` — the signal that it is to a session.
-/

namespace JzPretest.Dhcp

open Transition

variable {hwaddr : Vector UInt8 6} {xid : UInt32}

/-- A message of a server to the client with this address, with this number and these options. -/
structure FromServer (hwaddr : Vector UInt8 6) (xid : UInt32) (m : DhcpMsg) (size : ℕ)
    (l : List (Option Tlv.Item)) : Prop where
  le : size ≤ dhcpMsgSize
  head : slice m.data.byte 0 3 = [opBootreply, htypeEther, 6]
  number : slice m.data.byte 4 4 = littleEndian 4 xid.toNat
  chaddr : slice m.data.byte 28 6 = hwaddr.toList
  fits : ∀ i, some i ∈ l → i.Fits optPad optEnd
  typed : ∀ i, some i ∈ l → i.code = optMessageType → i.value ≠ []
  options : ∃ junk, (slice m.data.byte 0 size).drop dhcpMsgFixedSize =
    optCookie ++ (Tlv.encode optPad l ++ optEnd :: junk)

/-- The options fit behind the fixed part. -/
lemma fits_options {l : List (Option Tlv.Item)}
    (h : 241 + (Tlv.encode optPad l).length ≤ dhcpMsgSize) :
    236 + (optCookie ++ (Tlv.encode optPad l ++ [optEnd])).length ≤ dhcpMsgSize := by
  simp only [List.length_append, length_optCookie, List.length_singleton]
  omega

/-- A message that a server can send: these options, and the rest of it as small as it can be. -/
def serverMsg (hwaddr : Vector UInt8 6) (xid yiaddr : UInt32) (l : List (Option Tlv.Item))
    (h : 241 + (Tlv.encode optPad l).length ≤ dhcpMsgSize) : DhcpMsg :=
  let msg := DhcpMsg.zero
  let msg := msg.put 0 [opBootreply, htypeEther, 6] (by decide)
  let msg := msg.put 4 (littleEndian 4 xid.toNat) (by rw [length_littleEndian]; decide)
  let msg := msg.put 16 (littleEndian 4 yiaddr.toNat) (by rw [length_littleEndian]; decide)
  let msg := msg.put 28 hwaddr.toList (by rw [hwaddr.length_toList]; decide)
  msg.put 236 (optCookie ++ (Tlv.encode optPad l ++ [optEnd])) (fits_options h)

/-- It is one from a server.

**Proof sketch.** The four parts of the message do not overlap, so each is read back where it was
put. -/
private lemma fromServer_serverMsg (hwaddr : Vector UInt8 6) (xid yiaddr : UInt32)
    {l : List (Option Tlv.Item)} (h : 241 + (Tlv.encode optPad l).length ≤ dhcpMsgSize)
    (hfits : ∀ i, some i ∈ l → i.Fits optPad optEnd)
    (htyped : ∀ i, some i ∈ l → i.code = optMessageType → i.value ≠ []) :
    FromServer hwaddr xid (serverMsg hwaddr xid yiaddr l h)
      (241 + (Tlv.encode optPad l).length) l where
  le := h
  head := by
    unfold serverMsg
    dsimp only
    rw [DhcpMsg.slice_put_of_disjoint _ (by simp), DhcpMsg.slice_put_of_disjoint _ (by simp),
      DhcpMsg.slice_put_of_disjoint _ (by simp), DhcpMsg.slice_put_of_disjoint _ (by simp)]
    exact DhcpMsg.slice_put _ 0 (by simp [dhcpMsgSize]) rfl
  number := by
    unfold serverMsg
    dsimp only
    rw [DhcpMsg.slice_put_of_disjoint _ (by simp), DhcpMsg.slice_put_of_disjoint _ (by simp),
      DhcpMsg.slice_put_of_disjoint _ (by simp)]
    exact DhcpMsg.slice_put _ 4 (by simp [dhcpMsgSize]) (length_littleEndian 4 _)
  chaddr := by
    unfold serverMsg
    dsimp only
    rw [DhcpMsg.slice_put_of_disjoint _ (by simp)]
    exact DhcpMsg.slice_put _ 28 (by simp [dhcpMsgSize]) hwaddr.length_toList
  fits := hfits
  typed := htyped
  options := by
    have hfixed : dhcpMsgFixedSize = 236 := rfl
    refine ⟨[], ?_⟩
    have hlen : (optCookie ++ (Tlv.encode optPad l ++ [optEnd])).length =
        5 + (Tlv.encode optPad l).length := by
      simp only [List.length_append, length_optCookie, List.length_singleton]
      omega
    rw [drop_slice _ _ (by omega), Nat.zero_add]
    exact DhcpMsg.slice_put _ 236 (by omega) (by omega)

/-- A message with no other option than its type. -/
theorem fromServer_typeItem (hwaddr : Vector UInt8 6) (xid yiaddr : UInt32) (type : UInt8) :
    FromServer hwaddr xid (serverMsg hwaddr xid yiaddr [some (typeItem type)]
      (show 244 ≤ dhcpMsgSize by decide)) 244 [some (typeItem type)] :=
  fromServer_serverMsg hwaddr xid yiaddr _ (fits_typeItem type) (typed_typeItem type)

/-- What such a message says. -/
def said (m : DhcpMsg) (l : List (Option Tlv.Item)) : DhcpInfo :=
  meaning ((lastWrite messageType l.reduceOption).getD 0) m.yiaddr l.reduceOption

/-- A datagram that a message arrives in: somebody has sent it to the port of the client, and the
network may have appended something. -/
def Delivers (m : DhcpMsg) (size : ℕ) (bytes : List UInt8) : Prop :=
  ∃ saddr daddr sport sent padding,
    sendPacket m size saddr daddr sport portBootpClient = .ok sent ∧ bytes = sent ++ padding

/-- Each of them can arrive. -/
theorem FromServer.exists_delivers {m : DhcpMsg} {size : ℕ} {l : List (Option Tlv.Item)}
    (h : FromServer hwaddr xid m size l) : ∃ bytes, Delivers m size bytes := by
  obtain ⟨udp, hsend, -⟩ := sendPacket_eq m h.le 0 0 0 portBootpClient
  exact ⟨_, 0, 0, 0, _, [], hsend, (List.append_nil _).symm⟩

/-- The message arrives as it is.

**Proof sketch.** `receivePacket_sendPacket` delivers the message, which excludes the other cases of
`receivePacket_cases`. -/
theorem Delivers.payload {m : DhcpMsg} {size : ℕ} {bytes : List UInt8} (h : Delivers m size bytes)
    (hsize : size ≤ dhcpMsgSize) (stack : DhcpPacket) :
    payload stack bytes = some (slice m.data.byte 0 size) := by
  obtain ⟨saddr, daddr, sport, sent, padding, hsend, rfl⟩ := h
  have hreceive := receivePacket_sendPacket hsize hsend padding stack DhcpMsg.zero
  rcases receivePacket_cases stack (sent ++ padding) DhcpMsg.zero with
    ⟨bs, reply, hpayload, -, hcases, hslice⟩ | ⟨-, -, hcases⟩ | ⟨-, -, f, hcases⟩
  · rw [hcases] at hreceive
    obtain ⟨hlen, rfl⟩ := Prod.mk.inj (Except.ok.inj hreceive)
    have hlen' : bs.length = size := by exact_mod_cast hlen
    rw [hlen', DhcpMsg.slice_put _ 0 _ (length_slice _ _ _)] at hslice
    rw [hpayload, hslice]
  · rw [hcases] at hreceive
    have hlen := (Prod.mk.inj (Except.ok.inj hreceive)).1
    omega
  · rw [hcases] at hreceive
    cases hreceive

/-- The client understands what it says. -/
theorem FromServer.infoOf {m : DhcpMsg} {size : ℕ} {l : List (Option Tlv.Item)}
    (h : FromServer hwaddr xid m size l) :
    (infoOf (slice m.data.byte 0 size)).2 = said m l := by
  obtain ⟨junk, hjunk⟩ := h.options
  have hdecode := decode_encode h.le h.fits h.typed hjunk
  rw [decode_eq m h.le] at hdecode
  exact congrArg Prod.snd (Except.ok.inj hdecode)

/-- It is a valid reply to the message with the same number. -/
theorem FromServer.validReply {m : DhcpMsg} {size : ℕ} {l : List (Option Tlv.Item)}
    (h : FromServer hwaddr xid m size l) : ValidReply hwaddr xid (slice m.data.byte 0 size) := by
  have hfixed : dhcpMsgFixedSize = 236 := rfl
  obtain ⟨junk, hjunk⟩ := h.options
  have hlen := congrArg List.length hjunk
  rw [List.length_drop, length_slice, List.length_append, length_optCookie] at hlen
  refine ⟨by rw [length_slice]; omega, ?_, ?_, ?_⟩
  · rw [take_slice _ _ (by omega), h.head]
  · rw [drop_slice _ _ (by omega), take_slice _ _ (by omega), Nat.zero_add, h.number]
  · rw [drop_slice _ _ (by omega), take_slice _ _ (by omega), Nat.zero_add, h.chaddr]

/-- The signal that it is. -/
theorem signal_of_delivers {m : DhcpMsg} {size : ℕ} {bytes : List UInt8}
    (h : Delivers m size bytes) (hsize : size ≤ dhcpMsgSize) (stack : DhcpPacket) :
    signal (.datagram stack bytes) = .message (slice m.data.byte 0 size) := by
  have hpayload := h.payload hsize stack
  have hoverruns : ¬ Overruns stack bytes := by
    intro hoverruns
    rw [Dhcp.payload, if_neg fun hcond => hoverruns.2 hcond.2] at hpayload
    cases hpayload
  rw [signal, if_neg hoverruns, hpayload]
  rfl

end JzPretest.Dhcp

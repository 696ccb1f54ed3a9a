import JzPretest.Semantics.OnesComplement
import JzPretest.TestWifi.DhcpMsg

set_option relaxedAutoImplicit false
set_option autoImplicit false

/-!
# The packets of the DHCP client

`packet.c` sends and receives DHCP messages on a raw socket, so it writes and checks the headers of
IP and UDP by itself. The socket delivers every IP packet that reaches the interface;
`receive_packet` takes those for the client's port whose two checksums are right, and copies their
message for the caller.

## Main definitions

* `JzPretest.Dhcp.checksum`, `JzPretest.Dhcp.finishSum` — the checksum of both headers.
* `JzPretest.Dhcp.sendPacket` — the packet that `send_packet` sends.
* `JzPretest.Dhcp.receivePacket` — what `receive_packet` makes of what has been read.

## Main results

* `JzPretest.Dhcp.toNat_checksum` — the checksum is the ones' complement sum of the words.
-/

namespace JzPretest.Dhcp

open OnesComplement

/-! ## The checksum -/

/-- The words that `checksum` adds to its sum; of an odd number of bytes, the last one is added by
itself. -/
def addWords : List UInt8 → UInt32 → UInt32
  | a :: b :: rest, sum => addWords rest (sum + UInt32.ofNat (ofLittleEndian [a, b]))
  | [a], sum => sum + a.toUInt32
  | [], sum => sum

/-- Nothing is left of the high half if the number has sixteen bits. -/
lemma shiftRight_eq_zero_iff (sum : UInt32) : sum >>> 16 = 0 ↔ sum.toNat < 65536 := by
  rw [← UInt32.toNat_inj, UInt32.toNat_shiftRight]
  simp only [UInt32.reduceToNat, Nat.reduceMod, Nat.shiftRight_eq_div_pow]
  omega

/-- What is above 16 bits, added to what is below. -/
lemma toNat_carry (sum : UInt32) :
    ((sum &&& (0xffff : UInt32)) + (sum >>> 16)).toNat = carry 65536 sum.toNat := by
  have hlt := sum.toNat_lt
  have hand : sum.toNat &&& 65535 = sum.toNat % 65536 := Nat.and_two_pow_sub_one_eq_mod _ 16
  rw [UInt32.toNat_add, UInt32.toNat_and, UInt32.toNat_shiftRight]
  simp only [UInt32.reduceToNat, Nat.reduceMod, Nat.shiftRight_eq_div_pow]
  rw [hand, carry]
  omega

/-- The last loop of `checksum`: what is above 16 bits is added to what is below. -/
def foldSum (sum : UInt32) : UInt32 :=
  if sum >>> 16 = 0 then sum else foldSum ((sum &&& (0xffff : UInt32)) + (sum >>> 16))
termination_by sum.toNat
decreasing_by
  have h : ¬ sum.toNat < 65536 := fun h => ‹¬ sum >>> 16 = 0› ((shiftRight_eq_zero_iff sum).mpr h)
  rw [toNat_carry]
  exact carry_lt (by decide) (by omega)

/-- `checksum`. -/
def checksum (buffer : List UInt8) (startsum : UInt32) : UInt32 :=
  foldSum (addWords buffer startsum)

/-- `finish_sum`. -/
def finishSum (sum : UInt32) : UInt32 := ~~~sum &&& 0xffff

/-- Folding leaves the residue. -/
private lemma toNat_foldSum (sum : UInt32) : (foldSum sum).toNat = residue 65536 sum.toNat := by
  induction sum using foldSum.induct with
  | case1 sum h =>
    rw [foldSum, if_pos h, residue_of_lt ((shiftRight_eq_zero_iff sum).mp h)]
  | case2 sum h ih =>
    rw [foldSum, if_neg h, ih, toNat_carry, residue_carry]

/-- The words are added up, when the sum stays in 32 bits.

**Proof sketch.** By the recursion over the buffer, two bytes at a time; a last byte alone is the
low byte of a word. -/
private lemma toNat_addWords (buffer : List UInt8) (startsum : UInt32)
    (h : startsum.toNat + wordSum buffer < 2 ^ 32) :
    (addWords buffer startsum).toNat = startsum.toNat + wordSum buffer := by
  induction buffer, startsum using addWords.induct with
  | case1 a b rest sum ih =>
    rw [wordSum_cons_cons] at h
    have hword : (UInt32.ofNat (ofLittleEndian [a, b])).toNat = a.toNat + 256 * b.toNat := by
      have ha := a.toNat_lt
      have hb := b.toNat_lt
      rw [UInt32.toNat_ofNat']
      simp only [ofLittleEndian]
      omega
    have hsum : (sum + UInt32.ofNat (ofLittleEndian [a, b])).toNat =
        sum.toNat + (a.toNat + 256 * b.toNat) := by
      rw [UInt32.toNat_add, hword]
      omega
    rw [addWords, ih (by omega), hsum, wordSum_cons_cons]
    omega
  | case2 a sum =>
    simp only [wordSum] at h
    rw [addWords, UInt32.toNat_add, UInt8.toNat_toUInt32]
    simp only [wordSum]
    omega
  | case3 sum => rfl

/-- **The checksum** is the ones' complement sum of the words, as long as it is computed without an
overflow. -/
theorem toNat_checksum (buffer : List UInt8) (startsum : UInt32)
    (h : startsum.toNat + wordSum buffer < 2 ^ 32) :
    (checksum buffer startsum).toNat = residue 65536 (startsum.toNat + wordSum buffer) := by
  rw [checksum, toNat_foldSum, toNat_addWords buffer startsum h]

/-- A sum that is a word, and at most as many bytes as a packet can have, do not overflow. -/
lemma no_overflow {buffer : List UInt8} {startsum : UInt32} (hsum : startsum.toNat < 65536)
    (hlen : buffer.length < 65536) : startsum.toNat + wordSum buffer < 2 ^ 32 := by
  have := wordSum_le buffer
  omega

/-- The complement of a sum of sixteen bits. -/
lemma toNat_finishSum {sum : UInt32} (h : sum.toNat < 65536) :
    (finishSum sum).toNat = 65535 - sum.toNat := by
  have hand : ∀ n : ℕ, n &&& 65535 = n % 65536 := fun n => Nat.and_two_pow_sub_one_eq_mod n 16
  rw [finishSum, UInt32.toNat_and, UInt32.toNat_not]
  simp only [UInt32.reduceToNat, hand]
  simp only [UInt32.size]
  omega

/-! ## Headers -/

/-- `IPVERSION`. -/
def ipVersion : UInt8 := 4

/-- `IPDEFTTL`. -/
def ipDefTtl : UInt8 := 64

/-- `IPPROTO_UDP`. -/
def ipProtoUdp : UInt8 := 17

/-- `struct iphdr`, with its numbers in the order of the network. -/
structure IpHdr where
  version : UInt8
  ihl : UInt8
  tos : UInt8
  totLen : UInt16
  id : UInt16
  fragOff : UInt16
  ttl : UInt8
  protocol : UInt8
  check : UInt16
  saddr : UInt32
  daddr : UInt32

/-- A header that `memset` has cleared. -/
def IpHdr.zero : IpHdr := ⟨0, 0, 0, 0, 0, 0, 0, 0, 0, 0, 0⟩

/-- A header in memory: `version` is the higher half of the first byte, `ihl` the lower one. -/
def IpHdr.bytes (ip : IpHdr) : List UInt8 :=
  [ip.version <<< 4 ||| ip.ihl, ip.tos] ++ littleEndian 2 ip.totLen.toNat ++
    littleEndian 2 ip.id.toNat ++ littleEndian 2 ip.fragOff.toNat ++ [ip.ttl, ip.protocol] ++
    littleEndian 2 ip.check.toNat ++ littleEndian 4 ip.saddr.toNat ++ littleEndian 4 ip.daddr.toNat

/-- The header of IP has twenty bytes. -/
@[simp] lemma IpHdr.length_bytes (ip : IpHdr) : ip.bytes.length = 20 := rfl

/-- `struct udphdr`, with its numbers in the order of the network. -/
structure UdpHdr where
  source : UInt16
  dest : UInt16
  len : UInt16
  check : UInt16

/-- A header in memory. -/
def UdpHdr.bytes (udp : UdpHdr) : List UInt8 :=
  littleEndian 2 udp.source.toNat ++ littleEndian 2 udp.dest.toNat ++
    littleEndian 2 udp.len.toNat ++ littleEndian 2 udp.check.toNat

/-- The header of UDP has eight. -/
@[simp] theorem UdpHdr.length_bytes (udp : UdpHdr) : udp.bytes.length = 8 := rfl

/-! ## Sending -/

/-- The header of IP that `send_packet` writes, with its checksum. -/
def sentIp (size : ℕ) (saddr daddr : UInt32) : IpHdr :=
  let ip : IpHdr := ⟨ipVersion, 5, 0, htons (UInt16.ofNat (20 + 8 + size)), 0, 0, ipDefTtl,
    ipProtoUdp, 0, saddr, daddr⟩
  { ip with check := (finishSum (checksum ip.bytes 0)).toUInt16 }

/-- `send_packet`: the packet that it hands to `sendmsg`. -/
def sendPacket (msg : DhcpMsg) (size : ℕ) (saddr daddr sport dport : UInt32) :
    Except Fault (List UInt8) := do
  let ip := sentIp size saddr daddr
  let udp : UdpHdr :=
    ⟨htons sport.toUInt16, htons dport.toUInt16, htons (UInt16.ofNat (8 + size)), 0⟩
  let udpsum := checksum (littleEndian 4 ip.saddr.toNat) 0
  let udpsum := checksum (littleEndian 4 ip.daddr.toNat) udpsum
  let udpsum := checksum (littleEndian 2 (htons ipProtoUdp.toUInt16).toNat) udpsum
  let udpsum := checksum (littleEndian 2 udp.len.toNat) udpsum
  let udpsum := checksum udp.bytes udpsum
  let data ← msg.data.loadAll 0 size
  let udpsum := checksum data udpsum
  let udp := { udp with check := (finishSum udpsum).toUInt16 }
  return ip.bytes ++ udp.bytes ++ data

/-! ## Receiving -/

/-- `sizeof(struct dhcp_packet)`: both headers and a message. -/
abbrev dhcpPacketSize : ℕ := 1288

/-- `struct dhcp_packet`, the variable of `receive_packet`. -/
structure DhcpPacket where
  data : Buffer
  size_eq : data.size = dhcpPacketSize

namespace DhcpPacket

/-- `ip.version`. -/
def version (p : DhcpPacket) : UInt8 := p.data.byte 0 >>> 4

/-- `ip.ihl`. -/
def ihl (p : DhcpPacket) : UInt8 := p.data.byte 0 &&& 15

/-- `ip.tot_len`, with its bytes in order. -/
def totLen (p : DhcpPacket) : ℕ := (ntohs (p.data.field16 2)).toNat

/-- `ip.protocol`. -/
def protocol (p : DhcpPacket) : UInt8 := p.data.byte 9

/-- `ip.saddr`. -/
def saddr (p : DhcpPacket) : UInt32 := p.data.field32 12

/-- `ip.daddr`. -/
def daddr (p : DhcpPacket) : UInt32 := p.data.field32 16

/-- `udp.dest`. -/
def dest (p : DhcpPacket) : UInt16 := p.data.field16 22

/-- `udp.len`. -/
def udpLen (p : DhcpPacket) : UInt16 := p.data.field16 24

/-- `udp.check`. -/
def check (p : DhcpPacket) : UInt16 := p.data.field16 26

/-- What `read` leaves in the packet: what does not fit is lost, and the bytes behind what has been
read stay what they were. -/
def read (p : DhcpPacket) (datagram : List UInt8) : DhcpPacket :=
  ⟨p.data.overlay 0 (datagram.take dhcpPacketSize), p.size_eq⟩

/-- The checks of `receive_packet` that look at fields only. -/
def isValid (p : DhcpPacket) (nread : ℕ) : Bool :=
  if nread < 20 + 8 then false
  else if p.version ≠ ipVersion ∨ p.ihl ≠ 5 then false
  else if nread < p.totLen then false
  else if p.protocol ≠ ipProtoUdp then false
  else if p.dest ≠ htons portBootpClient.toUInt16 then false
  else true

/-- The packet with the header of IP that is needed for the checksum of UDP, and without that
checksum. -/
def borrow (p : DhcpPacket) : DhcpPacket :=
  let ip : IpHdr :=
    { IpHdr.zero with
      saddr := p.saddr, daddr := p.daddr, protocol := ipProtoUdp, totLen := p.udpLen }
  ⟨(p.data.overlay 0 ip.bytes).overlay 26 [0, 0], p.size_eq⟩

end DhcpPacket

/-- `memcpy` to a message. -/
def DhcpMsg.copy (m : DhcpMsg) (bytes : List UInt8) : Except Fault DhcpMsg :=
  if h : 0 + bytes.length ≤ dhcpMsgSize then .ok (m.put 0 bytes h)
  else .error (.outOfBounds dhcpMsgSize)

/-- `receive_packet`: what it returns, and the message. `stack` is what its variable holds before,
and there is no datagram when `read` fails. -/
def receivePacket (stack : DhcpPacket) (datagram : Option (List UInt8)) (msg : DhcpMsg) :
    Except Fault (ℤ × DhcpMsg) :=
  match datagram with
  | none => return (-1, msg)
  | some bytes => do
    let packet := stack.read bytes
    let nread := min bytes.length dhcpPacketSize
    if ¬ packet.isValid nread then return (-1, msg)
    else
      let ip ← packet.data.loadAll 0 20
      if finishSum (checksum ip 0) ≠ 0 then return (-1, msg)
      else
        -- a length below that of the header wraps around
        let dhcpSize := (ntohs packet.udpLen).toUInt32 - 8
        let covered ← packet.borrow.data.loadAll 0 packet.totLen
        if packet.check.toUInt32 ≠ finishSum (checksum covered 0) then return (-1, msg)
        else
          let dhcp ← packet.data.loadAll 28 dhcpSize.toNat
          let msg ← msg.copy dhcp
          return (dhcpSize.toInt32.toInt, msg)

/-! ## What is accepted -/

/-- What `finish_sum` makes of the checksum of a sequence that starts with nothing. -/
private lemma toNat_finishSum_checksum {bytes : List UInt8} (h : bytes.length < 65536) :
    (finishSum (checksum bytes 0)).toNat = 65535 - residue 65536 (wordSum bytes) := by
  have hsum : (checksum bytes 0).toNat = residue 65536 (wordSum bytes) := by
    rw [toNat_checksum bytes 0 (no_overflow (by simp) h)]
    simp
  rw [toNat_finishSum (by rw [hsum]; exact residue_lt (by decide) _), hsum]

/-- The first byte of a header without options. -/
private lemma version_ihl_iff (b : UInt8) : b >>> 4 = 4 ∧ b &&& 15 = 5 ↔ b = 0x45 := by
  have hb := b.toNat_lt
  have hand : b.toNat &&& 15 = b.toNat % 16 := Nat.and_two_pow_sub_one_eq_mod _ 4
  rw [← UInt8.toNat_inj, ← UInt8.toNat_inj, ← UInt8.toNat_inj, UInt8.toNat_shiftRight,
    UInt8.toNat_and]
  simp only [UInt8.reduceToNat, Nat.reduceMod, Nat.shiftRight_eq_div_pow, hand]
  omega

namespace DhcpPacket

/-- The bytes that the checksum of UDP is computed from. -/
def covered (p : DhcpPacket) : List UInt8 := slice p.borrow.data.byte 0 p.totLen

/-- **A packet for the client** of which `nread` bytes have been read: its header of IP has no
options and a right checksum, it has been read completely, it is one of UDP for the client's port,
and the checksum of UDP is the complement of the sum. -/
structure Accepted (p : DhcpPacket) (nread : ℕ) : Prop where
  long : 28 ≤ nread
  version : p.data.byte 0 = 0x45
  complete : p.totLen ≤ nread
  protocol : p.protocol = ipProtoUdp
  dest : p.dest = htons portBootpClient.toUInt16
  ipSum : residue 65536 (wordSum (slice p.data.byte 0 20)) = 65535
  udpSum : p.check.toNat + residue 65536 (wordSum p.covered) = 65535

instance (p : DhcpPacket) (nread : ℕ) : Decidable (p.Accepted nread) :=
  decidable_of_iff
    (28 ≤ nread ∧ p.data.byte 0 = 0x45 ∧ p.totLen ≤ nread ∧ p.protocol = ipProtoUdp ∧
      p.dest = htons portBootpClient.toUInt16 ∧
      residue 65536 (wordSum (slice p.data.byte 0 20)) = 65535 ∧
      p.check.toNat + residue 65536 (wordSum p.covered) = 65535)
    ⟨fun ⟨h1, h2, h3, h4, h5, h6, h7⟩ => ⟨h1, h2, h3, h4, h5, h6, h7⟩,
      fun ⟨h1, h2, h3, h4, h5, h6, h7⟩ => ⟨h1, h2, h3, h4, h5, h6, h7⟩⟩

/-- What is checked of a packet before the checksums. -/
private lemma isValid_iff (p : DhcpPacket) (nread : ℕ) :
    p.isValid nread = true ↔ 28 ≤ nread ∧ p.data.byte 0 = 0x45 ∧ p.totLen ≤ nread ∧
      p.protocol = ipProtoUdp ∧ p.dest = htons portBootpClient.toUInt16 := by
  have hversion : ¬ (p.version ≠ ipVersion ∨ p.ihl ≠ 5) ↔ p.data.byte 0 = 0x45 := by
    rw [← version_ihl_iff, not_or, not_ne_iff, not_ne_iff]
    rfl
  unfold isValid
  rw [← hversion]
  split_ifs <;> simp_all

end DhcpPacket

/-- How many bytes of the datagram have been read. -/
def readLen (bytes : List UInt8) : ℕ := min bytes.length dhcpPacketSize

/-- `udp.len` without the header, as `memcpy` takes it. -/
def DhcpPacket.dhcpSize (p : DhcpPacket) : UInt32 := (ntohs p.udpLen).toUInt32 - 8

/-- **What is accepted** is copied; everything else is refused, and leaves the message alone.

**Proof sketch.** In the order of the checks: the headers, the checksum of the header of IP, and
that of UDP over the packet with its pseudo header. Each checksum is right if and only if the words
add up to ones only. -/
theorem receivePacket_eq (stack : DhcpPacket) (bytes : List UInt8) (msg : DhcpMsg) :
    receivePacket stack (some bytes) msg =
      if (stack.read bytes).Accepted (readLen bytes) then do
        let dhcp ← (stack.read bytes).data.loadAll 28 (stack.read bytes).dhcpSize.toNat
        let msg ← msg.copy dhcp
        return ((stack.read bytes).dhcpSize.toInt32.toInt, msg)
      else .ok (-1, msg) := by
  unfold receivePacket
  generalize hp : stack.read bytes = p
  simp only [hp]
  change (if ¬ p.isValid (readLen bytes) = true then _ else _) = _
  have hsize : p.data.size = 1288 := p.size_eq
  by_cases hvalid : p.isValid (readLen bytes) = true
  · have hvalid' := (p.isValid_iff (readLen bytes)).mp hvalid
    obtain ⟨hlong, hversion, hcomplete, hprotocol, hdest⟩ := hvalid'
    have hread : readLen bytes ≤ 1288 := Nat.min_le_right _ _
    have hip : p.data.loadAll 0 20 = .ok (slice p.data.byte 0 20) := Buffer.loadAll_eq (by omega)
    have hcovered : p.borrow.data.loadAll 0 p.totLen = .ok p.covered :=
      Buffer.loadAll_eq (by rw [p.borrow.size_eq, dhcpPacketSize]; omega)
    have hipSum : finishSum (checksum (slice p.data.byte 0 20) 0) = 0 ↔
        residue 65536 (wordSum (slice p.data.byte 0 20)) = 65535 := by
      have hlt := residue_lt (B := 65536) (by decide) (wordSum (slice p.data.byte 0 20))
      rw [← UInt32.toNat_inj, toNat_finishSum_checksum (by rw [length_slice]; decide)]
      simp only [UInt32.reduceToNat]
      omega
    have hudpSum : p.check.toUInt32 = finishSum (checksum p.covered 0) ↔
        p.check.toNat + residue 65536 (wordSum p.covered) = 65535 := by
      have hlt := residue_lt (B := 65536) (by decide) (wordSum p.covered)
      rw [← UInt32.toNat_inj, toNat_finishSum_checksum
        (by rw [DhcpPacket.covered, length_slice]; omega), UInt16.toNat_toUInt32]
      omega
    rw [if_neg (not_not_intro hvalid), hip]
    change (if _ then _ else _) = _
    by_cases hsum : residue 65536 (wordSum (slice p.data.byte 0 20)) = 65535
    · rw [if_neg (not_not_intro (hipSum.mpr hsum)), hcovered]
      change (if _ then _ else _) = _
      by_cases hcheck : p.check.toNat + residue 65536 (wordSum p.covered) = 65535
      · rw [if_neg (not_not_intro (hudpSum.mpr hcheck)),
          if_pos ⟨hlong, hversion, hcomplete, hprotocol, hdest, hsum, hcheck⟩]
        rfl
      · rw [if_pos (fun h => hcheck (hudpSum.mp h)), if_neg fun h => hcheck h.udpSum]
        rfl
    · rw [if_pos (fun h => hsum (hipSum.mp h)), if_neg fun h => hsum h.ipSum]
      rfl
  · rw [if_pos hvalid, if_neg fun h => hvalid ((p.isValid_iff _).mpr
      ⟨h.long, h.version, h.complete, h.protocol, h.dest⟩)]
    rfl

namespace DhcpPacket

/-- `udp.len`, with its bytes in order. -/
def udpLength (p : DhcpPacket) : ℕ := (ntohs p.udpLen).toNat

/-- The size wraps around if the UDP length is below eight. -/
lemma toNat_dhcpSize (p : DhcpPacket) :
    p.dhcpSize.toNat = (p.udpLength + 2 ^ 32 - 8) % 2 ^ 32 := by
  have hlt : p.udpLength < 2 ^ 16 := (ntohs p.udpLen).toNat_lt
  rw [dhcpSize, UInt32.toNat_sub, UInt16.toNat_toUInt32, ← udpLength]
  simp only [UInt32.reduceToNat]
  omega

/-- Else it is what is behind the header of UDP. -/
private lemma toInt_dhcpSize {p : DhcpPacket} (h : 8 ≤ p.udpLength) :
    p.dhcpSize.toInt32.toInt = p.udpLength - 8 := by
  have hlt : p.udpLength < 2 ^ 16 := (ntohs p.udpLen).toNat_lt
  have hsize := p.toNat_dhcpSize
  have hcond : p.dhcpSize.toInt32.toInt =
      if 2 * p.dhcpSize.toNat < 2 ^ 32 then (p.dhcpSize.toNat : ℤ)
      else (p.dhcpSize.toNat : ℤ) - (2 ^ 32 : ℕ) := BitVec.toInt_eq_toNat_cond _
  rw [hcond]
  split_ifs <;> omega

end DhcpPacket

/-- **An accepted packet** whose UDP length fits is copied.

**Proof sketch.** The size of the message is the UDP length without its header, which is inside the
packet and inside the message. -/
theorem receivePacket_of_accepted {stack : DhcpPacket} {bytes : List UInt8} (msg : DhcpMsg)
    (haccepted : (stack.read bytes).Accepted (readLen bytes))
    (hlow : 8 ≤ (stack.read bytes).udpLength)
    (hput : 0 + (slice (stack.read bytes).data.byte 28
      ((stack.read bytes).udpLength - 8)).length ≤ dhcpMsgSize) :
    receivePacket stack (some bytes) msg =
      .ok ((stack.read bytes).udpLength - 8,
        msg.put 0 (slice (stack.read bytes).data.byte 28 ((stack.read bytes).udpLength - 8))
          hput) := by
  rw [receivePacket_eq, if_pos haccepted]
  generalize stack.read bytes = p at *
  have hlt : p.udpLength < 2 ^ 16 := (ntohs p.udpLen).toNat_lt
  have hsize : p.dhcpSize.toNat = p.udpLength - 8 := by
    rw [p.toNat_dhcpSize]
    omega
  have hload : p.data.loadAll 28 p.dhcpSize.toNat =
      .ok (slice p.data.byte 28 (p.udpLength - 8)) := by
    rw [hsize]
    refine Buffer.loadAll_eq ?_
    rw [length_slice, dhcpMsgSize] at hput
    rw [p.size_eq, dhcpPacketSize]
    omega
  rw [hload, DhcpPacket.toInt_dhcpSize hlow]
  change (do
    let msg ← msg.copy (slice p.data.byte 28 (p.udpLength - 8))
    pure ((p.udpLength : ℤ) - 8, msg)) = _
  rw [DhcpMsg.copy, dif_pos hput]
  rfl

/-- A load that ends behind the block fails. -/
private lemma loadAll_eq_error {data : Buffer} {pos n : ℕ} (h : data.size < pos + n) (hn : n ≠ 0) :
    ∃ f, data.loadAll pos n = .error f := by
  cases hload : data.loadAll pos n with
  | error f => exact ⟨f, rfl⟩
  | ok bytes =>
    have := Buffer.le_size_of_loadAll hn hload
    omega

/-- **Running out of bounds**: `receive_packet` does so exactly for the packets that it accepts and
whose UDP length is less than that of its header, or more than fits in a message.

**Proof sketch.** A packet that is not accepted is refused, and one with a length that fits is
copied. With another length the size of the copy is more than the packet holds. -/
theorem receivePacket_eq_error_iff (stack : DhcpPacket) (bytes : List UInt8) (msg : DhcpMsg) :
    (∃ f, receivePacket stack (some bytes) msg = .error f) ↔
      (stack.read bytes).Accepted (readLen bytes) ∧
        ¬ (8 ≤ (stack.read bytes).udpLength ∧ (stack.read bytes).udpLength ≤ 8 + dhcpMsgSize) := by
  by_cases haccepted : (stack.read bytes).Accepted (readLen bytes)
  · rw [and_iff_right haccepted]
    by_cases hfits : 8 ≤ (stack.read bytes).udpLength ∧
        (stack.read bytes).udpLength ≤ 8 + dhcpMsgSize
    · rw [receivePacket_of_accepted msg haccepted hfits.1 (by rw [length_slice]; omega)]
      simp [hfits]
    · rw [receivePacket_eq, if_pos haccepted]
      generalize stack.read bytes = p at *
      have hlt : p.udpLength < 2 ^ 16 := (ntohs p.udpLen).toNat_lt
      have hsize := p.toNat_dhcpSize
      have hmsg : dhcpMsgSize = 1260 := rfl
      have hpacket : p.data.size = 1288 := p.size_eq
      obtain ⟨f, hf⟩ := loadAll_eq_error (show p.data.size < 28 + p.dhcpSize.toNat by omega)
        (by omega)
      rw [hf]
      exact iff_of_true ⟨f, rfl⟩ hfits
  · rw [receivePacket_eq, if_neg haccepted]
    simp [haccepted]

/-! ## What is sent -/

/-- The two bytes of a number are the word with this number. -/
@[simp] theorem wordSum_littleEndian (v : UInt16) : wordSum (littleEndian 2 v.toNat) = v.toNat := by
  have hlt := v.toNat_lt
  simp only [littleEndian, wordSum_cons_cons, wordSum_nil, UInt8.toNat_ofNat']
  omega

/-- The words of a header of UDP. -/
private lemma wordSum_udp (udp : UdpHdr) :
    wordSum udp.bytes = udp.source.toNat + udp.dest.toNat + udp.len.toNat + udp.check.toNat := by
  simp only [UdpHdr.bytes, wordSum_littleEndian, wordSum_append, length_littleEndian,
    List.length_append, Nat.reduceAdd, Nat.reduceDvd]

/-- The words of a header of IP. -/
theorem wordSum_ip (ip : IpHdr) :
    wordSum ip.bytes = wordSum [ip.version <<< 4 ||| ip.ihl, ip.tos] + ip.totLen.toNat +
      ip.id.toNat + ip.fragOff.toNat + wordSum [ip.ttl, ip.protocol] + ip.check.toNat +
      wordSum (littleEndian 4 ip.saddr.toNat) + wordSum (littleEndian 4 ip.daddr.toNat) := by
  simp only [IpHdr.bytes, wordSum_littleEndian, wordSum_append, length_littleEndian,
    List.length_append, List.length_cons, List.length_nil, Nat.reduceAdd, Nat.reduceDvd]

/-- What the checksum of UDP is computed from: the words of the pseudo header, those of the header
without the checksum, and those of the message. -/
def udpWords (saddr daddr : UInt32) (udp : UdpHdr) (data : List UInt8) : ℕ :=
  wordSum (littleEndian 4 saddr.toNat) + wordSum (littleEndian 4 daddr.toNat) +
    (htons ipProtoUdp.toUInt16).toNat + udp.len.toNat +
    (udp.source.toNat + udp.dest.toNat + udp.len.toNat) + wordSum data

namespace DhcpPacket

/-- The header that `receive_packet` borrows. -/
theorem slice_borrow_ip (p : DhcpPacket) :
    slice p.borrow.data.byte 0 20 =
      IpHdr.bytes { IpHdr.zero with
        saddr := p.saddr, daddr := p.daddr, protocol := ipProtoUdp, totLen := p.udpLen } := by
  unfold borrow
  rw [Buffer.slice_overlay_of_disjoint _ (by simp)]
  exact Buffer.slice_overlay p.data 0 _

/-- The cleared checksum. -/
private lemma slice_borrow_check (p : DhcpPacket) : slice p.borrow.data.byte 26 2 = [0, 0] :=
  Buffer.slice_overlay _ 26 [0, 0]

/-- The rest is what it was. -/
theorem slice_borrow (p : DhcpPacket) {pos n : ℕ} (h : 20 ≤ pos)
    (hcheck : pos + n ≤ 26 ∨ 28 ≤ pos) :
    slice p.borrow.data.byte pos n = slice p.data.byte pos n := by
  unfold borrow
  rw [Buffer.slice_overlay_of_disjoint _ (by simpa using hcheck),
    Buffer.slice_overlay_of_disjoint _ (by simpa using .inr h)]

/-- These headers and this message are what the packet begins with. -/
structure Holds (p : DhcpPacket) (ip : IpHdr) (udp : UdpHdr) (data : List UInt8) : Prop where
  ip : slice p.data.byte 0 20 = ip.bytes
  udp : slice p.data.byte 20 8 = udp.bytes
  data : slice p.data.byte 28 data.length = data

variable {p : DhcpPacket} {ip : IpHdr} {udp : UdpHdr} {data : List UInt8}

/-- The length of the packet is that of its header. -/
lemma Holds.totLen (h : p.Holds ip udp data) : p.totLen = (ntohs ip.totLen).toNat := by
  rw [DhcpPacket.totLen, Buffer.field16_eq (slice_of_slice h.ip (k := 2) (m := 2) (by decide))]

/-- So is the address that it comes from. -/
lemma Holds.saddr (h : p.Holds ip udp data) : p.saddr = ip.saddr :=
  Buffer.field32_eq (slice_of_slice h.ip (k := 12) (m := 4) (by decide))

/-- And the address that it goes to. -/
lemma Holds.daddr (h : p.Holds ip udp data) : p.daddr = ip.daddr :=
  Buffer.field32_eq (slice_of_slice h.ip (k := 16) (m := 4) (by decide))

/-- The port is that of the header of UDP. -/
lemma Holds.dest (h : p.Holds ip udp data) : p.dest = udp.dest :=
  Buffer.field16_eq (slice_of_slice h.udp (k := 2) (m := 2) (by decide))

/-- So is the length. -/
theorem Holds.udpLen (h : p.Holds ip udp data) : p.udpLen = udp.len :=
  Buffer.field16_eq (slice_of_slice h.udp (k := 4) (m := 2) (by decide))

/-- And the checksum. -/
lemma Holds.check (h : p.Holds ip udp data) : p.check = udp.check :=
  Buffer.field16_eq (slice_of_slice h.udp (k := 6) (m := 2) (by decide))

/-- The words that the checksum of UDP is computed from, when the packet has the length that its
header of IP says.

**Proof sketch.** The packet is cut into the fields of both headers, the pseudo header and the
message, whose words are added one after another. -/
lemma Holds.wordSum_covered (h : p.Holds ip udp data) (htot : p.totLen = 28 + data.length) :
    wordSum p.covered = udpWords ip.saddr ip.daddr udp data := by
  have hports : slice p.borrow.data.byte 20 6 =
      littleEndian 2 udp.source.toNat ++ littleEndian 2 udp.dest.toNat ++
        littleEndian 2 udp.len.toNat := by
    rw [p.slice_borrow (by decide) (by decide)]
    exact slice_of_slice h.udp (k := 0) (m := 6) (by decide)
  have hdata : slice p.borrow.data.byte 28 data.length = data := by
    rw [p.slice_borrow (by decide) (by omega), h.data]
  have hcovered : p.covered = slice p.borrow.data.byte 0 20 ++ slice p.borrow.data.byte 20 6 ++
      slice p.borrow.data.byte 26 2 ++ slice p.borrow.data.byte 28 data.length := by
    rw [covered, htot, slice_add, show 28 = 20 + 6 + 2 by rfl, slice_add, slice_add]
  have hproto : (htons ipProtoUdp.toUInt16).toNat = 17 * 256 := by decide
  have hfirst : (0 : UInt8) <<< 4 ||| 0 = 0 := by decide
  rw [hcovered, p.slice_borrow_ip, hports, p.slice_borrow_check, hdata, h.saddr, h.daddr, h.udpLen,
    wordSum_append (by simp), wordSum_append (by simp), wordSum_append (by simp), wordSum_ip,
    wordSum_append (by simp), wordSum_append (by simp), udpWords, hproto]
  simp only [wordSum_littleEndian, IpHdr.zero, wordSum, ipProtoUdp, hfirst, UInt8.reduceToNat,
    UInt16.reduceToNat]
  omega

/-- Right headers are accepted.

**Proof sketch.** Each check reads a field of one of the headers. -/
theorem Holds.accepted (h : p.Holds ip udp data) {nread : ℕ} (hlong : 28 + data.length ≤ nread)
    (hversion : ip.version <<< 4 ||| ip.ihl = 0x45)
    (htot : (ntohs ip.totLen).toNat = 28 + data.length) (hprotocol : ip.protocol = ipProtoUdp)
    (hdest : udp.dest = htons portBootpClient.toUInt16)
    (hip : residue 65536 (wordSum ip.bytes) = 65535)
    (hudp : udp.check.toNat + residue 65536 (udpWords ip.saddr ip.daddr udp data) = 65535) :
    p.Accepted nread where
  long := by omega
  version := by
    have hbyte : slice p.data.byte 0 1 = [ip.version <<< 4 ||| ip.ihl] :=
      slice_of_slice h.ip (k := 0) (m := 1) (by decide)
    rw [← hversion]
    exact List.singleton_inj.mp hbyte
  complete := by rw [h.totLen, htot]; exact hlong
  protocol := by
    have hbyte : slice p.data.byte 9 1 = [ip.protocol] :=
      slice_of_slice h.ip (k := 9) (m := 1) (by decide)
    rw [← hprotocol]
    exact List.singleton_inj.mp hbyte
  dest := by rw [h.dest, hdest]
  ipSum := by rw [h.ip, hip]
  udpSum := by
    rw [h.check, h.wordSum_covered (by rw [h.totLen, htot])]
    exact hudp

/-- A packet that has been read, with anything behind it.

**Proof sketch.** The packet holds what was read into it, and the headers and the message are the
parts of that. -/
theorem holds_read (stack : DhcpPacket) (ip : IpHdr) (udp : UdpHdr) {data : List UInt8}
    (h : 28 + data.length ≤ dhcpPacketSize) (padding : List UInt8) :
    (stack.read (ip.bytes ++ udp.bytes ++ data ++ padding)).Holds ip udp data := by
  have hread : slice (stack.read (ip.bytes ++ udp.bytes ++ data ++ padding)).data.byte 0
      (28 + data.length) = ip.bytes ++ udp.bytes ++ data := by
    generalize hbytes : ip.bytes ++ udp.bytes ++ data = bytes
    have hlen : 28 + data.length = bytes.length := by
      rw [← hbytes]
      simp only [List.length_append, IpHdr.length_bytes, UdpHdr.length_bytes]
    have htake : (bytes ++ padding).take dhcpPacketSize =
        bytes ++ padding.take (dhcpPacketSize - bytes.length) := by
      rw [List.take_append, List.take_of_length_le (by omega)]
    have hslice := Buffer.slice_overlay stack.data 0 ((bytes ++ padding).take dhcpPacketSize)
    rw [hlen, read, ← take_slice _ 0 (m := ((bytes ++ padding).take dhcpPacketSize).length)
      (by rw [htake, List.length_append]; omega), hslice, htake, List.take_left]
  have hhead : (ip.bytes ++ udp.bytes).length = 28 := rfl
  refine ⟨?_, ?_, ?_⟩
  · rw [← Nat.zero_add 0, slice_of_slice hread (by omega), List.append_assoc]
    exact List.take_left' rfl
  · rw [← Nat.zero_add 20, slice_of_slice hread (by omega), List.append_assoc,
      List.drop_left' (IpHdr.length_bytes ip)]
    exact List.take_left' rfl
  · rw [← Nat.zero_add 28, slice_of_slice hread (by omega), List.drop_left' hhead,
      List.take_of_length_le (Nat.le_refl _)]

end DhcpPacket

/-- What a word is made of that `finish_sum` has returned. -/
lemma toNat_toUInt16_finishSum {sum : UInt32} (h : sum.toNat < 65536) :
    (finishSum sum).toUInt16.toNat = 65535 - sum.toNat := by
  rw [UInt32.toNat_toUInt16, toNat_finishSum h]
  omega

/-- A header of IP that has got its checksum. -/
theorem residue_ip (ip : IpHdr) (h : ip.check = 0) :
    residue 65536 (wordSum
      { ip with check := (finishSum (checksum ip.bytes 0)).toUInt16 }.bytes) = 65535 := by
  have hsum : (checksum ip.bytes 0).toNat = residue 65536 (wordSum ip.bytes) := by
    rw [toNat_checksum _ 0 (no_overflow (by simp) (by simp))]
    simp
  have hlt := residue_lt (B := 65536) (by decide) (wordSum ip.bytes)
  have hwords : wordSum { ip with check := (finishSum (checksum ip.bytes 0)).toUInt16 }.bytes =
      wordSum ip.bytes + (65536 - 1 - residue 65536 (wordSum ip.bytes)) := by
    have hwords := wordSum_ip ip
    rw [h] at hwords
    rw [wordSum_ip, toNat_toUInt16_finishSum (by rw [hsum]; exact hlt), hsum]
    simp only [UInt16.reduceToNat] at hwords ⊢
    omega
  rw [hwords, residue_complement (by decide)]

/-- A sum that is continued. -/
private lemma toNat_checksum_of_residue (bytes : List UInt8) {sum : UInt32} {n : ℕ}
    (hsum : sum.toNat = residue 65536 n) (hlen : bytes.length < 65536) :
    (checksum bytes sum).toNat = residue 65536 (n + wordSum bytes) := by
  have hlt := residue_lt (B := 65536) (by decide) n
  rw [toNat_checksum _ _ (no_overflow (by rw [hsum]; exact hlt) hlen), hsum, residue_add]

/-- **The packet that is sent**: both headers, with right checksums, and the message.

**Proof sketch.** The checksum is carried on over the pseudo header, the header and the message
(`toNat_checksum_of_residue`), and the field holds what makes up ones only. -/
theorem sendPacket_eq (msg : DhcpMsg) {size : ℕ} (hsize : size ≤ dhcpMsgSize)
    (saddr daddr sport dport : UInt32) :
    ∃ udp : UdpHdr,
      sendPacket msg size saddr daddr sport dport =
        .ok ((sentIp size saddr daddr).bytes ++ udp.bytes ++ slice msg.data.byte 0 size) ∧
      udp.source = htons sport.toUInt16 ∧ udp.dest = htons dport.toUInt16 ∧
      udp.len = htons (UInt16.ofNat (8 + size)) ∧
      udp.check.toNat + residue 65536 (udpWords saddr daddr udp (slice msg.data.byte 0 size)) =
        65535 := by
  have hload : msg.data.loadAll 0 size = .ok (slice msg.data.byte 0 size) :=
    Buffer.loadAll_eq (by rw [msg.size_eq]; omega)
  unfold sendPacket
  rw [hload]
  generalize hdata : slice msg.data.byte 0 size = data
  have hlen : data.length < 65536 := by
    rw [← hdata, length_slice]
    exact Nat.lt_of_le_of_lt hsize (by decide)
  refine ⟨_, rfl, rfl, rfl, rfl, ?_⟩
  have h0 : (0 : UInt32).toNat = residue 65536 0 := rfl
  have h1 := toNat_checksum_of_residue (littleEndian 4 (sentIp size saddr daddr).saddr.toNat) h0
    (by simp)
  have h2 := toNat_checksum_of_residue (littleEndian 4 (sentIp size saddr daddr).daddr.toNat) h1
    (by simp)
  have h3 := toNat_checksum_of_residue (littleEndian 2 (htons ipProtoUdp.toUInt16).toNat) h2
    (by simp)
  have h4 := toNat_checksum_of_residue (littleEndian 2 (htons (UInt16.ofNat (8 + size))).toNat) h3
    (by simp)
  have h5 := toNat_checksum_of_residue (UdpHdr.bytes ⟨htons sport.toUInt16,
    htons dport.toUInt16, htons (UInt16.ofNat (8 + size)), 0⟩) h4 (by simp)
  have h6 := toNat_checksum_of_residue data h5 hlen
  have hlt := residue_lt (B := 65536) (by decide) (udpWords saddr daddr ⟨htons sport.toUInt16,
    htons dport.toUInt16, htons (UInt16.ofNat (8 + size)), 0⟩ data)
  rw [wordSum_udp, wordSum_littleEndian, wordSum_littleEndian, Nat.zero_add] at h6
  change _ = residue 65536 (udpWords saddr daddr ⟨htons sport.toUInt16,
    htons dport.toUInt16, htons (UInt16.ofNat (8 + size)), 0⟩ data) at h6
  dsimp only
  rw [toNat_toUInt16_finishSum (by rw [h6]; exact hlt), h6]
  change 65535 - _ + residue 65536 (udpWords saddr daddr ⟨htons sport.toUInt16,
    htons dport.toUInt16, htons (UInt16.ofNat (8 + size)), 0⟩ data) = 65535
  omega

end JzPretest.Dhcp

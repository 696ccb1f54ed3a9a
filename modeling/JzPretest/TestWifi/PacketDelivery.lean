import JzPretest.TestWifi.Decode
import JzPretest.TestWifi.Packet

set_option relaxedAutoImplicit false
set_option autoImplicit false

/-!
# From one end to the other

What happens to a message between `send_packet` of one side and `receive_packet` of the other one:
it is delivered as it is, whatever the network appends, and a packet that has been changed in one
word is refused. `receive_packet` trusts the UDP length of what it accepts, though.

## Main results

* `JzPretest.Dhcp.receivePacket_sendPacket` — a message is delivered as it has been sent.
* `JzPretest.Dhcp.decode_received` — a message that has been delivered, and its options.
* `JzPretest.Dhcp.receivePacket_overrun_iff` — packets that make `receive_packet` run out of bounds.
* `JzPretest.Dhcp.receivePacket_exchange` — packets of which a word has been changed.
-/

namespace JzPretest.Dhcp

open OnesComplement Transition

/-- As much is read as there is, up to the size of a packet. -/
lemma length_readLen {bytes : List UInt8} {n : ℕ} (h : n ≤ bytes.length)
    (hn : n ≤ dhcpPacketSize) : n ≤ readLen bytes :=
  Nat.le_min.mpr ⟨h, hn⟩

/-- A length in the header of a packet. -/
lemma toNat_ntohs_htons_ofNat {n : ℕ} (h : n < 65536) :
    (ntohs (htons (UInt16.ofNat n))).toNat = n := by
  rw [ntohs, htons, swap16_swap16, UInt16.toNat_ofNat']
  omega

/-- **What has been sent is delivered**, with anything behind it and whatever the memory of the
receiver held before.

**Proof sketch.** The packet that was read holds what was sent (`sendPacket_eq`, `holds_read`), so
it is accepted (`Holds.accepted`), and its UDP length fits. -/
theorem receivePacket_sendPacket {msg : DhcpMsg} {size : ℕ} (hsize : size ≤ dhcpMsgSize)
    {saddr daddr sport : UInt32} {bytes : List UInt8}
    (hsend : sendPacket msg size saddr daddr sport portBootpClient = .ok bytes)
    (padding : List UInt8) (stack : DhcpPacket) (reply : DhcpMsg) :
    receivePacket stack (some (bytes ++ padding)) reply =
      .ok (size, reply.put 0 (slice msg.data.byte 0 size) (by rw [length_slice]; omega)) := by
  obtain ⟨udp, hsent, -, hdest, hlen, hcheck⟩ :=
    sendPacket_eq msg hsize saddr daddr sport portBootpClient
  obtain rfl := Except.ok.inj (hsent.symm.trans hsend)
  have hmax : dhcpMsgSize = 1260 := rfl
  have hdata : (slice msg.data.byte 0 size).length = size := length_slice _ _ _
  have hfits : 28 + (slice msg.data.byte 0 size).length ≤ dhcpPacketSize := by
    rw [hdata, dhcpPacketSize]
    omega
  have hholds := DhcpPacket.holds_read stack (sentIp size saddr daddr) udp hfits padding
  have hread : 28 + size ≤ readLen ((sentIp size saddr daddr).bytes ++ udp.bytes ++
      slice msg.data.byte 0 size ++ padding) := by
    refine length_readLen ?_ (by rw [dhcpPacketSize]; omega)
    simp only [List.length_append, IpHdr.length_bytes, UdpHdr.length_bytes, hdata]
    omega
  generalize (sentIp size saddr daddr).bytes ++ udp.bytes ++ slice msg.data.byte 0 size ++
    padding = bytes at *
  have htot : (ntohs (sentIp size saddr daddr).totLen).toNat = 28 + size := by
    rw [← toNat_ntohs_htons_ofNat (n := 28 + size) (by omega)]
    rfl
  have haccepted : (stack.read bytes).Accepted (readLen bytes) :=
    hholds.accepted (by rwa [hdata]) (show ipVersion <<< 4 ||| 5 = 0x45 by decide)
      (by rw [htot, hdata]) rfl hdest (residue_ip _ rfl) hcheck
  have hudpLength : (stack.read bytes).udpLength = 8 + size := by
    rw [DhcpPacket.udpLength, hholds.udpLen, hlen, toNat_ntohs_htons_ofNat (by omega)]
  have hslice : slice (stack.read bytes).data.byte 28 ((stack.read bytes).udpLength - 8) =
      slice msg.data.byte 0 size := by
    rw [hudpLength, Nat.add_sub_cancel_left]
    have h := hholds.data
    rwa [hdata] at h
  rw [receivePacket_of_accepted reply haccepted (by omega) (by rw [hslice, hdata]; omega)]
  have hint : ((stack.read bytes).udpLength : ℤ) - 8 = size := by omega
  exact congrArg Except.ok (Prod.ext hint (DhcpMsg.ext (congrArg (reply.data.overlay 0) hslice)))

/-- **A message from a server**: whatever it is, it has been sent, the network has appended
something, and it arrives in the memory of the client. Where its options have been encoded, they are
decoded.

**Proof sketch.** The message that is received has the bytes of the one that was sent, so it is
decoded as that one would be (`decode_eq`), which `decode_encode` says for encoded options. -/
theorem decode_received {msg : DhcpMsg} {size : ℕ} (hsize : size ≤ dhcpMsgSize)
    {saddr daddr sport : UInt32} {bytes : List UInt8}
    (hsend : sendPacket msg size saddr daddr sport portBootpClient = .ok bytes)
    (padding : List UInt8) (stack : DhcpPacket) (reply : DhcpMsg) :
    ∃ received, receivePacket stack (some (bytes ++ padding)) reply = .ok (size, received) ∧
      slice received.data.byte 0 size = slice msg.data.byte 0 size ∧
      ∀ (l : List (Option Tlv.Item)) (junk : List UInt8),
        (∀ i, some i ∈ l → i.Fits optPad optEnd) →
        (∀ i, some i ∈ l → i.code = optMessageType → i.value ≠ []) →
        (slice msg.data.byte 0 size).drop dhcpMsgFixedSize =
          optCookie ++ (Tlv.encode optPad l ++ optEnd :: junk) →
        decodeDhcpMsg received size =
          .ok (0, meaning ((lastWrite messageType l.reduceOption).getD 0) msg.yiaddr
            l.reduceOption) := by
  have hslice := DhcpMsg.slice_put reply 0 (by rw [length_slice]; omega)
    (length_slice msg.data.byte 0 size)
  refine ⟨_, receivePacket_sendPacket hsize hsend padding stack reply, hslice, ?_⟩
  intro l junk hfits htype hmsg
  rw [decode_eq _ hsize, hslice, ← decode_eq msg hsize, decode_encode hsize hfits htype hmsg]

/-- An acknowledgement with no other option, on an empty message. -/
theorem decode_received_ack :
    ∃ bytes received, receivePacket ⟨⟨1288, fun _ => 0⟩, rfl⟩ (some (bytes ++ [])) .zero =
        .ok ((244 : ℕ), received) ∧
      decodeDhcpMsg received (244 : ℕ) = .ok (0, ⟨dhcpAck.toUInt32, 0, 0, 0, 0, 0, 0, 0⟩) := by
  have hsize : 244 ≤ dhcpMsgSize := by decide
  let msg := DhcpMsg.zero.put 236 (optCookie ++ [optMessageType, 1, dhcpAck, optEnd]) (by decide)
  obtain ⟨udp, hsend, -⟩ := sendPacket_eq msg hsize 0 0 0 portBootpClient
  have hmsg : (slice msg.data.byte 0 244).drop dhcpMsgFixedSize =
      optCookie ++ (Tlv.encode optPad [some (typeItem dhcpAck)] ++ optEnd :: []) := by
    decide +kernel
  obtain ⟨received, hreceive, -, hdecode⟩ :=
    decode_received hsize hsend [] ⟨⟨1288, fun _ => 0⟩, rfl⟩ .zero
  exact ⟨_, received, hreceive,
    hdecode _ [] (fits_typeItem dhcpAck) (typed_typeItem dhcpAck) hmsg⟩

/-! ## Running out of bounds -/

/-- **A packet that runs out of bounds**: for each UDP length that is too short or too long there is
one, of nothing but the two headers.

**Proof sketch.** Two headers with this UDP length and a checksum that makes up ones only: the
packet is accepted, and its length does not fit. -/
theorem exists_overrun (stack : DhcpPacket) (msg : DhcpMsg) {len : ℕ} (hlen : len < 65536)
    (h : len < 8 ∨ 8 + dhcpMsgSize < len) (saddr daddr : UInt32) (sport : UInt16) :
    ∃ ip : IpHdr, ∃ udp : UdpHdr, ip.saddr = saddr ∧ ip.daddr = daddr ∧ udp.source = sport ∧
      (ntohs udp.len).toNat = len ∧
      ∃ f, receivePacket stack (some (ip.bytes ++ udp.bytes)) msg = .error f := by
  have hres := residue_lt (B := 65536) (by decide) (udpWords saddr daddr
    ⟨sport, htons portBootpClient.toUInt16, htons (UInt16.ofNat len), 0⟩ [])
  let udp : UdpHdr := ⟨sport, htons portBootpClient.toUInt16, htons (UInt16.ofNat len),
    UInt16.ofNat (65535 - residue 65536 (udpWords saddr daddr
      ⟨sport, htons portBootpClient.toUInt16, htons (UInt16.ofNat len), 0⟩ []))⟩
  have hcheck : udp.check.toNat + residue 65536 (udpWords saddr daddr udp []) = 65535 := by
    change (UInt16.ofNat _).toNat + residue 65536 (udpWords saddr daddr
      ⟨sport, htons portBootpClient.toUInt16, htons (UInt16.ofNat len), 0⟩ []) = 65535
    rw [UInt16.toNat_ofNat']
    omega
  have hudpLen : (ntohs udp.len).toNat = len := toNat_ntohs_htons_ofNat hlen
  refine ⟨sentIp 0 saddr daddr, udp, rfl, rfl, rfl, hudpLen, ?_⟩
  have hholds := DhcpPacket.holds_read stack (sentIp 0 saddr daddr) udp
    (show 28 + ([] : List UInt8).length ≤ dhcpPacketSize by decide) []
  rw [List.append_nil, List.append_nil] at hholds
  have hread : 28 ≤ readLen ((sentIp 0 saddr daddr).bytes ++ udp.bytes) :=
    length_readLen (by simp) (by decide)
  rw [receivePacket_eq_error_iff]
  refine ⟨hholds.accepted hread (show ipVersion <<< 4 ||| 5 = 0x45 by decide) ?_ rfl rfl
    (residue_ip _ rfl) hcheck, ?_⟩
  · exact toNat_ntohs_htons_ofNat (n := 28) (by decide)
  · rw [DhcpPacket.udpLength, hholds.udpLen, hudpLen]
    omega

/-- **What the UDP length can do**: for each sender there is a packet with this length, of nothing
but the two headers, that makes `receive_packet` run out of bounds, exactly when the length is too
short for the header or too long for a message.

**Proof sketch.** An error means that the packet is accepted and its UDP length does not fit
(`receivePacket_eq_error_iff`); conversely `exists_overrun`. -/
theorem receivePacket_overrun_iff (stack : DhcpPacket) (msg : DhcpMsg) (saddr daddr : UInt32)
    (sport len : UInt16) :
    (∃ ip : IpHdr, ∃ udp : UdpHdr, ip.saddr = saddr ∧ ip.daddr = daddr ∧ udp.source = sport ∧
      ntohs udp.len = len ∧
      ∃ f, receivePacket stack (some (ip.bytes ++ udp.bytes)) msg = .error f) ↔
    len.toNat < 8 ∨ 8 + dhcpMsgSize < len.toNat := by
  constructor
  · rintro ⟨ip, udp, -, -, -, rfl, hfault⟩
    obtain ⟨-, hlong⟩ := (receivePacket_eq_error_iff stack _ msg).mp hfault
    have hholds := DhcpPacket.holds_read stack ip udp
      (show 28 + ([] : List UInt8).length ≤ dhcpPacketSize by decide) []
    rw [List.append_nil, List.append_nil] at hholds
    rw [DhcpPacket.udpLength, hholds.udpLen] at hlong
    omega
  · intro h
    obtain ⟨ip, udp, hsaddr, hdaddr, hsport, hlen, hfault⟩ :=
      exists_overrun stack msg len.toNat_lt h saddr daddr sport
    exact ⟨ip, udp, hsaddr, hdaddr, hsport, UInt16.toNat_inj.mp hlen, hfault⟩

/-! ## A word that has been changed -/

/-- The sequence with the word at `q` replaced. -/
def replaceWord (bytes : List UInt8) (q : ℕ) (v : UInt16) : List UInt8 :=
  bytes.take q ++ littleEndian 2 v.toNat ++ bytes.drop (q + 2)

/-- The two ways of writing a zero. -/
def BothZero (v w : UInt16) : Prop := v = 0 ∧ w = 0xffff ∨ v = 0xffff ∧ w = 0

/-- Two words in the same class are equal, or they are the two zeros. -/
private lemma bothZero_or_eq_of_modEq {v w : UInt16} (h : v.toNat ≡ w.toNat [MOD 65535]) :
    v = w ∨ BothZero v w := by
  unfold BothZero
  simp only [← UInt16.toNat_inj]
  exact eq_or_of_modEq (B := 65536) v.toNat_lt w.toNat_lt h

/-- The two zeros are in the same class. -/
private lemma modEq_of_bothZero {v w : UInt16} (h : BothZero v w) :
    v.toNat ≡ w.toNat [MOD 65535] := by
  rcases h with ⟨rfl, rfl⟩ | ⟨rfl, rfl⟩ <;> rfl

section Overlay

variable {p p' : DhcpPacket} {q : ℕ} {v : UInt16}

/-- Changing a word leaves the length. -/
lemma length_replaceWord {bytes : List UInt8} (h : q + 2 ≤ bytes.length) :
    (replaceWord bytes q v).length = bytes.length := by
  simp only [replaceWord, List.length_append, List.length_take, length_littleEndian,
    List.length_drop]
  omega

/-- Reading the changed packet is changing the packet that has been read.

**Proof sketch.** Byte by byte: the changed word is inside of what is read, and elsewhere both are
what was read before. -/
private lemma read_replaceWord (stack : DhcpPacket) {bytes : List UInt8}
    (h : q + 2 ≤ readLen bytes) :
    (stack.read (replaceWord bytes q v)).data =
      (stack.read bytes).data.overlay q (littleEndian 2 v.toNat) := by
  obtain ⟨hbytes, hpacket⟩ := Nat.le_min.mp h
  have hlen := length_replaceWord (v := v) hbytes
  have hget : ∀ i, (replaceWord bytes q v).getD i 0 =
      if q ≤ i ∧ i < q + 2 then (littleEndian 2 v.toNat).getD (i - q) 0 else bytes.getD i 0 := by
    intro i
    have htake : (bytes.take q).length = q := by
      rw [List.length_take]
      omega
    have hhead : (bytes.take q ++ littleEndian 2 v.toNat).length = q + 2 := by
      rw [List.length_append, htake, length_littleEndian]
    unfold replaceWord
    split_ifs with hi
    · rw [List.getD_append _ _ _ _ (by omega), List.getD_append_right _ _ _ _ (by omega), htake]
    · by_cases hlow : i < q
      · rw [List.getD_append _ _ _ _ (by omega), List.getD_append _ _ _ _ (by omega)]
        simp only [List.getD_eq_getElem?_getD, List.getElem?_take, if_pos hlow]
      · rw [List.getD_append_right _ _ _ _ (by omega), hhead]
        simp only [List.getD_eq_getElem?_getD, List.getElem?_drop]
        rw [show q + 2 + (i - (q + 2)) = i by omega]
  ext i
  · rfl
  · simp only [DhcpPacket.read, Buffer.overlay, List.length_take, hlen, length_littleEndian,
      Nat.sub_zero, Nat.zero_add, Nat.zero_le, true_and]
    have htake : ∀ (l : List UInt8), i < min dhcpPacketSize l.length →
        (l.take dhcpPacketSize).getD i 0 = l.getD i 0 := by
      intro l hi
      simp only [List.getD_eq_getElem?_getD, List.getElem?_take]
      rw [if_pos (by omega)]
    by_cases hi : i < min dhcpPacketSize bytes.length
    · rw [if_pos hi, if_pos hi, htake _ (by rwa [hlen]), htake _ hi, hget]
    · rw [if_neg hi, if_neg hi, if_neg (by omega)]

/-- **A sum of words** of which one has been replaced.

**Proof sketch.** The sum is cut into what is before the word, the word, and what is behind it; the
parts before and behind are the same. -/
theorem wordSum_overlay (data : Buffer) {pos n : ℕ} (hpos : pos ≤ q) (heven : 2 ∣ q - pos)
    (hn : q + 2 ≤ pos + n) :
    wordSum (slice (data.overlay q (littleEndian 2 v.toNat)).byte pos n) +
        (data.field16 q).toNat =
      wordSum (slice data.byte pos n) + v.toNat := by
  obtain ⟨k, rfl⟩ := Nat.exists_eq_add_of_le hpos
  obtain ⟨r, rfl⟩ : ∃ r, n = k + 2 + r := ⟨n - (k + 2), by omega⟩
  rw [Nat.add_sub_cancel_left] at heven
  have hword : slice (data.overlay (pos + k) (littleEndian 2 v.toNat)).byte (pos + k) 2 =
      littleEndian 2 v.toNat := Buffer.slice_overlay data (pos + k) (littleEndian 2 v.toNat)
  rw [slice_add, slice_add, slice_add, slice_add, hword, data.slice_field16,
    Buffer.slice_overlay_of_disjoint data (by omega),
    Buffer.slice_overlay_of_disjoint data (by rw [length_littleEndian]; omega),
    wordSum_append (by simpa using (Nat.dvd_add_right heven).mpr (Nat.dvd_refl 2)),
    wordSum_append (by simpa using heven),
    wordSum_append (by simpa using (Nat.dvd_add_right heven).mpr (Nat.dvd_refl 2)),
    wordSum_append (by simpa using heven), wordSum_littleEndian, wordSum_littleEndian]
  omega

/-- The sum that the checksum of UDP is computed from: the pseudo header, and what is behind it. -/
lemma wordSum_covered_eq (p : DhcpPacket) (h : 20 ≤ p.totLen) :
    wordSum p.covered = 17 * 256 + p.udpLen.toNat + wordSum (littleEndian 4 p.saddr.toNat) +
      wordSum (littleEndian 4 p.daddr.toNat) +
      wordSum (slice p.borrow.data.byte 20 (p.totLen - 20)) := by
  obtain ⟨n, hn⟩ := Nat.exists_eq_add_of_le h
  have hfirst : (0 : UInt8) <<< 4 ||| 0 = 0 := by decide
  rw [DhcpPacket.covered, hn, slice_add, p.slice_borrow_ip, wordSum_append (by simp), wordSum_ip,
    Nat.add_sub_cancel_left, Nat.zero_add]
  simp only [IpHdr.zero, wordSum, ipProtoUdp, hfirst, UInt8.reduceToNat, UInt16.reduceToNat]
  omega

/-- A field of two bytes elsewhere stays. -/
lemma field16_overlay (data : Buffer) {k : ℕ} {bytes : List UInt8}
    (h : k + 2 ≤ q ∨ q + bytes.length ≤ k) :
    (data.overlay q bytes).field16 k = data.field16 k := by
  rw [Buffer.field16, Buffer.slice_overlay_of_disjoint data h, Buffer.field16]

/-- A field of four bytes elsewhere stays. -/
lemma field32_overlay (data : Buffer) {k : ℕ} {bytes : List UInt8}
    (h : k + 4 ≤ q ∨ q + bytes.length ≤ k) :
    (data.overlay q bytes).field32 k = data.field32 k := by
  rw [Buffer.field32, Buffer.slice_overlay_of_disjoint data h, Buffer.field32]

/-- The word that has been put in. -/
private lemma field16_overlay_self (data : Buffer) :
    (data.overlay q (littleEndian 2 v.toNat)).field16 q = v :=
  Buffer.field16_eq (Buffer.slice_overlay data q (littleEndian 2 v.toNat))

/-- Behind the pseudo header, borrowing and changing a word can be exchanged, unless it is the word
of the checksum. -/
private lemma slice_borrow_overlay (h : p'.data = p.data.overlay q (littleEndian 2 v.toNat))
    (hcheck : q ≠ 26) (heven : 2 ∣ q) (n : ℕ) :
    slice p'.borrow.data.byte 20 n =
      slice (p.borrow.data.overlay q (littleEndian 2 v.toNat)).byte 20 n := by
  apply slice_congr
  intro i hi
  simp only [DhcpPacket.borrow, h, Buffer.overlay, IpHdr.length_bytes, List.length_cons,
    List.length_nil, length_littleEndian, Nat.zero_add, Nat.reduceAdd, Nat.zero_le, true_and]
  by_cases h26 : 26 ≤ 20 + i ∧ 20 + i < 28
  · rw [if_pos h26, if_neg (by omega), if_pos h26]
  · have hlow : ¬ 20 + i < 20 := by omega
    simp only [if_neg h26, if_neg hlow]

/-- The sum behind the pseudo header, when a word other than the checksum has been replaced. -/
lemma wordSum_borrow_overlay (h : p'.data = p.data.overlay q (littleEndian 2 v.toNat))
    (hlow : 20 ≤ q) (hcheck : q ≠ 26) (heven : 2 ∣ q) {n : ℕ} (hn : q + 2 ≤ 20 + n) :
    wordSum (slice p'.borrow.data.byte 20 n) + (p.data.field16 q).toNat =
      wordSum (slice p.borrow.data.byte 20 n) + v.toNat := by
  have hword : p.borrow.data.field16 q = p.data.field16 q := by
    rw [Buffer.field16, p.slice_borrow hlow (by omega), Buffer.field16]
  rw [slice_borrow_overlay h hcheck heven, ← hword]
  exact wordSum_overlay _ hlow (Nat.dvd_sub heven (by decide)) hn

/-- The checksum is not part of what it is computed from. -/
private lemma slice_borrow_overlay_check (h : p'.data = p.data.overlay 26 (littleEndian 2 v.toNat))
    (n : ℕ) : slice p'.borrow.data.byte 20 n = slice p.borrow.data.byte 20 n := by
  apply slice_congr
  intro i hi
  have hlow : ¬ 20 + i < 20 := by omega
  simp only [DhcpPacket.borrow, h, Buffer.overlay, IpHdr.length_bytes, List.length_cons,
    List.length_nil, length_littleEndian, Nat.zero_add, Nat.reduceAdd, Nat.zero_le, true_and,
    if_neg hlow]
  split_ifs <;> rfl

/-- Sums that are the same, but for a word. -/
private lemma modEq_of_add_eq {n n' v w : ℕ} (h : n' + w = n + v) (hmod : n' ≡ n [MOD 65535]) :
    v ≡ w [MOD 65535] := by
  apply Nat.ModEq.add_left_cancel' n
  rw [← h]
  exact hmod.add_right w

/-- **One changed word**: if both packets are accepted, then it has not been changed, or it is the
other way of writing a zero.

**Proof sketch.** Both sums of words are all ones, so the changed word is congruent to the one
before. In the header of IP that is its own checksum. In the rest it is that of UDP, where the
destination is checked by itself, the checksum is determined by the rest, and the length counts
twice. -/
theorem eq_or_bothZero (h : p'.data = p.data.overlay q (littleEndian 2 v.toNat)) {n : ℕ}
    (hp : p.Accepted n) (hp' : p'.Accepted n) (heven : 2 ∣ q) (hq : q + 2 ≤ p.totLen) :
    v = p.data.field16 q ∨ BothZero v (p.data.field16 q) := by
  have hv : p'.data.field16 q = v := by rw [h, field16_overlay_self]
  by_cases hlow : q < 20
  · -- the header of IP has a checksum of its own
    have hsum := wordSum_overlay (v := v) p.data (Nat.zero_le q) heven (n := 20) (by omega)
    have hres := hp'.ipSum.trans hp.ipSum.symm
    rw [h] at hres
    exact bothZero_or_eq_of_modEq (modEq_of_add_eq hsum (residue_eq_iff.mp hres).2)
  · have hfield : ∀ k, k + 4 ≤ 20 → p'.data.field32 k = p.data.field32 k := fun k hk => by
      rw [h, field32_overlay _ (by omega)]
    have hsaddr : p'.saddr = p.saddr := hfield 12 (by decide)
    have hdaddr : p'.daddr = p.daddr := hfield 16 (by decide)
    have htot : p'.totLen = p.totLen := by
      rw [DhcpPacket.totLen, h, field16_overlay _ (by omega), DhcpPacket.totLen]
    have hcovered := wordSum_covered_eq p (by omega)
    have hcovered' := wordSum_covered_eq p' (by omega)
    rw [htot, hsaddr, hdaddr] at hcovered'
    have hcheck := hp.udpSum
    have hcheck' := hp'.udpSum
    by_cases h22 : q = 22
    · subst h22
      left
      rw [← hv]
      exact hp'.dest.trans hp.dest.symm
    by_cases h26 : q = 26
    · subst h26
      left
      have hlen : p'.udpLen = p.udpLen := by
        rw [DhcpPacket.udpLen, h, field16_overlay _ (by omega), DhcpPacket.udpLen]
      rw [slice_borrow_overlay_check h, hlen, ← hcovered] at hcovered'
      rw [hcovered', DhcpPacket.check, hv] at hcheck'
      apply UInt16.toNat_inj.mp
      rw [DhcpPacket.check] at hcheck
      omega
    · have hsum := wordSum_borrow_overlay h (by omega) h26 heven (n := p.totLen - 20) (by omega)
      have hsame : p'.check = p.check := by
        rw [DhcpPacket.check, h, field16_overlay _ (by rw [length_littleEndian]; omega),
          DhcpPacket.check]
      have hres : residue 65536 (wordSum p'.covered) = residue 65536 (wordSum p.covered) := by
        rw [hsame] at hcheck'
        omega
      have hmod := (residue_eq_iff.mp hres).2
      apply bothZero_or_eq_of_modEq
      by_cases h24 : q = 24
      · -- the length is also part of the pseudo header, so it counts twice
        subst h24
        have hlen : p'.udpLen = v := hv
        have hlen' : p.udpLen = p.data.field16 24 := rfl
        have htwice : wordSum p'.covered + 2 * (p.data.field16 24).toNat =
            wordSum p.covered + 2 * v.toNat := by
          rw [hcovered, hcovered', hlen, hlen']
          omega
        exact Nat.ModEq.cancel_left_of_coprime (by decide) (modEq_of_add_eq htwice hmod)
      · have hlen : p'.udpLen = p.udpLen := by
          rw [DhcpPacket.udpLen, h, field16_overlay _ (by rw [length_littleEndian]; omega),
            DhcpPacket.udpLen]
        have honce : wordSum p'.covered + (p.data.field16 q).toNat =
            wordSum p.covered + v.toNat := by
          rw [hcovered, hcovered', hlen]
          omega
        exact modEq_of_add_eq honce hmod

/-- **A zero in the message** that is written the other way does no harm.

**Proof sketch.** The headers are as they were, and the sum over the message is congruent and not
zero, so it has the same residue. -/
theorem accepted_of_bothZero (h : p'.data = p.data.overlay q (littleEndian 2 v.toNat)) {n : ℕ}
    (hp : p.Accepted n) (heven : 2 ∣ q) (hlow : 28 ≤ q) (hq : q + 2 ≤ p.totLen)
    (hzero : BothZero v (p.data.field16 q)) : p'.Accepted n := by
  have h16 : ∀ k, k + 2 ≤ 28 → p'.data.field16 k = p.data.field16 k := fun k hk => by
    rw [h, field16_overlay _ (by omega)]
  have h32 : ∀ k, k + 4 ≤ 28 → p'.data.field32 k = p.data.field32 k := fun k hk => by
    rw [h, field32_overlay _ (by omega)]
  have hbyte : ∀ k, k < 28 → p'.data.byte k = p.data.byte k := fun k hk => by
    rw [h, Buffer.overlay_byte_of_lt _ _ (by omega)]
  have htot : p'.totLen = p.totLen := by
    rw [DhcpPacket.totLen, h16 2 (by decide), DhcpPacket.totLen]
  have hcovered := wordSum_covered_eq p (by omega)
  have hcovered' := wordSum_covered_eq p' (by omega)
  have hsum := wordSum_borrow_overlay h (by omega) (by omega) heven (n := p.totLen - 20) (by omega)
  rw [htot, show p'.saddr = p.saddr from h32 12 (by decide),
    show p'.daddr = p.daddr from h32 16 (by decide),
    show p'.udpLen = p.udpLen from h16 24 (by decide)] at hcovered'
  have hres : residue 65536 (wordSum p'.covered) = residue 65536 (wordSum p.covered) := by
    refine residue_eq_iff.mpr ⟨by omega, ?_⟩
    apply Nat.ModEq.add_right_cancel' (p.data.field16 q).toNat
    have heq : wordSum p'.covered + (p.data.field16 q).toNat = wordSum p.covered + v.toNat := by
      omega
    rw [heq]
    exact (modEq_of_bothZero hzero).add_left _
  refine ⟨hp.long, ?_, ?_, ?_, ?_, ?_, ?_⟩
  · rw [hbyte 0 (by decide), hp.version]
  · rw [htot]
    exact hp.complete
  · rw [DhcpPacket.protocol, hbyte 9 (by decide)]
    exact hp.protocol
  · rw [DhcpPacket.dest, h16 22 (by decide)]
    exact hp.dest
  · rw [h, Buffer.slice_overlay_of_disjoint _ (by omega)]
    exact hp.ipSum
  · rw [DhcpPacket.check, h16 26 (by decide), hres]
    exact hp.udpSum

end Overlay

/-- A datagram is refused if it is not accepted.

**Proof sketch.** An accepted packet is copied or makes the function run out of bounds, and the
length of a copy is not negative. -/
theorem receivePacket_eq_neg_one_iff (stack : DhcpPacket) (bytes : List UInt8) (msg : DhcpMsg) :
    receivePacket stack (some bytes) msg = .ok (-1, msg) ↔
      ¬ (stack.read bytes).Accepted (readLen bytes) := by
  constructor
  · intro hrefused haccepted
    have hfault := receivePacket_eq_error_iff stack bytes msg
    by_cases hfits : 8 ≤ (stack.read bytes).udpLength ∧
        (stack.read bytes).udpLength ≤ 8 + dhcpMsgSize
    · rw [receivePacket_of_accepted msg haccepted hfits.1 (by rw [length_slice]; omega)] at hrefused
      have hlen := congrArg Prod.fst (Except.ok.inj hrefused)
      dsimp only at hlen
      omega
    · obtain ⟨f, hf⟩ := hfault.mpr ⟨haccepted, hfits⟩
      rw [hf] at hrefused
      cases hrefused
  · intro hnot
    rw [receivePacket_eq, if_neg hnot]

/-- **A packet of which one word has been changed** on its way is refused, unless a zero in it has
become the other way of writing a zero; in the message, such a change is not noticed.

**Proof sketch.** Both packets are read in the same length, with one word changed
(`read_replaceWord`); the two parts are `eq_or_bothZero` and `accepted_of_bothZero`. -/
theorem receivePacket_exchange {stack : DhcpPacket} {bytes : List UInt8} {msg : DhcpMsg}
    (haccepted : receivePacket stack (some bytes) msg ≠ .ok (-1, msg)) {q : ℕ} (heven : 2 ∣ q)
    (hq : q + 2 ≤ (stack.read bytes).totLen) {v : UInt16}
    (hv : v ≠ (stack.read bytes).data.field16 q) :
    (¬ BothZero v ((stack.read bytes).data.field16 q) →
      receivePacket stack (some (replaceWord bytes q v)) msg = .ok (-1, msg)) ∧
    (BothZero v ((stack.read bytes).data.field16 q) → 28 ≤ q →
      receivePacket stack (some (replaceWord bytes q v)) msg ≠ .ok (-1, msg)) := by
  rw [ne_eq, receivePacket_eq_neg_one_iff, not_not] at haccepted
  rw [ne_eq, receivePacket_eq_neg_one_iff, not_not]
  have hcomplete := haccepted.complete
  have hread : (stack.read (replaceWord bytes q v)).data =
      (stack.read bytes).data.overlay q (littleEndian 2 v.toNat) :=
    read_replaceWord stack (by omega)
  have hlen : readLen (replaceWord bytes q v) = readLen bytes := by
    have hbytes : readLen bytes ≤ bytes.length := Nat.min_le_left _ _
    rw [readLen, length_replaceWord (by omega), readLen]
  rw [hlen]
  constructor
  · intro hzero haccepted'
    rcases eq_or_bothZero hread haccepted haccepted' heven hq with heq | hboth
    · exact hv heq
    · exact hzero hboth
  · intro hzero hlow
    exact accepted_of_bothZero hread haccepted heven hlow hq hzero

/-- A datagram with a message of two zeros: a one in it is noticed, all ones are not.

**Proof sketch.** The datagram is accepted, which is computed, and `receivePacket_exchange` is
applied to both words. -/
theorem receivePacket_exchange_zero :
    ∃ bytes, receivePacket ⟨⟨1288, fun _ => 0⟩, rfl⟩ (some (replaceWord bytes 28 1)) .zero =
        .ok (-1, .zero) ∧
      receivePacket ⟨⟨1288, fun _ => 0⟩, rfl⟩ (some (replaceWord bytes 28 0xffff)) .zero ≠
        .ok (-1, .zero) := by
  let bytes : List UInt8 := [0x45, 0, 0, 30, 0, 0, 0, 0, 64, 17, 122, 208, 0, 0, 0, 0,
    255, 255, 255, 255, 0, 67, 0, 68, 0, 10, 255, 83, 0, 0]
  have haccepted :
      receivePacket ⟨⟨1288, fun _ => 0⟩, rfl⟩ (some bytes) .zero ≠ .ok (-1, .zero) := by
    rw [ne_eq, receivePacket_eq_neg_one_iff, not_not]
    decide +kernel
  have hword : (DhcpPacket.read ⟨⟨1288, fun _ => 0⟩, rfl⟩ bytes).data.field16 28 = 0 := by
    decide +kernel
  have hlong : 28 + 2 ≤ (DhcpPacket.read ⟨⟨1288, fun _ => 0⟩, rfl⟩ bytes).totLen := by
    decide +kernel
  refine ⟨bytes, ?_, ?_⟩
  · refine (receivePacket_exchange haccepted (by decide) hlong (by rw [hword]; decide)).1 ?_
    rw [hword, BothZero]
    decide
  · refine (receivePacket_exchange haccepted (by decide) hlong (by rw [hword]; decide)).2 ?_
      (by decide)
    rw [hword]
    exact .inr ⟨rfl, rfl⟩

end JzPretest.Dhcp

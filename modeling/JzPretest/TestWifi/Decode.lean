import JzPretest.Semantics.Tlv
import JzPretest.Semantics.Transition
import JzPretest.TestWifi.DhcpMsg
import JzPretest.TestWifi.Netmask

set_option relaxedAutoImplicit false
set_option autoImplicit false

/-!
# Decoding a DHCP message

`decode_dhcp_msg` walks through the options of a message that has been received, as far as the
number of bytes that came goes, and keeps what it wants to know.

## Main definitions

* `JzPretest.Dhcp.DhcpInfo` — what the client keeps of a message.
* `JzPretest.Dhcp.decodeDhcpMsg` — the function.
* `JzPretest.Dhcp.meaning` — what options say, item by item.

## Main results

* `JzPretest.Dhcp.optionLoop_eq` — the walk stays within the bytes that came, and takes the items
  that they begin with.
* `JzPretest.Dhcp.decode_encode` — options that have been written are found again.
-/

namespace JzPretest.Dhcp

open Transition

/-- `struct dhcp_info`; addresses are in the order of the network. -/
structure DhcpInfo where
  type : UInt32
  ipaddr : UInt32
  gateway : UInt32
  prefixLength : UInt32
  dns1 : UInt32
  dns2 : UInt32
  serveraddr : UInt32
  lease : UInt32
  deriving DecidableEq, Repr

/-- What `memset` leaves of it. -/
def DhcpInfo.zero : DhcpInfo := ⟨0, 0, 0, 0, 0, 0, 0, 0⟩

/-! ## The function -/

/-- An address is copied from `k` bytes behind `x`, if a value of `optlen` bytes has it. -/
def takeAddress (msg : DhcpMsg) (x k optlen : ℕ) (info : DhcpInfo) (f : UInt32 → DhcpInfo) :
    Except Fault DhcpInfo :=
  if k + 4 ≤ optlen then do
    let v ← msg.data.load32 (x + k)
    return f v
  else return info

/-- The `switch` of `decode_dhcp_msg`, for a value of `optlen` bytes at `x`. -/
def takeOption (msg : DhcpMsg) (opt : UInt8) (x optlen : ℕ) (info : DhcpInfo) :
    Except Fault DhcpInfo :=
  if opt = optSubnetMask then
    takeAddress msg x 0 optlen info fun mask =>
      { info with prefixLength := UInt32.ofNat (ipv4NetmaskToPrefixLength mask) }
  else if opt = optGateway then
    takeAddress msg x 0 optlen info fun gateway => { info with gateway }
  else if opt = optDns then do
    let info ← takeAddress msg x 0 optlen info fun dns1 => { info with dns1 }
    takeAddress msg x 4 optlen info fun dns2 => { info with dns2 }
  else if opt = optLeaseTime then
    takeAddress msg x 0 optlen info fun lease => { info with lease := ntohl lease }
  else if opt = optServerId then
    takeAddress msg x 0 optlen info fun serveraddr => { info with serveraddr }
  else if opt = optMessageType then do
    -- the length of this option is not looked at
    let type ← msg.data.load x
    return { info with type := type.toUInt32 }
  else return info

/-- The loop of `decode_dhcp_msg`: `len` bytes are left, from `x` on. -/
def optionLoop (msg : DhcpMsg) (x len : ℕ) (info : DhcpInfo) : Except Fault DhcpInfo :=
  if 2 < len then do
    let opt ← msg.data.load x
    if opt = optPad then optionLoop msg (x + 1) (len - 1) info
    else if opt = optEnd then return info
    else
      let optlen ← msg.data.load (x + 1 : ℕ)
      if len - 2 < optlen.toNat then return info
      else
        let info ← takeOption msg opt (x + 2) optlen.toNat info
        optionLoop msg (x + 2 + optlen.toNat) (len - 2 - optlen.toNat) info
  else return info
termination_by len

/-- `decode_dhcp_msg`: what it returns, and what it stores. -/
def decodeDhcpMsg (msg : DhcpMsg) (len : ℤ) : Except Fault (ℤ × DhcpInfo) :=
  if len < dhcpMsgFixedSize + 4 then return (-1, .zero)
  else do
    let cookie ← msg.data.loadAll dhcpMsgFixedSize 4
    if cookie ≠ optCookie then return (-1, .zero)
    else
      let info ← optionLoop msg (dhcpMsgFixedSize + 4) (len - (dhcpMsgFixedSize + 4)).toNat .zero
      return (0, { info with ipaddr := msg.yiaddr })

/-! ## Items -/

/-- The address at a place of a value, if it is there. -/
def addressAt (value : List UInt8) (k : ℕ) : Option UInt32 :=
  if k + 4 ≤ value.length then some (UInt32.ofNat (ofLittleEndian ((value.drop k).take 4)))
  else none

/-- The address at a place of the value of an item with this code. -/
def addressOf (code : UInt8) (k : ℕ) (i : Tlv.Item) : Option UInt32 :=
  if i.code = code then addressAt i.value k else none

/-- The type that an item with a type gives: the byte behind its length. -/
def typeOf (f : Tlv.Found) : Option UInt32 :=
  if f.code = optMessageType then (f.value ++ f.rest).head?.map UInt8.toUInt32 else none

/-- An item is taken into account. -/
def DhcpInfo.update (info : DhcpInfo) (f : Tlv.Found) : DhcpInfo :=
  { type := (typeOf f).getD info.type
    ipaddr := info.ipaddr
    gateway := (addressOf optGateway 0 f.toItem).getD info.gateway
    prefixLength := ((addressOf optSubnetMask 0 f.toItem).map
      fun mask => UInt32.ofNat (ipv4NetmaskToPrefixLength mask)).getD info.prefixLength
    dns1 := (addressOf optDns 0 f.toItem).getD info.dns1
    dns2 := (addressOf optDns 4 f.toItem).getD info.dns2
    serveraddr := (addressOf optServerId 0 f.toItem).getD info.serveraddr
    lease := ((addressOf optLeaseTime 0 f.toItem).map ntohl).getD info.lease }

/-- An address is taken where the option is long enough for it.

**Proof sketch.** The branches of `takeAddress` are those of `addressAt`, and the load is inside of
the message. -/
private lemma takeAddress_eq {msg : DhcpMsg} {x optlen : ℕ} (hsize : x + optlen ≤ msg.data.size)
    (k : ℕ) (info : DhcpInfo) (f : UInt32 → DhcpInfo) :
    takeAddress msg x k optlen info f =
      .ok ((addressAt (slice msg.data.byte x optlen) k).elim info f) := by
  unfold takeAddress addressAt
  rw [length_slice]
  by_cases hk : k + 4 ≤ optlen
  · obtain ⟨r, rfl⟩ := Nat.exists_eq_add_of_le hk
    have hload : msg.data.load32 (x + k) =
        .ok (UInt32.ofNat
          (ofLittleEndian (((slice msg.data.byte x (k + 4 + r)).drop k).take 4))) := by
      refine Buffer.load32_eq_ok_iff.mpr ⟨by omega, ?_⟩
      rw [Buffer.field32, slice_add, slice_add, List.append_assoc,
        List.drop_left' (length_slice _ _ _), List.take_left' (length_slice _ _ _)]
    rw [if_pos hk, if_pos hk, hload]
    rfl
  · rw [if_neg hk, if_neg hk]
    rfl

/-- **One option**: its `optlen` bytes are at the beginning of what is left.

**Proof sketch.** By the code of the option, in the order in which the code compares it: each takes
the addresses or the byte that are there, and an option of another code is left out. -/
theorem takeOption_eq (msg : DhcpMsg) (opt : UInt8) {x m optlen : ℕ} (hlen : optlen ≤ m)
    (hm : 0 < m) (hsize : x + m ≤ msg.data.size) (info : DhcpInfo) :
    takeOption msg opt x optlen info =
      .ok (info.update ⟨⟨opt, (slice msg.data.byte x m).take optlen⟩,
        (slice msg.data.byte x m).drop optlen⟩) := by
  have hvalue : (slice msg.data.byte x m).take optlen = slice msg.data.byte x optlen :=
    take_slice _ _ hlen
  have haddr := takeAddress_eq (show x + optlen ≤ msg.data.size by omega)
  have htype : msg.data.load x = .ok (msg.data.byte x) :=
    Buffer.load_eq (Int.natCast_nonneg x) (by omega)
  have hhead : ((slice msg.data.byte x m).take optlen ++
      (slice msg.data.byte x m).drop optlen).head? = some (msg.data.byte x) := by
    obtain ⟨r, rfl⟩ : ∃ r, m = r + 1 := ⟨m - 1, by omega⟩
    rw [List.take_append_drop, slice_succ, List.head?_cons]
  rw [hvalue] at hhead ⊢
  unfold takeOption
  simp only [haddr]
  generalize slice msg.data.byte x optlen = value at *
  by_cases hmask : opt = optSubnetMask
  · subst hmask
    rw [if_pos rfl]
    cases haddr0 : addressAt value 0 <;>
      simp [DhcpInfo.update, addressOf, typeOf, haddr0, optSubnetMask, optGateway, optDns,
        optLeaseTime, optServerId, optMessageType]
  by_cases hgateway : opt = optGateway
  · subst hgateway
    rw [if_neg (by decide), if_pos rfl]
    cases haddr0 : addressAt value 0 <;>
      simp [DhcpInfo.update, addressOf, typeOf, haddr0, optSubnetMask, optGateway, optDns,
        optLeaseTime, optServerId, optMessageType]
  by_cases hdns : opt = optDns
  · subst hdns
    rw [if_neg (by decide), if_neg (by decide), if_pos rfl]
    cases haddr0 : addressAt value 0 <;> cases haddr4 : addressAt value 4 <;>
      simp [DhcpInfo.update, addressOf, typeOf, haddr0, haddr4, optSubnetMask, optGateway, optDns,
        optLeaseTime, optServerId, optMessageType, bind, Except.bind]
  by_cases hlease : opt = optLeaseTime
  · subst hlease
    rw [if_neg (by decide), if_neg (by decide), if_neg (by decide), if_pos rfl]
    cases haddr0 : addressAt value 0 <;>
      simp [DhcpInfo.update, addressOf, typeOf, haddr0, optSubnetMask, optGateway, optDns,
        optLeaseTime, optServerId, optMessageType]
  by_cases hserver : opt = optServerId
  · subst hserver
    rw [if_neg (by decide), if_neg (by decide), if_neg (by decide), if_neg (by decide), if_pos rfl]
    cases haddr0 : addressAt value 0 <;>
      simp [DhcpInfo.update, addressOf, typeOf, haddr0, optSubnetMask, optGateway, optDns,
        optLeaseTime, optServerId, optMessageType]
  by_cases htype' : opt = optMessageType
  · subst htype'
    rw [if_neg (by decide), if_neg (by decide), if_neg (by decide), if_neg (by decide),
      if_neg (by decide), if_pos rfl, htype]
    simp [DhcpInfo.update, addressOf, typeOf, hhead, optSubnetMask, optGateway, optDns,
      optLeaseTime, optServerId, optMessageType]
  · rw [if_neg hmask, if_neg hgateway, if_neg hdns, if_neg hlease, if_neg hserver, if_neg htype']
    simp [DhcpInfo.update, addressOf, typeOf, hmask, hgateway, hdns, hlease, hserver, htype']
    rfl

/-- An item without a value, and nothing behind it, says nothing. -/
private lemma update_empty (info : DhcpInfo) (c : UInt8) : info.update ⟨⟨c, []⟩, []⟩ = info := by
  simp [DhcpInfo.update, addressOf, addressAt, typeOf]

/-- Two bytes are too few for an option that says something. -/
private lemma foldl_read_of_le {bs : List UInt8} (h : bs.length ≤ 2) (info : DhcpInfo) :
    (Tlv.read optPad optEnd bs).foldl DhcpInfo.update info = info := by
  match bs with
  | [] => rw [Tlv.read]; rfl
  | [c] => rw [Tlv.read]; rfl
  | [c, n] =>
    rw [Tlv.read]
    split_ifs
    · rw [Tlv.read]
      rfl
    · rfl
    · rw [List.take_nil, List.drop_nil, Tlv.read]
      exact update_empty info c
    · rfl
  | _ :: _ :: _ :: rest => simp at h

/-- **The walk through the options** stays within the bytes that came, and takes into account the
items that they begin with.

**Proof sketch.** Strong induction on the number of bytes that are left: padding takes one, the end
ends the walk, and an option takes its length and two more, if they are there. -/
theorem optionLoop_eq (msg : DhcpMsg) {x len : ℕ} (hsize : x + len ≤ msg.data.size)
    (info : DhcpInfo) :
    optionLoop msg x len info =
      .ok ((Tlv.read optPad optEnd (slice msg.data.byte x len)).foldl DhcpInfo.update info) := by
  induction len using Nat.strong_induction_on generalizing x info with
  | _ len ih =>
    rw [optionLoop]
    by_cases hlen : 2 < len
    · obtain ⟨m, rfl⟩ : ∃ m, len = m + 1 + 1 := ⟨len - 2, by omega⟩
      have hopt : msg.data.load x = .ok (msg.data.byte x) :=
        Buffer.load_eq (Int.natCast_nonneg x) (by omega)
      have hoptlen : msg.data.load (x + 1 : ℕ) = .ok (msg.data.byte (x + 1)) :=
        Buffer.load_eq (Int.natCast_nonneg _) (by omega)
      rw [if_pos hlen, hopt, hoptlen]
      change (if _ then _ else _) = _
      by_cases hpad : msg.data.byte x = optPad
      · rw [if_pos hpad, ih _ (by omega) (by omega), slice_succ, hpad, Tlv.read_pad]
        rfl
      rw [if_neg hpad]
      by_cases hend : msg.data.byte x = optEnd
      · rw [if_pos hend, slice_succ, hend, Tlv.read_stop (by decide)]
        rfl
      rw [if_neg hend]
      change (if _ then _ else _) = _
      rw [slice_succ, slice_succ]
      by_cases hshort : m + 1 + 1 - 2 < (msg.data.byte (x + 1)).toNat
      · rw [if_pos hshort, Tlv.read_short hpad (by rw [length_slice]; omega)]
        rfl
      · have hle : (msg.data.byte (x + 1)).toNat ≤ m := by omega
        rw [if_neg hshort, takeOption_eq msg _ hle (by omega) (by omega),
          Tlv.read_item hpad hend (by rwa [length_slice])]
        change optionLoop _ _ _ _ = _
        rw [ih _ (by omega) (by omega), List.foldl_cons, drop_slice _ _ hle]
        rfl
    · rw [if_neg hlen, foldl_read_of_le (by rw [length_slice]; omega)]
      rfl

/-! ## What a message says -/

/-- What options say: the last of each kind counts. -/
def meaning (type yiaddr : UInt32) (l : List Tlv.Item) : DhcpInfo where
  type := type
  ipaddr := yiaddr
  gateway := (lastWrite (addressOf optGateway 0) l).getD 0
  prefixLength := ((lastWrite (addressOf optSubnetMask 0) l).map
    fun mask => UInt32.ofNat (ipv4NetmaskToPrefixLength mask)).getD 0
  dns1 := (lastWrite (addressOf optDns 0) l).getD 0
  dns2 := (lastWrite (addressOf optDns 4) l).getD 0
  serveraddr := (lastWrite (addressOf optServerId 0) l).getD 0
  lease := ((lastWrite (addressOf optLeaseTime 0) l).map ntohl).getD 0

/-- What the client keeps of the bytes that came. -/
def infoOf (bytes : List UInt8) : ℤ × DhcpInfo :=
  if bytes.length < dhcpMsgFixedSize + 4 then (-1, .zero)
  else if (bytes.drop dhcpMsgFixedSize).take 4 ≠ optCookie then (-1, .zero)
  else
    let found := Tlv.read optPad optEnd (bytes.drop (dhcpMsgFixedSize + 4))
    (0, meaning ((lastWrite typeOf found).getD 0)
      (UInt32.ofNat (ofLittleEndian ((bytes.drop 16).take 4))) (found.map Tlv.Found.toItem))

/-- A field of what is kept holds what the last item that writes it writes. -/
private lemma field_foldl_update {β : Type} (get : DhcpInfo → β) (write : Tlv.Found → Option β)
    (h : ∀ info f, get (DhcpInfo.update info f) = (write f).getD (get info))
    (l : List Tlv.Found) (info : DhcpInfo) :
    get (l.foldl DhcpInfo.update info) = (lastWrite write l).getD (get info) :=
  register_foldl (fun f _ info => h info f) info

/-- All items together. -/
private lemma foldl_update (l : List Tlv.Found) (yiaddr : UInt32) :
    { l.foldl DhcpInfo.update .zero with ipaddr := yiaddr } =
      meaning ((lastWrite typeOf l).getD 0) yiaddr (l.map Tlv.Found.toItem) := by
  have haddr : ∀ (code : UInt8) (k : ℕ), lastWrite (addressOf code k) (l.map Tlv.Found.toItem) =
      lastWrite (fun f => addressOf code k f.toItem) l := fun code k => (lastWrite_comp _ _ _).symm
  unfold meaning
  simp only [DhcpInfo.mk.injEq, haddr, ← lastWrite_map, true_and]
  exact ⟨field_foldl_update DhcpInfo.type _ (fun _ _ => rfl) l .zero,
    field_foldl_update DhcpInfo.gateway _ (fun _ _ => rfl) l .zero,
    field_foldl_update DhcpInfo.prefixLength _ (fun _ _ => rfl) l .zero,
    field_foldl_update DhcpInfo.dns1 _ (fun _ _ => rfl) l .zero,
    field_foldl_update DhcpInfo.dns2 _ (fun _ _ => rfl) l .zero,
    field_foldl_update DhcpInfo.serveraddr _ (fun _ _ => rfl) l .zero,
    field_foldl_update DhcpInfo.lease _ (fun _ _ => rfl) l .zero⟩

/-- **Decoding what has been received**: no byte beyond what came is looked at, and what is kept is
what these bytes say.

**Proof sketch.** All loads are inside the message: the cookie is behind the fixed part, and the
options are the rest of what came (`optionLoop_eq`). -/
theorem decode_eq (msg : DhcpMsg) {n : ℕ} (hn : n ≤ dhcpMsgSize) :
    decodeDhcpMsg msg n = .ok (infoOf (slice msg.data.byte 0 n)) := by
  unfold decodeDhcpMsg infoOf
  rw [length_slice]
  by_cases hlen : n < dhcpMsgFixedSize + 4
  · rw [if_pos (by omega), if_pos hlen]
    rfl
  have hsize := msg.size_eq
  have hfixed : dhcpMsgFixedSize = 236 := rfl
  have hcookie : msg.data.loadAll dhcpMsgFixedSize 4 =
      .ok (slice msg.data.byte dhcpMsgFixedSize 4) := Buffer.loadAll_eq (by omega)
  have hcookie' : ((slice msg.data.byte 0 n).drop dhcpMsgFixedSize).take 4 =
      slice msg.data.byte dhcpMsgFixedSize 4 := by
    rw [drop_slice _ _ (by omega), take_slice _ _ (by omega), Nat.zero_add]
  have hyiaddr : UInt32.ofNat (ofLittleEndian (((slice msg.data.byte 0 n).drop 16).take 4)) =
      msg.yiaddr := by
    rw [drop_slice _ _ (by omega), take_slice _ _ (by omega)]
    rfl
  have hloop := optionLoop_eq msg (show dhcpMsgFixedSize + 4 + (n - (dhcpMsgFixedSize + 4)) ≤
    msg.data.size by omega) .zero
  have hrest : (slice msg.data.byte 0 n).drop (dhcpMsgFixedSize + 4) =
      slice msg.data.byte (dhcpMsgFixedSize + 4) (n - (dhcpMsgFixedSize + 4)) := by
    rw [drop_slice _ _ (by omega), Nat.zero_add]
  rw [if_neg (by omega), if_neg hlen, hcookie, hcookie', hyiaddr, hrest,
    show ((n : ℤ) - (dhcpMsgFixedSize + 4)).toNat = n - (dhcpMsgFixedSize + 4) by omega]
  change (if _ then _ else _) = _
  split_ifs
  · rfl
  · rw [hloop]
    exact congrArg (fun info => Except.ok (0, info)) (foldl_update _ msg.yiaddr)

/-! ## Options that have been written -/

/-- The type that an item gives by itself. -/
def messageType (i : Tlv.Item) : Option UInt32 :=
  if i.code = optMessageType then i.value.head?.map UInt8.toUInt32 else none

/-- The type of a message is the first byte of its option, which is not empty. -/
private lemma typeOf_eq_messageType {f : Tlv.Found} (h : f.code = optMessageType → f.value ≠ []) :
    typeOf f = messageType f.toItem := by
  unfold typeOf messageType
  split_ifs with hcode
  · obtain ⟨b, bs, hvalue⟩ := List.exists_cons_of_ne_nil (h hcode)
    rw [hvalue]
    rfl
  · rfl

/-- **Options that have been written** are found again: the ones behind the end of them, and what
stood in the message before, do not count.

**Proof sketch.** By `decode_eq` what is decoded depends on the bytes only. The cookie is right, and
the items that are read from the rest are those that were written (`Tlv.items_encode`), up to the
end. -/
theorem decode_encode {msg : DhcpMsg} {n : ℕ} (hn : n ≤ dhcpMsgSize)
    {l : List (Option Tlv.Item)} (hfits : ∀ i, some i ∈ l → i.Fits optPad optEnd)
    (htype : ∀ i, some i ∈ l → i.code = optMessageType → i.value ≠ []) {junk : List UInt8}
    (hmsg : (slice msg.data.byte 0 n).drop dhcpMsgFixedSize =
      optCookie ++ (Tlv.encode optPad l ++ optEnd :: junk)) :
    decodeDhcpMsg msg n =
      .ok (0, meaning ((lastWrite messageType l.reduceOption).getD 0) msg.yiaddr
        l.reduceOption) := by
  have hlen := congrArg List.length hmsg
  rw [List.length_drop, length_slice, List.length_append, length_optCookie] at hlen
  have hcookie : ((slice msg.data.byte 0 n).drop dhcpMsgFixedSize).take 4 = optCookie := by
    rw [hmsg]
    exact List.take_left' rfl
  have hrest : (slice msg.data.byte 0 n).drop (dhcpMsgFixedSize + 4) =
      Tlv.encode optPad l ++ optEnd :: junk := by
    rw [← List.drop_drop, hmsg]
    exact List.drop_left' rfl
  have hitems : (Tlv.read optPad optEnd (Tlv.encode optPad l ++ optEnd :: junk)).map
      Tlv.Found.toItem = l.reduceOption := by
    have h := Tlv.items_encode hfits (optEnd :: junk)
    rw [Tlv.items, Tlv.items, Tlv.read_stop (by decide)] at h
    rw [h, List.map_nil, List.append_nil]
  have hfound : lastWrite typeOf (Tlv.read optPad optEnd (Tlv.encode optPad l ++ optEnd :: junk)) =
      lastWrite messageType l.reduceOption := by
    rw [← hitems, ← lastWrite_comp]
    apply lastWrite_congr
    intro f hf
    have hmem : f.toItem ∈ l.reduceOption := hitems ▸ List.mem_map_of_mem hf
    exact typeOf_eq_messageType (htype f.toItem (List.reduceOption_mem_iff.mp hmem))
  have hyiaddr : UInt32.ofNat (ofLittleEndian (((slice msg.data.byte 0 n).drop 16).take 4)) =
      msg.yiaddr := by
    have hfixed : dhcpMsgFixedSize = 236 := rfl
    rw [drop_slice _ _ (by omega), take_slice _ _ (by omega)]
    rfl
  rw [decode_eq msg hn, infoOf, length_slice, if_neg (by omega), if_neg (not_not_intro hcookie),
    hrest, hyiaddr]
  simp only [hitems, hfound]

/-- The option with the type of a message. -/
def typeItem (type : UInt8) : Tlv.Item := ⟨optMessageType, [type]⟩

/-- An option with a type fits. -/
theorem fits_typeItem (type : UInt8) :
    ∀ i, some i ∈ [some (typeItem type)] → i.Fits optPad optEnd := by
  intro i hi
  obtain rfl := Option.some.inj (List.mem_singleton.mp hi)
  exact ⟨show optMessageType ≠ optPad by decide, show optMessageType ≠ optEnd by decide,
    show 1 < 256 by decide⟩

/-- It has a type. -/
theorem typed_typeItem (type : UInt8) :
    ∀ i, some i ∈ [some (typeItem type)] → i.code = optMessageType → i.value ≠ [] := by
  intro i hi _
  obtain rfl := Option.some.inj (List.mem_singleton.mp hi)
  exact List.cons_ne_nil type []

end JzPretest.Dhcp

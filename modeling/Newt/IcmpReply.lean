import Newt.Lib.PacketRewrite
import Newt.ProxyHandler

/-!
# Echo replies

`injectICMPReply` builds the reply to a ping in a buffer: the IPv4 header with its
checksum, the ICMP header, the payload behind it, and then the ICMP checksum.
`injectICMPReply_echoReply`: the packet is the well-formed echo reply that it should be.
It is also the packet that the handler model sends (`builtReply_eq`).
-/

namespace Newt.IcmpReply

open List UInt16

open Netip Bytes IPv4Packet

/-- `IPv4.Encode` for a header without options, with zero for the fields that the caller
leaves out: type of service, ID, flags, fragment offset and checksum. -/
def ipv4Encode (b : ByteString) (totalLength : UInt16) (ttl protocol : UInt8)
    (srcAddr dstAddr : BitVec 32) : ByteString :=
  let b := putNum b 0 1 (4 * 16 + ipv4MinimumSize / 4)
  let b := putNum b 1 1 0
  let b := putNum b 2 2 totalLength.toNat
  let b := putNum b 4 2 0
  let b := putNum b 6 2 0
  let b := putNum b 8 1 ttl.toNat
  let b := putNum b 9 1 protocol.toNat
  let b := putNum b 10 2 0
  let b := putNum b 12 4 srcAddr.toNat
  putNum b 16 4 dstAddr.toNat

/-- The packet `injectICMPReply` builds.  The buffer holds both headers and the payload, so
that no access is out of its bounds. -/
def builtReply (dstAddr srcAddr : BitVec 32) (ident seq : UInt16) (payload : ByteString) :
    ByteString :=
  let totalLen := ipv4MinimumSize + 8 + payload.length
  let pkt := replicate totalLen 0
  let pkt := ipv4Encode pkt (ofNat totalLen) 64 icmpProto srcAddr dstAddr
  let pkt := putNum pkt 10 2 (~~~checksum (pkt.take ipv4MinimumSize) 0).toNat
  let pkt := putNum pkt 20 1 0
  let pkt := putNum pkt 21 1 0
  let pkt := putNum pkt 24 2 ident.toNat
  let pkt := putNum pkt 26 2 seq.toNat
  let pkt := overwrite pkt 28 payload
  let pkt := putNum pkt 22 2 0
  putNum pkt 22 2 (~~~checksum (pkt.drop ipv4MinimumSize) 0).toNat

/-- `injectICMPReply`, up to the queue: `none` if an address does not parse, and `As4` may
panic. -/
def injectICMPReply (dstIP srcIP : String) (ident seq : UInt16) (payload : ByteString) :
    Except Panic (Option ByteString) :=
  match parseAddr srcIP, parseAddr dstIP with
  | some srcAddr, some dstAddr => do
      let src ← as4 srcAddr
      let dst ← as4 dstAddr
      return some (builtReply dst src ident seq payload)
  | _, _ => .ok none

/-- The IPv4 header of a reply with a checksum. -/
def headerBytes (len : Nat) (srcAddr dstAddr : BitVec 32) (xsum : Nat) : ByteString :=
  [0x45, 0] ++ encode 2 len ++ [0, 0, 0, 0, 64, 1] ++ encode 2 xsum ++ encode 4 srcAddr.toNat ++
    encode 4 dstAddr.toNat

/-- The ICMP message of a reply with a checksum. -/
def messageBytes (ident seq : UInt16) (payload : ByteString) (xsum : Nat) : ByteString :=
  [0, 0] ++ encode 2 xsum ++ encode 2 ident.toNat ++ encode 2 seq.toNat ++ payload

theorem ipv4Encode_zero (len : UInt16) (srcAddr dstAddr : BitVec 32) (rest : ByteString) :
    ipv4Encode (replicate 20 0 ++ rest) len 64 icmpProto srcAddr dstAddr =
      headerBytes len.toNat srcAddr dstAddr 0 ++ rest := by
  simp [ipv4Encode, putNum, overwrite, headerBytes, encode, replicate, ipv4MinimumSize,
    icmpProto]

variable (len : Nat) (srcAddr dstAddr : BitVec 32) (xsum : Nat)

theorem length_headerBytes : (headerBytes len srcAddr dstAddr xsum).length = ipv4MinimumSize :=
  rfl

theorem putNum_headerBytes (len : Nat) (srcAddr dstAddr : BitVec 32) (xsum v : Nat)
    (rest : ByteString) :
    putNum (headerBytes len srcAddr dstAddr xsum ++ rest) 10 2 v =
      headerBytes len srcAddr dstAddr v ++ rest :=
  rfl

/-- A write into the ICMP message, behind the IPv4 header. -/
theorem overwrite_behind (c bs : ByteString) (i : Nat) :
    overwrite (headerBytes len srcAddr dstAddr xsum ++ c) (20 + i) bs =
      headerBytes len srcAddr dstAddr xsum ++ overwrite c i bs :=
  overwrite_append_right _ c bs

theorem putNum_behind (c : ByteString) (i n v : Nat) :
    putNum (headerBytes len srcAddr dstAddr xsum ++ c) (20 + i) n v =
      headerBytes len srcAddr dstAddr xsum ++ putNum c i n v :=
  overwrite_behind len srcAddr dstAddr xsum c (encode n v) i

variable (ident seq : UInt16)

theorem putNum_messageBytes (payload : ByteString) (xsum v : Nat) :
    putNum (messageBytes ident seq payload xsum) 2 2 v = messageBytes ident seq payload v :=
  rfl

/-- The ICMP header is written into zeros. -/
theorem putNum_message_zero (rest : ByteString) :
    putNum (putNum (putNum (putNum (replicate 8 0 ++ rest) 0 1 0) 1 1 0)
        4 2 ident.toNat) 6 2 seq.toNat = messageBytes ident seq rest 0 := by
  simp [putNum, overwrite, messageBytes, encode, replicate]

/-- The payload is copied behind it. -/
theorem overwrite_messageBytes {rest payload : ByteString} (hlen : rest.length = payload.length)
    (xsum : Nat) :
    overwrite (messageBytes ident seq rest xsum) 8 payload =
      messageBytes ident seq payload xsum := by
  have hall : overwrite rest 0 payload = payload := by
    unfold overwrite
    rw [take_zero, nil_append, Nat.zero_add, ← hlen, drop_length, append_nil]
  unfold messageBytes
  refine (overwrite_append_right (i := 0) _ rest payload).trans ?_
  rw [hall]

variable (dstAddr srcAddr : BitVec 32)

/-- **The buffer holds the packet**: each header with the complement of its sum. -/
theorem builtReply_eq_append (ident seq : UInt16) (payload : ByteString) :
    builtReply dstAddr srcAddr ident seq payload =
      headerBytes (ofNat (28 + payload.length)).toNat srcAddr dstAddr
          (~~~checksum (headerBytes (ofNat (28 + payload.length)).toNat srcAddr dstAddr 0)
            0).toNat ++
        messageBytes ident seq payload
          (~~~checksum (messageBytes ident seq payload 0) 0).toNat := by
  have hsplit : replicate (ipv4MinimumSize + 8 + payload.length) (0 : UInt8) =
      replicate 20 0 ++ (replicate 8 0 ++ replicate payload.length 0) := by
    rw [← replicate_add, ← replicate_add, ipv4MinimumSize, Nat.add_assoc]
  unfold builtReply
  dsimp only
  rw [hsplit, ipv4Encode_zero, take_left' (length_headerBytes _ _ _ _), putNum_headerBytes,
    putNum_behind _ _ _ _ _ 0, putNum_behind _ _ _ _ _ 1, putNum_behind _ _ _ _ _ 4,
    putNum_behind _ _ _ _ _ 6, putNum_message_zero, overwrite_behind _ _ _ _ _ _ 8,
    overwrite_messageBytes _ _ length_replicate, putNum_behind _ _ _ _ _ 2, putNum_messageBytes,
    drop_left' (length_headerBytes _ _ _ _), putNum_behind _ _ _ _ _ 2, putNum_messageBytes]
  rfl

/-- It is the reply of the handler model, if it fits a packet. -/
theorem builtReply_eq (ident seq : UInt16) {payload : ByteString}
    (hfits : 28 + payload.length ≤ 65535) :
    builtReply dstAddr srcAddr ident seq payload =
      icmpReplyPacket dstAddr srcAddr ident seq payload := by
  have hlen : (ofNat (28 + payload.length)).toNat = 28 + payload.length := by
    rw [toNat_ofNat']
    omega
  rw [builtReply_eq_append, hlen]
  rfl

/-- **A well-formed echo reply.** -/
structure EchoReply (srcAddr dstAddr : BitVec 32) (ident seq : UInt16) (payload pkt : ByteString) :
    Prop where
  version : version pkt = 4
  headerLen : headerLen pkt = ipv4MinimumSize
  totalLength : num pkt 2 2 = pkt.length
  /-- It is not a fragment. -/
  whole : num pkt 6 2 = 0
  proto : proto pkt = icmpProto
  src : src pkt = srcAddr
  dst : dst pkt = dstAddr
  type : num pkt 20 1 = 0
  code : num pkt 21 1 = 0
  ident : num pkt 24 2 = ident.toNat
  seq : num pkt 26 2 = seq.toNat
  payload : pkt.drop 28 = payload
  header : HeaderVerifies pkt
  message : checksum (pkt.drop ipv4MinimumSize) 0 = 0xffff

/-- The header with the complement of its sum. -/
theorem checksum_headerBytes (len : Nat) (srcAddr dstAddr : BitVec 32) :
    checksum (headerBytes len srcAddr dstAddr
      (~~~checksum (headerBytes len srcAddr dstAddr 0) 0).toNat) 0 = 0xffff :=
  checksum_putNum_not (b := headerBytes len srcAddr dstAddr 0) (i := 10) (by decide)
    (by rw [length_headerBytes]; decide) 0

/-- The message with the complement of its sum. -/
theorem checksum_messageBytes (payload : ByteString) :
    checksum (messageBytes ident seq payload
      (~~~checksum (messageBytes ident seq payload 0) 0).toNat) 0 = 0xffff := by
  have hlen : (messageBytes ident seq payload 0).length = 8 + payload.length :=
    length_append
  exact checksum_putNum_not (b := messageBytes ident seq payload 0) (i := 2) (by decide)
    (by rw [hlen]; omega) 0

/-- Two bytes that hold a 16-bit number. -/
theorem value_encode_uint16 (x : UInt16) : value (encode 2 x.toNat) = x.toNat := by
  rw [value_encode]
  exact Nat.mod_eq_of_lt x.toNat_lt

/-- Four bytes that hold an address. -/
theorem ofNat_value_encode (a : BitVec 32) : BitVec.ofNat 32 (value (encode 4 a.toNat)) = a := by
  have ha : a.toNat < 256 ^ 4 := a.isLt
  rw [value_encode, Nat.mod_eq_of_lt ha, BitVec.ofNat_toNat, BitVec.setWidth_eq]

theorem echoReply_builtReply (ident seq : UInt16) {payload : ByteString}
    (hfits : 28 + payload.length ≤ 65535) :
    EchoReply srcAddr dstAddr ident seq payload
      (builtReply dstAddr srcAddr ident seq payload) := by
  have hlen : (ofNat (28 + payload.length)).toNat = 28 + payload.length := by
    rw [toNat_ofNat']
    omega
  have hmessage : ∀ xsum, (messageBytes ident seq payload xsum).length = 8 + payload.length :=
    fun _ => length_append
  have hversion : value [0x45] / 16 = 4 := by decide
  have hfirst : value [0x45] % 16 * 4 = ipv4MinimumSize := by decide
  have hproto : UInt8.ofNat (value [1]) = icmpProto := by decide
  rw [builtReply_eq_append, hlen]
  refine ⟨hversion, hfirst, ?_, rfl, hproto, ?_, ?_, rfl, rfl, ?_, ?_, rfl, ?_, ?_⟩
  · rw [length_append, length_headerBytes, hmessage]
    show value (encode 2 (28 + payload.length)) = _
    rw [value_encode, Nat.mod_eq_of_lt (by omega)]
    exact Nat.add_assoc 20 8 _
  · exact ofNat_value_encode srcAddr
  · exact ofNat_value_encode dstAddr
  · exact value_encode_uint16 ident
  · exact value_encode_uint16 seq
  · show checksum (take (value [0x45] % 16 * 4) _) 0 = 0xffff
    rw [hfirst, take_left' (length_headerBytes _ _ _ _)]
    exact checksum_headerBytes _ srcAddr dstAddr
  · rw [drop_left' (length_headerBytes _ _ _ _)]
    exact checksum_messageBytes ident seq payload

/-- **The reply that is queued is the echo reply it should be**: for every payload that fits
an IPv4 packet, and any two addresses of IPv4. -/
theorem injectICMPReply_echoReply {dstIP srcIP : String} {dstAddr srcAddr : Addr}
    {dst src : BitVec 32} (hsrc : parseAddr srcIP = some srcAddr) (hsrc4 : srcAddr.as4 = some src)
    (hdst : parseAddr dstIP = some dstAddr) (hdst4 : dstAddr.as4 = some dst)
    (ident seq : UInt16) {payload : ByteString} (hfits : 28 + payload.length ≤ 65535) :
    ∃ pkt, injectICMPReply dstIP srcIP ident seq payload = .ok (some pkt) ∧
      EchoReply src dst ident seq payload pkt := by
  have hok : ∀ {addr : Addr} {a : BitVec 32}, addr.as4 = some a → as4 addr = .ok a := by
    intro addr a ha
    unfold as4
    rw [ha]
  refine ⟨_, ?_, echoReply_builtReply dst src ident seq hfits⟩
  unfold injectICMPReply
  rw [hsrc, hdst]
  dsimp only
  rw [hok hsrc4, ok_bind, hok hdst4, ok_bind]
  rfl

/-- A reply of three bytes to a ping of 10.1.0.1 by 10.0.0.1. -/
theorem pingReply_echoReply :
    ∃ pkt, injectICMPReply "10.0.0.1" "10.1.0.1" 7 1 [1, 2, 3] = .ok (some pkt) ∧
      EchoReply 0x0A010001#32 0x0A000001#32 7 1 [1, 2, 3] pkt := by
  have hsrc : parseAddr "10.1.0.1" = some (.v4 0x0A010001#32) := by decide +kernel
  have hdst : parseAddr "10.0.0.1" = some (.v4 0x0A000001#32) := by decide +kernel
  exact injectICMPReply_echoReply hsrc rfl hdst rfl 7 1 (by decide)

end Newt.IcmpReply

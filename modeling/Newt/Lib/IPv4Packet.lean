import Newt.Lib.Address
import Newt.Lib.Bytes

/-!
# IPv4 packets

The header accessors a packet filter uses, on the bytes of the packet.  The
checked accessors panic outside the packet; the total ones (`version`,
`headerLen`, `proto`, `src`, `dst`, `srcPort`, `dstPort`) are what they return
inside it.  `Checksum` is the ones' complement sum of the Internet protocols.

`rewriteAddress` replaces one of the two addresses and recomputes the header
checksum and the transport checksum.  `rewriteAddress_cases` says when it panics
and `Readdressed` what it leaves unchanged otherwise.
-/

namespace IPv4Packet

open Bytes Netip UInt16

def ipv4MinimumSize : Nat := 20
def tcpMinimumSize : Nat := 20
def udpMinimumSize : Nat := 8

def tcpProto : UInt8 := 6
def udpProto : UInt8 := 17
def icmpProto : UInt8 := 1

section Accessors

def version (b : ByteString) : Nat := num b 0 1 / 16
def headerLen (b : ByteString) : Nat := num b 0 1 % 16 * 4
def proto (b : ByteString) : UInt8 := UInt8.ofNat (num b 9 1)
def src (b : ByteString) : BitVec 32 := BitVec.ofNat 32 (num b 12 4)
def dst (b : ByteString) : BitVec 32 := BitVec.ofNat 32 (num b 16 4)

/-- The ports of the transport header that starts after `h` bytes. -/
def srcPort (b : ByteString) (h : Nat) : UInt16 := ofNat (num b h 2)
def dstPort (b : ByteString) (h : Nat) : UInt16 := ofNat (num b (h + 2) 2)

/-- `IPv4.HeaderLength`: four times the low nibble of the first byte. -/
def headerLength (b : ByteString) : Except Panic Nat := do
  return (← readNum b 0 1) % 16 * 4

/-- `IPv4.TransportProtocol`. -/
def transportProtocol (b : ByteString) : Except Panic UInt8 := do
  return UInt8.ofNat (← readNum b 9 1)

/-- `IPv4.SourceAddress`. -/
def sourceAddress (b : ByteString) : Except Panic (BitVec 32) := do
  return BitVec.ofNat 32 (← readNum b 12 4)

/-- `IPv4.DestinationAddress`. -/
def destinationAddress (b : ByteString) : Except Panic (BitVec 32) := do
  return BitVec.ofNat 32 (← readNum b 16 4)

/-- `SourcePort` of the TCP or UDP header `b[h:]`. -/
def sourcePort (b : ByteString) (h : Nat) : Except Panic UInt16 := do
  return ofNat (← readNum (← sliceFrom b h) 0 2)

/-- `DestinationPort` of the TCP or UDP header `b[h:]`. -/
def destinationPort (b : ByteString) (h : Nat) : Except Panic UInt16 := do
  return ofNat (← readNum (← sliceFrom b h) 2 2)

variable {b : ByteString}

theorem headerLength_ok (hlen : 20 ≤ b.length) : headerLength b = .ok (headerLen b) := by
  unfold headerLength
  rw [readNum_ok (by omega)]
  rfl

theorem transportProtocol_ok (hlen : 20 ≤ b.length) : transportProtocol b = .ok (proto b) := by
  unfold transportProtocol
  rw [readNum_ok (by omega)]
  rfl

theorem sourceAddress_ok (hlen : 20 ≤ b.length) : sourceAddress b = .ok (src b) := by
  unfold sourceAddress
  rw [readNum_ok (by omega)]
  rfl

theorem destinationAddress_ok (hlen : 20 ≤ b.length) :
    destinationAddress b = .ok (dst b) := by
  unfold destinationAddress
  rw [readNum_ok (by omega)]
  rfl

theorem sourcePort_ok {h : Nat} (hlen : h + 2 ≤ b.length) :
    sourcePort b h = .ok (srcPort b h) := by
  unfold sourcePort srcPort
  rw [sliceFrom_ok (by omega)]
  show (do return ofNat (← readNum (b.drop h) 0 2)) = _
  rw [readNum_ok (by rw [List.length_drop]; omega), num_drop]
  rfl

theorem destinationPort_ok {h : Nat} (hlen : h + 4 ≤ b.length) :
    destinationPort b h = .ok (dstPort b h) := by
  unfold destinationPort dstPort
  rw [sliceFrom_ok (by omega)]
  show (do return ofNat (← readNum (b.drop h) 2 2)) = _
  rw [readNum_ok (by rw [List.length_drop]; omega), num_drop]
  rfl

end Accessors

section Checksum

/-- Ones' complement addition of 16-bit words. -/
def combine (x y : UInt16) : UInt16 :=
  let v := x.toNat + y.toNat
  ofNat (v + v / 65536)

/-- `Checksum`: the ones' complement sum of the 16-bit words of a buffer, the
last one padded with a zero byte, on top of an initial value. -/
def checksum : ByteString → UInt16 → UInt16
  | [], initial => initial
  | [x], initial => combine initial (ofNat (x.toNat * 256))
  | x :: y :: rest, initial =>
    checksum rest (combine initial (ofNat (x.toNat * 256 + y.toNat)))

/-- `PseudoHeaderChecksum`. -/
def pseudoHeaderChecksum (protocol : UInt8) (srcAddr dstAddr : BitVec 32) (totalLen : UInt16) :
    UInt16 :=
  let xsum := checksum (encode 4 srcAddr.toNat) 0
  let xsum := checksum (encode 4 dstAddr.toNat) xsum
  let xsum := checksum (encode 2 totalLen.toNat) xsum
  checksum [0, protocol] xsum

/-- `IPv4.CalculateChecksum`: the sum over the first `HeaderLength` bytes. -/
def calculateChecksum (b : ByteString) : Except Panic UInt16 := do
  return checksum (← sliceTo b (← headerLength b)) 0

end Checksum

section Rewrite

/-- `netip.Addr.As4`: it panics on anything that is not IPv4 after unmapping. -/
def as4 (a : Addr) : Except Panic (BitVec 32) :=
  match a.as4 with
  | some x => .ok x
  | none => .error .addressFamily

/-- Recompute the checksum of the transport header `pkt[headerLen:]`, which
sits at offset `xsumOff` of it. -/
def setTransportChecksum (pkt : ByteString) (headerLen xsumOff : Nat) (protocol : UInt8) :
    Except Panic ByteString := do
  let pkt ← writeNum pkt (headerLen + xsumOff) 2 0
  let xsum := pseudoHeaderChecksum protocol (← sourceAddress pkt) (← destinationAddress pkt)
    (ofNat (pkt.length - headerLen))
  let xsum := checksum (← sliceFrom pkt headerLen) xsum
  writeNum pkt (headerLen + xsumOff) 2 (~~~xsum).toNat

/-- `SetChecksum(0)`, then `SetChecksum(^CalculateChecksum())`. -/
def setHeaderChecksum (pkt : ByteString) : Except Panic ByteString := do
  let pkt ← writeNum pkt 10 2 0
  let xsum ← calculateChecksum pkt
  writeNum pkt 10 2 (~~~xsum).toNat

/-- Update the transport checksum of a TCP or UDP packet that holds the whole
transport header. -/
def updateTransportChecksum (pkt : ByteString) (headerLen : Nat) : Except Panic ByteString := do
  let protocol ← transportProtocol pkt
  if protocol = tcpProto then
    if pkt.length ≥ headerLen + tcpMinimumSize then
      setTransportChecksum pkt headerLen 16 protocol
    else return pkt
  else if protocol = udpProto then
    if pkt.length ≥ headerLen + udpMinimumSize then
      setTransportChecksum pkt headerLen 6 protocol
    else return pkt
  else return pkt

/-- Overwrite the address at offset `off` of the header (12 is the source, 16
the destination) and recompute the checksums. -/
def rewriteAddress (off : Nat) (packet : ByteString) (newAddr : Addr) :
    Except Panic (Option ByteString) := do
  if packet.length < ipv4MinimumSize then
    return none
  let headerLen ← headerLength packet
  let newBytes ← as4 newAddr
  let pkt ← writeNum packet off 4 newBytes.toNat
  let pkt ← setHeaderChecksum pkt
  return some (← updateTransportChecksum pkt headerLen)

/-- `b'` is `b` with the address `a` at offset `off`: the length, every field
before the transport checksum apart from that address and the header checksum,
and the address itself where the header is long enough to hold it. -/
structure Readdressed (off : Nat) (a : BitVec 32) (b b' : ByteString) : Prop where
  length : b'.length = b.length
  kept : ∀ i n, (i + n ≤ 10 ∨ 12 ≤ i) → (i + n ≤ off ∨ off + 4 ≤ i) →
    i + n ≤ headerLen b + 6 → num b' i n = num b i n
  addr : off + 4 ≤ headerLen b + 6 → BitVec.ofNat 32 (num b' off 4) = a

variable {off : Nat} {a : BitVec 32} {b b' : ByteString}

theorem Readdressed.headerLen_eq (h : Readdressed off a b b') (hoff : 1 ≤ off) :
    headerLen b' = headerLen b := by
  unfold headerLen
  rw [h.kept 0 1 (by omega) (by omega) (by omega)]

/-- Writing behind the fields that are kept keeps them. -/
theorem Readdressed.putNum (h : Readdressed off a b b') {i n : Nat} (v : Nat)
    (hlow : headerLen b + 6 ≤ i) (hhigh : i + n ≤ b.length) :
    Readdressed off a b (putNum b' i n v) := by
  have hin : i + n ≤ b'.length := by
    rw [h.length]
    exact hhigh
  refine ⟨?_, ?_, ?_⟩
  · rw [length_putNum hin, h.length]
  · intro j m hsum hoff hj
    rw [num_putNum_of_disjoint hin (by omega), h.kept j m hsum hoff hj]
  · intro hoff
    rw [num_putNum_of_disjoint hin (by omega), h.addr hoff]

/-- The address and the header checksum written, the rest as it was. -/
theorem readdressed_header (hlen : 20 ≤ b.length) (hoff : 12 ≤ off) (hoff' : off + 4 ≤ 20)
    (v w : Nat) :
    Readdressed off a b
      (putNum (putNum (putNum b off 4 a.toNat) 10 2 v) 10 2 w) := by
  have h1 : (putNum b off 4 a.toNat).length = b.length := length_putNum (by omega)
  have h2 : (putNum (putNum b off 4 a.toNat) 10 2 v).length = b.length := by
    rw [length_putNum (by omega), h1]
  refine ⟨?_, ?_, ?_⟩
  · rw [length_putNum (by omega), h2]
  · intro i n hsum hat _
    rw [num_putNum_of_disjoint (by omega) (by omega), num_putNum_of_disjoint (by omega) (by omega),
      num_putNum_of_disjoint (by omega) (by omega)]
  · intro _
    rw [num_putNum_of_disjoint (by omega) (by omega),
      num_putNum_of_disjoint (by omega) (by omega), num_putNum_self (by omega)]
    apply BitVec.eq_of_toNat_eq
    simp only [BitVec.toNat_ofNat]
    omega

/-- The header checksum can be set exactly when the header length is inside
the packet. -/
theorem setHeaderChecksum_cases (hlen : 20 ≤ b.length) :
    (headerLen b ≤ b.length ∧
        ∃ v, setHeaderChecksum b = .ok (putNum (putNum b 10 2 0) 10 2 v)) ∨
      (b.length < headerLen b ∧ setHeaderChecksum b = .error .outOfRange) := by
  have hl : (putNum b 10 2 0).length = b.length := length_putNum (by omega)
  have hhl : headerLen (putNum b 10 2 0) = headerLen b := by
    unfold headerLen
    rw [num_putNum_of_disjoint (by omega) (by omega)]
  have hsum : calculateChecksum (putNum b 10 2 0) =
      (sliceTo (putNum b 10 2 0) (headerLen b)).map (fun t => checksum t 0) := by
    unfold calculateChecksum
    rw [headerLength_ok (by omega), hhl]
    rfl
  unfold setHeaderChecksum
  rw [writeNum_ok (by omega), ok_bind, hsum]
  by_cases hhigh : headerLen b ≤ b.length
  · left
    refine ⟨hhigh, (~~~checksum ((putNum b 10 2 0).take (headerLen b)) 0).toNat, ?_⟩
    rw [sliceTo, if_pos (by omega)]
    exact writeNum_ok (by omega)
  · right
    refine ⟨by omega, ?_⟩
    rw [sliceTo, if_neg (by omega)]
    rfl

theorem setTransportChecksum_ok {h xsumOff : Nat} (protocol : UInt8) (hlen : 20 ≤ b.length)
    (hx : h + xsumOff + 2 ≤ b.length) :
    ∃ v, setTransportChecksum b h xsumOff protocol =
      .ok (putNum (putNum b (h + xsumOff) 2 0) (h + xsumOff) 2 v) := by
  have hl : (putNum b (h + xsumOff) 2 0).length = b.length := length_putNum hx
  unfold setTransportChecksum
  rw [writeNum_ok hx, ok_bind, sourceAddress_ok (by omega), ok_bind,
    destinationAddress_ok (by omega), ok_bind]
  simp only
  rw [sliceFrom_ok (by omega), ok_bind, writeNum_ok (by omega)]
  exact ⟨_, rfl⟩

/-- Updating the transport checksum keeps the fields before it. -/
theorem Readdressed.updateTransportChecksum (h : Readdressed off a b b')
    (hlen : 20 ≤ b.length) :
    ∃ b'', IPv4Packet.updateTransportChecksum b' (headerLen b) = .ok b'' ∧
      Readdressed off a b b'' := by
  have hl := h.length
  have hset : ∀ (xsumOff : Nat) (protocol : UInt8), 6 ≤ xsumOff →
      headerLen b + xsumOff + 2 ≤ b.length →
      ∃ b'', setTransportChecksum b' (headerLen b) xsumOff protocol = .ok b'' ∧
        Readdressed off a b b'' := by
    intro xsumOff protocol hlow hhigh
    obtain ⟨v, hv⟩ := setTransportChecksum_ok (b := b') (h := headerLen b) protocol
      (by omega) (hl ▸ hhigh)
    exact ⟨_, hv, (h.putNum 0 (by omega) hhigh).putNum v (by omega) hhigh⟩
  unfold IPv4Packet.updateTransportChecksum
  rw [transportProtocol_ok (by omega), ok_bind]
  by_cases htcp : proto b' = tcpProto
  · rw [if_pos htcp]
    by_cases hsize : b'.length ≥ headerLen b + tcpMinimumSize
    · rw [if_pos hsize]
      simp only [tcpMinimumSize] at hsize
      exact hset 16 _ (by omega) (by omega)
    · rw [if_neg hsize]
      exact ⟨b', rfl, h⟩
  · rw [if_neg htcp]
    by_cases hudp : proto b' = udpProto
    · rw [if_pos hudp]
      by_cases hsize : b'.length ≥ headerLen b + udpMinimumSize
      · rw [if_pos hsize]
        simp only [udpMinimumSize] at hsize
        exact hset 6 _ (by omega) (by omega)
      · rw [if_neg hsize]
        exact ⟨b', rfl, h⟩
    · rw [if_neg hudp]
      exact ⟨b', rfl, h⟩

/-- **What a rewrite does.**  It panics on an address that is not IPv4 and on a
header length beyond the packet, and otherwise returns the readdressed packet. -/
theorem rewriteAddress_cases (newAddr : Addr) (hoff : 12 ≤ off) (hoff' : off + 4 ≤ 20)
    (hlen : 20 ≤ b.length) :
    ((newAddr.as4 = none ∨ b.length < headerLen b) ∧
        ∃ e, rewriteAddress off b newAddr = .error e) ∨
      ∃ a b', newAddr.as4 = some a ∧ headerLen b ≤ b.length ∧
        rewriteAddress off b newAddr = .ok (some b') ∧ Readdressed off a b b' := by
  have hsmall : ¬ b.length < ipv4MinimumSize := Nat.not_lt.mpr hlen
  unfold rewriteAddress
  rw [if_neg hsmall, headerLength_ok hlen, ok_bind]
  cases ha : newAddr.as4 with
  | none =>
    left
    refine ⟨Or.inl rfl, .addressFamily, ?_⟩
    simp only [as4, ha]
    rfl
  | some a =>
    have h1 : (putNum b off 4 a.toNat).length = b.length := length_putNum (by omega)
    have hhl : headerLen (putNum b off 4 a.toNat) = headerLen b := by
      unfold headerLen
      rw [num_putNum_of_disjoint (by omega) (by omega)]
    have has4 : as4 newAddr = .ok a := by
      unfold as4
      rw [ha]
    rw [has4, ok_bind, writeNum_ok (by omega), ok_bind]
    rcases setHeaderChecksum_cases (b := putNum b off 4 a.toNat) (by omega) with
      ⟨hhigh, v, hv⟩ | ⟨hhigh, herr⟩
    · right
      have hread := readdressed_header (a := a) hlen hoff hoff' 0 v
      obtain ⟨b', hb', hr⟩ := hread.updateTransportChecksum hlen
      refine ⟨a, b', rfl, by omega, ?_, hr⟩
      rw [hv, ok_bind, hb']
      rfl
    · left
      refine ⟨Or.inr (by omega), .outOfRange, ?_⟩
      rw [herr]
      rfl

end Rewrite

end IPv4Packet

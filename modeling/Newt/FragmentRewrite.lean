import Newt.Lib.PacketRewrite
import Newt.ProxyHandler

/-!
# Fragments with a rewritten destination

A split of a datagram is any list of IPv4 packets that reassembles to it.
`rewritePacketDestination` takes each fragment for a whole packet: it computes the
checksum of the first one over that fragment only, and in a later one it overwrites two
bytes of payload where a transport header would have its checksum.

`rewrite_fragments_iff`: the rewrite is right for an unsplit datagram exactly if its
checksum was valid (it makes any checksum valid), and for no way of splitting in two or
more is it right for all valid datagrams.
-/

namespace Newt.FragmentRewrite

open UInt16 Netip Bytes IPv4Packet
open List hiding range

/-- What a packet carries. -/
def payload (p : ByteString) : ByteString := p.drop (headerLen p)

def fragmentOffset (p : ByteString) : Nat := num p 6 2 % 8192 * 8

def moreFragments (p : ByteString) : Bool := num p 6 2 / 8192 % 2 = 1

/-- An IPv4 packet with payload, its length field and header checksum right. -/
structure Fragment (p : ByteString) : Prop where
  version : version p = 4
  header : HasHeader p
  totalLength : num p 2 2 = p.length
  verifies : HeaderVerifies p
  nonempty : headerLen p < p.length

/-- A datagram as it is handed to the transport protocol. -/
structure Datagram where
  source : BitVec 32
  destination : BitVec 32
  protocol : UInt8
  segment : ByteString
  deriving DecidableEq

/-- The fragments are in order, from the given offset on and to the last one. -/
def contiguous : Nat → List ByteString → Bool
  | _, [] => false
  | start, [p] => fragmentOffset p = start ∧ moreFragments p = false
  | start, p :: ps =>
    (fragmentOffset p = start ∧ moreFragments p = true) ∧
      contiguous (start + (payload p).length) ps

/-- The fragments of one datagram, in order, put together. -/
def reassemble : List ByteString → Option Datagram
  | [] => none
  | p :: ps =>
    if (∀ q ∈ ps, src q = src p ∧ dst q = dst p ∧ proto q = proto p ∧ num q 4 2 = num p 4 2) ∧
        contiguous 0 (p :: ps) = true then
      some { source := src p, destination := dst p, protocol := proto p,
             segment := (p :: ps).flatMap payload }
    else none

/-- Where the checksum is in a transport header. -/
def xsumOf (protocol : UInt8) : Nat := if protocol = tcpProto then 16 else 6

/-- How long a transport header is at least. -/
def minimumOf (protocol : UInt8) : Nat :=
  if protocol = tcpProto then tcpMinimumSize else udpMinimumSize

namespace Datagram

def pseudoSum (d : Datagram) : UInt16 :=
  pseudoHeaderChecksum d.protocol d.source d.destination (ofNat d.segment.length)

/-- The transport checksum verifies, or is a UDP checksum that is absent. -/
def Valid (d : Datagram) : Prop :=
  (d.protocol = udpProto ∧ num d.segment (xsumOf d.protocol) 2 = 0) ∨
    checksum d.segment d.pseudoSum = 0xffff
  deriving Decidable

/-- A TCP or UDP datagram that fits an IPv4 packet. -/
structure WellFormed (d : Datagram) : Prop where
  fits : d.segment.length + ipv4MinimumSize ≤ 65535
  transport : (d.protocol = tcpProto ∧ tcpMinimumSize ≤ d.segment.length) ∨
    (d.protocol = udpProto ∧ udpMinimumSize ≤ d.segment.length ∧
      num d.segment 4 2 = d.segment.length)

end Datagram

/-- **A way of splitting a datagram.** -/
structure IsSplit (ps : List ByteString) (d : Datagram) : Prop where
  fragments : ∀ p ∈ ps, Fragment p
  reassembles : reassemble ps = some d
  wellFormed : d.WellFormed

/-- **What a rewrite of every fragment should do**: they reassemble to the datagram with
the other destination, nothing else but the transport checksum has changed, and that is
valid if it was. -/
def Preserved (ps : List ByteString) (d : Datagram) (newDst : Addr) : Prop :=
  ∃ pkts d',
    List.Forall₂ (fun p pkt => rewritePacketDestination p newDst = .ok (some pkt)) ps pkts ∧
    reassemble pkts = some d' ∧ d'.source = d.source ∧ newDst.as4 = some d'.destination ∧
    d'.protocol = d.protocol ∧ SameBut (Within (xsumOf d.protocol) 2) d.segment d'.segment ∧
    (d'.Valid ↔ d.Valid)

/-- The same protocol, and as many bytes in each fragment. -/
structure SameShape (ps : List ByteString) (d : Datagram) (qs : List ByteString) (e : Datagram) :
    Prop where
  protocol : e.protocol = d.protocol
  lengths : qs.map (fun q => (payload q).length) = ps.map (fun p => (payload p).length)

/-- What the rewrite makes of a fragment. -/
def rewriteTo (a : BitVec 32) (p : ByteString) : ByteString :=
  restored (putNum p 16 4 a.toNat)

/-- What it makes of the payload `c` of a fragment: the checksum of a whole header. -/
def patch (protocol : UInt8) (source a : BitVec 32) (c : ByteString) : ByteString :=
  let sum x := checksum (putNum c x 2 0)
    (pseudoHeaderChecksum protocol source a (ofNat c.length))
  if protocol = tcpProto ∧ tcpMinimumSize ≤ c.length then putNum c 16 2 (~~~sum 16).toNat
  else if protocol = udpProto ∧ udpMinimumSize ≤ c.length then putNum c 6 2 (~~~sum 6).toNat
  else c

variable (protocol : UInt8)

section Rewrite

variable {p p' : ByteString} {a : BitVec 32}

/-- Where the destination is. -/
theorem addressOffset_dst : AddressOffset 16 := ⟨by decide, by decide⟩

/-- The payload follows the header. -/
theorem length_payload (p : ByteString) : (payload p).length = p.length - headerLen p :=
  length_drop

/-- How much the payload has room for. -/
theorem le_length_payload (hin : headerLen p ≤ p.length) {n : Nat} :
    n ≤ (payload p).length ↔ headerLen p + n ≤ p.length := by
  rw [length_payload]
  omega

/-- The fields that a fragment keeps when its destination or its payload changes. -/
structure Kept (p p' : ByteString) : Prop where
  length : p'.length = p.length
  headerLen : headerLen p' = headerLen p
  low : ∀ i n, i + n ≤ 10 → num p' i n = num p i n
  src : src p' = src p

section Kept

variable (h : Kept p p')

include h

/-- The protocol is one of the fields. -/
theorem Kept.proto : proto p' = IPv4Packet.proto p := by
  unfold IPv4Packet.proto
  rw [h.low 9 1 (by omega)]

/-- So is the offset, -/
theorem Kept.fragmentOffset : fragmentOffset p' = FragmentRewrite.fragmentOffset p := by
  unfold FragmentRewrite.fragmentOffset
  rw [h.low 6 2 (by omega)]

/-- and the flag beside it. -/
theorem Kept.moreFragments : moreFragments p' = FragmentRewrite.moreFragments p := by
  unfold FragmentRewrite.moreFragments
  rw [h.low 6 2 (by omega)]

/-- The payload is as long as before. -/
theorem Kept.length_payload : (payload p').length = (payload p).length := by
  rw [FragmentRewrite.length_payload, FragmentRewrite.length_payload, h.length, h.headerLen]

end Kept

/-- The header with another destination. -/
theorem putDst_fields (h : HasHeader p) (a : BitVec 32) :
    proto (putNum p 16 4 a.toNat) = proto p ∧ src (putNum p 16 4 a.toNat) = src p ∧
      dst (putNum p 16 4 a.toNat) = a := by
  have hlen := h.twenty_le_length
  refine ⟨?_, ?_, ?_⟩
  · unfold proto
    rw [num_putNum_of_disjoint (by omega) (by omega)]
  · unfold src
    rw [num_putNum_of_disjoint (by omega) (by omega)]
  · unfold dst
    rw [num_putNum_self (by omega), Nat.mod_eq_of_lt (by omega), BitVec.ofNat_toNat,
      BitVec.setWidth_eq]

/-- The checksums change nothing else in the header. -/
theorem sameHeader_rewriteTo (h : HasHeader p) (a : BitVec 32) :
    SameHeader (putNum p 16 4 a.toNat) (rewriteTo a p) := by
  obtain ⟨hheader, -⟩ := h.putNum addressOffset_dst a.toNat
  exact sameHeader_of_checksums hheader.minimum (sameBut_restored hheader)

/-- A rewrite keeps these fields. -/
theorem kept_rewriteTo (h : HasHeader p) (a : BitVec 32) : Kept p (rewriteTo a p) := by
  have hlen := h.twenty_le_length
  have hsame := sameHeader_rewriteTo h a
  obtain ⟨hheader, hhl, -⟩ := h.putNum addressOffset_dst a.toNat
  refine ⟨hsame.length.trans (length_putNum hlen), hsame.headerLen.trans hhl,
    fun i n hlow => ?_, hsame.src.trans (putDst_fields h a).2.1⟩
  refine ((sameBut_restored hheader).num_eq ?_).trans
    (num_putNum_of_disjoint (by omega) (by omega))
  rintro k ⟨-, hk⟩
  exact not_checksumField hheader.minimum (by omega) (by omega)

/-- A rewrite sets the destination. -/
theorem dst_rewriteTo (h : HasHeader p) (a : BitVec 32) : dst (rewriteTo a p) = a :=
  (sameHeader_rewriteTo h a).dst.trans (putDst_fields h a).2.2

/-- The packet before its transport checksum is recomputed. -/
theorem payload_withHeaderChecksum (h : HasHeader p) (v : Nat) :
    payload (withHeaderChecksum (putNum p 16 4 v)) = payload p := by
  have hmin := h.twenty_le
  have hin := h.inside
  obtain ⟨hheader, hhl, -⟩ := h.putNum addressOffset_dst v
  have hsame := (sameBut_putNum (by omega : 16 + 4 ≤ p.length) v)
  unfold payload
  rw [(sameHeader_withHeaderChecksum hheader).headerLen, hhl]
  refine ((sameBut_withHeaderChecksum hheader).drop_eq ?_).trans (hsame.drop_eq ?_) <;>
    intro k hk hwithin <;> obtain ⟨hlow, hhigh⟩ := hwithin <;> omega

/-- A checksum in the transport header, as a change of the payload. -/
theorem payload_withChecksumAt {w : ByteString} (hw : HasHeader w) {y : Nat}
    (hin : headerLen w + y + 2 ≤ w.length) :
    payload (withChecksumAt w (headerLen w + y)) =
      putNum (payload w) y 2 (~~~checksum (putNum (payload w) y 2 0) (pseudoSum w)).toNat := by
  have hmin := hw.twenty_le
  have hhl : headerLen (withChecksumAt w (headerLen w + y)) = headerLen w :=
    (sameHeader_putNum (by omega) hin _).headerLen
  unfold payload
  rw [hhl, withChecksumAt, drop_putNum hin, drop_putNum hin]

/-- The pseudo-header is the one of the new destination. -/
theorem pseudoSum_putNum (h : HasHeader p) (a : BitVec 32) :
    pseudoSum (putNum p 16 4 a.toNat) =
      pseudoHeaderChecksum (proto p) (src p) a (ofNat (payload p).length) := by
  obtain ⟨-, hhl, -⟩ := h.putNum addressOffset_dst a.toNat
  obtain ⟨hproto, hsrc, hdst⟩ := putDst_fields h a
  unfold pseudoSum
  rw [hproto, hsrc, hdst, hhl, length_putNum h.twenty_le_length, length_payload]

/-- **The payload of a rewritten fragment.** -/
theorem payload_rewriteTo (h : HasHeader p) (a : BitVec 32) :
    payload (rewriteTo a p) = patch (proto p) (src p) a (payload p) := by
  have hin := h.inside
  obtain ⟨hheader, hhl, hxsum⟩ := h.putNum addressOffset_dst a.toNat
  have hsame := sameHeader_withHeaderChecksum hheader
  have hw := hheader.of_sameHeader hsame
  have hpayload := payload_withHeaderChecksum h a.toNat
  have hsum := hsame.pseudoSum_eq.trans (pseudoSum_putNum h a)
  have hlen : (withHeaderChecksum (putNum p 16 4 a.toNat)).length = p.length :=
    hsame.length.trans (length_putNum h.twenty_le_length)
  have hat : ∀ y, headerLen p + y + 2 ≤ p.length →
      payload (withChecksumAt (withHeaderChecksum (putNum p 16 4 a.toNat)) (headerLen p + y)) =
        putNum (payload p) y 2 (~~~checksum (putNum (payload p) y 2 0)
          (pseudoHeaderChecksum (proto p) (src p) a (ofNat (payload p).length))).toNat := by
    intro y hy
    have hlow := payload_withChecksumAt hw (y := y) (by rw [hsame.headerLen, hhl, hlen]; exact hy)
    rw [hsame.headerLen, hhl, hpayload, hsum] at hlow
    exact hlow
  unfold rewriteTo restored withTransportChecksum
  rw [hsame.xsumOffset_eq, hxsum]
  unfold xsumOffset patch
  simp only [le_length_payload hin]
  by_cases htcp : proto p = tcpProto ∧ headerLen p + tcpMinimumSize ≤ p.length
  · rw [if_pos htcp, if_pos htcp]
    have hroom : 18 ≤ tcpMinimumSize := by decide
    exact hat 16 (by omega)
  · rw [if_neg htcp, if_neg htcp]
    by_cases hudp : proto p = udpProto ∧ headerLen p + udpMinimumSize ≤ p.length
    · rw [if_pos hudp, if_pos hudp]
      have hroom : 8 ≤ udpMinimumSize := by decide
      exact hat 6 (by omega)
    · rw [if_neg hudp, if_neg hudp]
      exact hpayload

/-- A patch is as long as the payload. -/
theorem length_patch (source a : BitVec 32) (c : ByteString) :
    (patch protocol source a c).length = c.length := by
  unfold patch
  split
  · next htcp => exact length_putNum (by have := htcp.2; simp only [tcpMinimumSize] at this; omega)
  · split
    · next hudp =>
      exact length_putNum (by have := hudp.2; simp only [udpMinimumSize] at this; omega)
    · rfl

/-- Fragments with the same fields are as contiguous. -/
theorem contiguous_congr {ps qs : List ByteString} (h : List.Forall₂ Kept ps qs) (start : Nat) :
    contiguous start qs = contiguous start ps := by
  induction h generalizing start with
  | nil => rfl
  | @cons p q ps qs hkept hrest ih =>
    cases hrest with
    | nil => simp only [contiguous, hkept.fragmentOffset, hkept.moreFragments]
    | @cons p' q' ps qs hkept' hrest =>
      simp only [contiguous, hkept.fragmentOffset, hkept.moreFragments, hkept.length_payload]
      rw [ih]

variable {ps : List ByteString} {d : Datagram}

/-- What fragments that reassemble have in common. -/
theorem reassemble_cons {p : ByteString} (hd : reassemble (p :: ps) = some d) :
    (∀ q ∈ p :: ps, src q = d.source ∧ dst q = d.destination ∧ proto q = d.protocol ∧
        num q 4 2 = num p 4 2) ∧
      contiguous 0 (p :: ps) = true ∧ d.segment = (p :: ps).flatMap payload := by
  obtain ⟨⟨hsame, hcont⟩, heq⟩ := Option.ite_none_right_eq_some.mp hd
  cases heq
  exact ⟨forall_mem_cons.mpr ⟨⟨rfl, rfl, rfl, rfl⟩, hsame⟩, hcont, rfl⟩

/-- Every fragment has its counterpart. -/
theorem exists_kept {qs : List ByteString} (h : List.Forall₂ Kept ps qs) :
    ∀ q ∈ qs, ∃ p ∈ ps, Kept p q := by
  induction h with
  | nil => exact fun q hq => absurd hq not_mem_nil
  | cons hkept _ ih =>
    refine forall_mem_cons.mpr ⟨⟨_, mem_cons_self, hkept⟩, fun q hq => ?_⟩
    obtain ⟨p, hp, hkept⟩ := ih q hq
    exact ⟨p, mem_cons_of_mem _ hp, hkept⟩

/-- **Fragments with the same fields**, and all with one destination, reassemble as well. -/
theorem reassemble_kept {qs : List ByteString} (hkept : List.Forall₂ Kept ps qs)
    (hdst : ∀ q ∈ qs, dst q = a) (hd : reassemble ps = some d) :
    reassemble qs = some { d with destination := a, segment := qs.flatMap payload } := by
  have hexists := exists_kept hkept
  have hcontiguous := contiguous_congr hkept 0
  cases hkept with
  | nil => cases hd
  | @cons p q ps qs hp hrest =>
    obtain ⟨hfields, hcont, -⟩ := reassemble_cons hd
    have hone : ∀ r ∈ q :: qs, src r = d.source ∧ proto r = d.protocol ∧
        num r 4 2 = num p 4 2 := by
      intro r hr
      obtain ⟨r', hr', hkr⟩ := hexists r hr
      obtain ⟨hsrc, -, hproto, hid⟩ := hfields r' hr'
      exact ⟨hkr.src.trans hsrc, hkr.proto.trans hproto, (hkr.low 4 2 (by omega)).trans hid⟩
    obtain ⟨⟨hsrc, hproto, hid⟩, hone⟩ := forall_mem_cons.mp hone
    obtain ⟨hq, hdst⟩ := forall_mem_cons.mp hdst
    have hsame : ∀ r ∈ qs, src r = src q ∧ dst r = dst q ∧ proto r = proto q ∧
        num r 4 2 = num q 4 2 := by
      intro r hr
      obtain ⟨hsrc', hproto', hid'⟩ := hone r hr
      rw [hsrc', hdst r hr, hproto', hid', hsrc, hq, hproto, hid]
      exact ⟨rfl, rfl, rfl, rfl⟩
    rw [reassemble, if_pos ⟨hsame, hcontiguous.trans hcont⟩, hsrc, hq, hproto]

/-- The datagram that the rewritten fragments reassemble to. -/
def rewritten (ps : List ByteString) (d : Datagram) (a : BitVec 32) : Datagram :=
  { d with
    destination := a
    segment := ps.flatMap (fun p => patch d.protocol d.source a (payload p)) }

/-- **The rewritten fragments reassemble**, to the patched payloads. -/
theorem reassemble_rewriteTo (h : ∀ p ∈ ps, HasHeader p) (hd : reassemble ps = some d)
    (a : BitVec 32) : reassemble (ps.map (rewriteTo a)) = some (rewritten ps d a) := by
  have hkept : List.Forall₂ Kept ps (ps.map (rewriteTo a)) := by
    rw [forall₂_map_right_iff, forall₂_same]
    exact fun p hp => kept_rewriteTo (h p hp) a
  have hdst : ∀ q ∈ ps.map (rewriteTo a), dst q = a :=
    forall_mem_map.mpr fun p hp => dst_rewriteTo (h p hp) a
  rw [reassemble_kept hkept hdst hd, flatMap_map, rewritten]
  congr 2
  refine flatMap_congr fun p hp => ?_
  cases ps with
  | nil => cases hd
  | cons =>
    obtain ⟨hsrc, -, hproto, -⟩ := (reassemble_cons hd).1 p hp
    rw [payload_rewriteTo (h p hp), hsrc, hproto]

/-- The rewrite of a fragment is determined. -/
theorem rewritePacketDestination_eq (h : HasHeader p) {newDst : Addr} (ha : newDst.as4 = some a) :
    rewritePacketDestination p newDst = .ok (some (rewriteTo a p)) :=
  rewriteAddress_eq h addressOffset_dst ha

/-- And so is that of a list of them. -/
theorem forall₂_rewrite_iff (h : ∀ p ∈ ps, HasHeader p) {newDst : Addr}
    (ha : newDst.as4 = some a) (pkts : List ByteString) :
    List.Forall₂ (fun p pkt => rewritePacketDestination p newDst = .ok (some pkt)) ps pkts ↔
      pkts = ps.map (rewriteTo a) := by
  induction ps generalizing pkts with
  | nil => exact forall₂_nil_left_iff
  | cons p ps ih =>
    have hp := rewritePacketDestination_eq (h p mem_cons_self) ha
    have hps := ih (fun q hq => h q (mem_cons_of_mem p hq))
    rw [forall₂_cons_left_iff, map_cons]
    refine ⟨fun hr => ?_, fun hr => ?_⟩
    · obtain ⟨pkt, rest, hpkt, hrest, rfl⟩ := hr
      rw [hp] at hpkt
      rw [(hps rest).mp hrest, Option.some.inj (Except.ok.inj hpkt)]
    · exact ⟨_, _, hp, (hps _).mpr rfl, hr⟩

/-- **What is left to check** of a rewrite: the segment and its checksum. -/
theorem preserved_iff (h : IsSplit ps d) {newDst : Addr} (ha : newDst.as4 = some a) :
    Preserved ps d newDst ↔
      SameBut (Within (xsumOf d.protocol) 2) d.segment (rewritten ps d a).segment ∧
        ((rewritten ps d a).Valid ↔ d.Valid) := by
  have hheaders : ∀ p ∈ ps, HasHeader p := fun p hp => (h.fragments p hp).header
  have hback : reassemble (ps.map (rewriteTo a)) = some (rewritten ps d a) :=
    reassemble_rewriteTo hheaders h.reassembles a
  refine ⟨fun hp => ?_, fun hp => ?_⟩
  · obtain ⟨pkts, d', hpkts, hd', -, -, -, hsame, hvalid⟩ := hp
    rw [(forall₂_rewrite_iff hheaders ha pkts).mp hpkts, hback] at hd'
    cases hd'
    exact ⟨hsame, hvalid⟩
  · exact ⟨_, _, (forall₂_rewrite_iff hheaders ha _).mpr rfl, hback, rfl, ha, rfl, hp.1, hp.2⟩

end Rewrite

section Whole

/-- The checksum is a word of the segment. -/
theorem xsumOf_even : xsumOf protocol % 2 = 0 := by
  unfold xsumOf
  split <;> rfl

/-- It is inside the header. -/
theorem xsumOf_lt_minimumOf : xsumOf protocol + 2 ≤ minimumOf protocol := by
  unfold xsumOf minimumOf
  split <;> decide

variable {protocol : UInt8} {source a : BitVec 32} {chunk : ByteString}

section

variable (hproto : protocol = tcpProto ∨ protocol = udpProto)
include hproto

/-- Both protocols are treated alike. -/
theorem patch_eq : patch protocol source a chunk =
    if minimumOf protocol ≤ chunk.length then
      putNum chunk (xsumOf protocol) 2 (~~~checksum (putNum chunk (xsumOf protocol) 2 0)
        (pseudoHeaderChecksum protocol source a (ofNat chunk.length))).toNat
    else chunk := by
  have hudp : ¬ tcpProto = udpProto := by decide
  rcases hproto with rfl | rfl
  · simp [patch, minimumOf, xsumOf, hudp]
  · simp [patch, minimumOf, xsumOf, Ne.symm hudp]

/-- A payload that is long enough for a transport header. -/
theorem patch_of_le (hmin : minimumOf protocol ≤ chunk.length) :
    patch protocol source a chunk =
      putNum chunk (xsumOf protocol) 2 (~~~checksum (putNum chunk (xsumOf protocol) 2 0)
        (pseudoHeaderChecksum protocol source a (ofNat chunk.length))).toNat :=
  (patch_eq hproto).trans (if_pos hmin)

/-- A shorter one is not touched. -/
theorem patch_of_lt (hshort : chunk.length < minimumOf protocol) :
    patch protocol source a chunk = chunk :=
  (patch_eq hproto).trans (if_neg (Nat.not_le.mpr hshort))

/-- The bytes before the place of the checksum are not touched either. -/
theorem getElem?_patch {k : Nat} (hk : k < xsumOf protocol) :
    (patch protocol source a chunk)[k]? = chunk[k]? := by
  by_cases hmin : minimumOf protocol ≤ chunk.length
  · have hlow := xsumOf_lt_minimumOf protocol
    rw [patch_of_le hproto hmin]
    refine (sameBut_putNum (by omega) _).bytes k ?_
    intro hwithin
    exact absurd hwithin.1 (Nat.not_le.mpr hk)
  · rw [patch_of_lt hproto (Nat.lt_of_not_le hmin)]

end

variable {d : Datagram}

/-- One of the two protocols is used, -/
theorem Datagram.WellFormed.tcp_or_udp (h : d.WellFormed) :
    d.protocol = tcpProto ∨ d.protocol = udpProto := by
  rcases h.transport with ⟨htcp, -⟩ | ⟨hudp, -⟩
  · exact .inl htcp
  · exact .inr hudp

/-- and its header is there. -/
theorem Datagram.WellFormed.minimum (h : d.WellFormed) :
    minimumOf d.protocol ≤ d.segment.length := by
  unfold minimumOf
  rcases h.transport with ⟨htcp, hmin⟩ | ⟨hudp, hmin, -⟩
  · rw [if_pos htcp]
    exact hmin
  · rw [if_neg (by rw [hudp]; decide)]
    exact hmin

/-- **An unsplit datagram** gets a valid checksum, whatever it had. -/
theorem preserved_single_iff {p : ByteString} (h : IsSplit [p] d) {newDst : Addr}
    (ha : newDst.as4 = some a) : Preserved [p] d newDst ↔ d.Valid := by
  have hproto := h.wellFormed.tcp_or_udp
  have hmin := h.wellFormed.minimum
  have hlow := xsumOf_lt_minimumOf d.protocol
  obtain ⟨-, -, hsegment⟩ := reassemble_cons h.reassembles
  rw [flatMap_singleton] at hsegment
  have hpatched : (rewritten [p] d a).segment =
      putNum d.segment (xsumOf d.protocol) 2 (~~~checksum (putNum d.segment (xsumOf d.protocol) 2 0)
        (pseudoHeaderChecksum d.protocol d.source a (ofNat d.segment.length))).toNat := by
    rw [← patch_of_le hproto hmin, hsegment]
    exact flatMap_singleton _ _
  have hvalid : (rewritten [p] d a).Valid := by
    refine .inr ?_
    have hlength : (rewritten [p] d a).segment.length = d.segment.length := by
      rw [hpatched]
      exact length_putNum (by omega)
    rw [Datagram.pseudoSum, hlength, hpatched]
    exact checksum_putNum_not (xsumOf_even _) (by omega) _
  rw [preserved_iff h ha]
  refine ⟨fun hp => hp.2.mp hvalid, fun hd => ⟨?_, fun _ => hd, fun _ => hvalid⟩⟩
  rw [hpatched]
  exact sameBut_putNum (by omega) _

end Whole

section Sample

/-- A transport segment: what is before the checksum, the checksum, and zeros. -/
def sample (front : ByteString) (v n : Nat) : ByteString :=
  front ++ (encode 2 v ++ replicate n 0)

/-- Zeros add nothing to a sum. -/
theorem checksum_replicate_zero : ∀ (n : Nat) (initial : UInt16),
    checksum (replicate n 0) initial = initial
  | 0, _ => rfl
  | 1, initial => combine_zero initial
  | n + 2, initial => by
      show checksum (replicate n 0) (combine initial 0) = initial
      rw [combine_zero, checksum_replicate_zero n initial]

variable {front : ByteString}

/-- The length of a sample. -/
theorem length_sample (front : ByteString) (v n : Nat) :
    (sample front v n).length = front.length + 2 + n := by
  unfold sample
  rw [length_append, length_append, length_encode, length_replicate]
  omega

/-- Its sum. -/
theorem checksum_sample {protocol : UInt8} (hfront : front.length = xsumOf protocol) (v n : Nat)
    (initial : UInt16) : checksum (sample front v n) initial =
      combine (combine initial (checksum front 0)) (ofNat v) := by
  have heven : front.length % 2 = 0 := by
    rw [hfront]
    exact xsumOf_even protocol
  unfold sample
  rw [checksum_append _ _ heven, checksum_append _ _ (by rw [length_encode]),
    checksum_replicate_zero, checksum_encode_two, checksum_eq_combine front]

/-- It takes any checksum. -/
theorem putNum_sample (front : ByteString) (v n u : Nat) :
    putNum (sample front v n) front.length 2 u = sample front u n := by
  unfold putNum overwrite sample
  rw [take_left, length_encode, append_assoc]
  congr 2
  rw [← append_assoc, drop_left' (by rw [length_append, length_encode])]

/-- A fragment of it that has the checksum. -/
theorem take_sample {l n : Nat} (v : Nat) (hlow : front.length + 2 ≤ l)
    (hhigh : l ≤ front.length + 2 + n) :
    (sample front v n).take l = sample front v (l - (front.length + 2)) := by
  unfold sample
  rw [← append_assoc, ← append_assoc, take_append,
    take_of_length_le (by rw [length_append, length_encode]; exact hlow),
    length_append, length_encode, take_replicate, Nat.min_eq_left (by omega)]

/-- The checksum it has. -/
theorem num_sample {v : Nat} (front : ByteString) (hv : v < 65536) (n : Nat) :
    num (sample front v n) front.length 2 = v := by
  rw [← putNum_sample front 0 n v, num_putNum_self (by rw [length_sample]; omega)]
  exact Nat.mod_eq_of_lt hv

/-- What is before the checksum in a sample: zeros, and in a UDP header the length. -/
def frontOf (protocol : UInt8) (len : Nat) : ByteString :=
  if protocol = tcpProto then replicate 16 0 else replicate 4 0 ++ encode 2 len

/-- The checksum is behind it. -/
theorem length_frontOf (len : Nat) : (frontOf protocol len).length = xsumOf protocol := by
  unfold frontOf xsumOf
  split <;> rfl

/-- The length field of a UDP header. -/
theorem num_frontOf {protocol : UInt8} (h : protocol = udpProto) (len : Nat)
    (rest : ByteString) : num (frontOf protocol len ++ rest) 4 2 = len % 65536 := by
  have htcp : ¬ udpProto = tcpProto := by decide
  unfold num range
  rw [frontOf, h, if_neg htcp, append_assoc, drop_left' (length_replicate),
    take_left' (length_encode 2 len), value_encode]
  rfl

/-- The words of the pseudo-header. -/
theorem pseudoHeaderChecksum_eq (source a : BitVec 32) (len : UInt16) :
    pseudoHeaderChecksum protocol source a len =
      combine (checksum (encode 4 a.toNat) 0) (combine (checksum (encode 4 source.toNat) 0)
        (combine len (UInt16.ofNat protocol.toNat))) := by
  unfold pseudoHeaderChecksum
  dsimp only
  rw [checksum_eq_combine (encode 4 a.toNat), checksum_encode_two, UInt16.ofNat_toNat]
  show combine _ (UInt16.ofNat (0 * 256 + protocol.toNat)) = _
  rw [Nat.zero_mul, Nat.zero_add, combine_comm (checksum (encode 4 source.toNat) 0),
    combine_assoc, combine_assoc]

/-- No sum is made up by every destination. -/
theorem exists_destination_ne (source : BitVec 32) (len x : UInt16) :
    ∃ a, combine (pseudoHeaderChecksum protocol source a len) x ≠ 0xffff := by
  by_contra hall
  have hsum : ∀ a, combine (pseudoHeaderChecksum protocol source a len) x = 0xffff :=
    fun a => of_not_not fun hne => hall ⟨a, hne⟩
  have hzero := hsum 0
  have hone := hsum 1
  have h0 : checksum (encode 4 (0 : BitVec 32).toNat) 0 = 0 := by decide
  have h1 : checksum (encode 4 (1 : BitVec 32).toNat) 0 = 1 := by decide
  rw [pseudoHeaderChecksum_eq, h0, zero_combine] at hzero
  rw [pseudoHeaderChecksum_eq, h1, combine_assoc, hzero] at hone
  exact absurd hone (by decide)

/-- **A checksum over the first fragment only** is not the one of the datagram. -/
theorem combine_first_ne {protocol : UInt8} {source a : BitVec 32} {first len : Nat} (s : UInt16)
    (hrest : first < len) (hfits : len < 65535) :
    combine (combine (pseudoHeaderChecksum protocol source a (ofNat len)) s)
      (~~~combine (pseudoHeaderChecksum protocol source a (ofNat first)) s) ≠ 0xffff := by
  obtain ⟨rest, rfl⟩ := Nat.exists_eq_add_of_lt hrest
  have hnat : (ofNat (rest + 1)).toNat = rest + 1 := by
    rw [toNat_ofNat']
    omega
  have hne : ofNat (rest + 1) ≠ 0 := by
    intro heq
    rw [heq] at hnat
    cases hnat
  have hsum : combine (pseudoHeaderChecksum protocol source a (ofNat (first + rest + 1))) s =
      combine (ofNat (rest + 1))
        (combine (pseudoHeaderChecksum protocol source a (ofNat first)) s) := by
    rw [pseudoHeaderChecksum_eq, pseudoHeaderChecksum_eq, Nat.add_assoc,
      ← combine_ofNat (by omega : first + (rest + 1) < 65536)]
    ac_rfl
  rw [hsum, combine_assoc, combine_not, combine_allOnes hne]
  intro heq
  rw [heq] at hnat
  have hones : (0xffff : UInt16).toNat = 65535 := rfl
  omega

end Sample

variable {ps : List ByteString} {d : Datagram}

section Refill

/-- The packet with another payload. -/
def refilled (p chunk : ByteString) : ByteString := p.take (headerLen p) ++ chunk

variable {p chunk : ByteString}

section

variable (h : HasHeader p) (hc : chunk.length = (payload p).length)

include h hc

/-- Only the payload changes. -/
theorem sameBut_refilled : SameBut (fun k => headerLen p ≤ k) p (refilled p chunk) := by
  have hin := h.inside
  have htake : (p.take (headerLen p)).length = headerLen p := length_take_of_le hin
  refine ⟨?_, fun k hk => ?_⟩
  · rw [refilled, length_append, htake, hc, length_payload]
    omega
  · rw [refilled, getElem?_append_left (by omega), getElem?_take, if_pos (by omega)]

/-- The header stays. -/
theorem sameHeader_refilled : SameHeader p (refilled p chunk) := by
  have hmin := h.twenty_le
  refine sameHeader_of_sameBut (sameBut_refilled h hc) fun k hk _ hle => ?_
  omega

/-- The new payload. -/
theorem payload_refilled : payload (refilled p chunk) = chunk := by
  unfold payload
  rw [(sameHeader_refilled h hc).headerLen]
  exact drop_left' (length_take_of_le h.inside)

/-- The fields stay. -/
theorem kept_refilled : Kept p (refilled p chunk) := by
  have hmin := h.twenty_le
  have hsame := sameHeader_refilled h hc
  refine ⟨hsame.length, hsame.headerLen, fun i n hlow => ?_, hsame.src⟩
  refine (sameBut_refilled h hc).num_eq fun k hk hle => ?_
  obtain ⟨-, hk⟩ := hk
  omega

end

/-- It is a fragment again. -/
theorem fragment_refilled (h : Fragment p) (hc : chunk.length = (payload p).length) :
    Fragment (refilled p chunk) := by
  have hkept := kept_refilled h.header hc
  refine ⟨?_, h.header.of_sameHeader (sameHeader_refilled h.header hc), ?_, ?_, ?_⟩
  · have hv := h.version
    unfold version at hv ⊢
    rw [hkept.low 0 1 (by omega)]
    exact hv
  · rw [hkept.low 2 2 (by omega), hkept.length]
    exact h.totalLength
  · unfold HeaderVerifies
    rw [hkept.headerLen, refilled, take_left' (length_take_of_le h.header.inside)]
    exact h.verifies
  · rw [hkept.headerLen, hkept.length]
    exact h.nonempty

/-- The fragments with another segment in their payloads. -/
def refill : List ByteString → ByteString → List ByteString
  | [], _ => []
  | p :: ps, b =>
    refilled p (b.take (payload p).length) :: refill ps (b.drop (payload p).length)

/-- They keep their fields and carry this segment. -/
theorem refill_facts {a : BitVec 32} {b : ByteString} (h : ∀ p ∈ ps, Fragment p ∧ dst p = a)
    (hb : b.length = (ps.flatMap payload).length) :
    List.Forall₂ Kept ps (refill ps b) ∧ (refill ps b).flatMap payload = b ∧
      ∀ q ∈ refill ps b, Fragment q ∧ dst q = a := by
  induction ps generalizing b with
  | nil =>
    refine ⟨List.Forall₂.nil, ?_, fun q hq => absurd hq not_mem_nil⟩
    exact (eq_nil_of_length_eq_zero hb).symm
  | cons p ps ih =>
    rw [flatMap_cons, length_append] at hb
    obtain ⟨⟨hp, hdst⟩, hps⟩ := forall_mem_cons.mp h
    have hc : (b.take (payload p).length).length = (payload p).length :=
      length_take_of_le (by omega)
    obtain ⟨hkept, hflat, hall⟩ := ih (b := b.drop (payload p).length) hps
      (by rw [length_drop]; omega)
    refine ⟨.cons (kept_refilled hp.header hc) hkept, ?_, forall_mem_cons.mpr ⟨⟨?_, ?_⟩, hall⟩⟩
    · rw [refill, flatMap_cons, payload_refilled hp.header hc, hflat, take_append_drop]
    · exact fragment_refilled hp hc
    · exact (sameHeader_refilled hp.header hc).dst.trans hdst

/-- The payloads keep their lengths. -/
theorem lengths_of_kept {ps qs : List ByteString} (h : List.Forall₂ Kept ps qs) :
    qs.map (fun q => (payload q).length) = ps.map (fun p => (payload p).length) := by
  induction h with
  | nil => rfl
  | cons hkept _ ih => rw [map_cons, map_cons, ih, hkept.length_payload]

/-- The segment and the fragments of a split. -/
theorem IsSplit.parts (h : IsSplit ps d) :
    d.segment = ps.flatMap payload ∧ ∀ p ∈ ps, Fragment p ∧ dst p = d.destination := by
  cases ps with
  | nil => cases h.reassembles
  | cons p ps =>
    obtain ⟨hfields, -, hsegment⟩ := reassemble_cons h.reassembles
    exact ⟨hsegment, fun q hq => ⟨h.fragments q hq, (hfields q hq).2.1⟩⟩

/-- **Any other segment of the same length can be split in the same way.** -/
theorem isSplit_refill (h : IsSplit ps d) {b : ByteString} (hb : b.length = d.segment.length)
    (hudp : d.protocol = udpProto → num b 4 2 = d.segment.length) :
    IsSplit (refill ps b) { d with segment := b } ∧
      SameShape ps d (refill ps b) { d with segment := b } := by
  obtain ⟨hsegment, hparts⟩ := h.parts
  obtain ⟨hkept, hflat, hall⟩ := refill_facts hparts (hsegment ▸ hb)
  have hback := reassemble_kept hkept (fun q hq => (hall q hq).2) h.reassembles
  rw [hflat] at hback
  refine ⟨⟨fun q hq => (hall q hq).1, hback, hb ▸ h.wellFormed.fits, ?_⟩, rfl, ?_⟩
  · rcases h.wellFormed.transport with ⟨htcp, hsize⟩ | ⟨hproto, hsize, -⟩
    · exact .inl ⟨htcp, hb ▸ hsize⟩
    · exact .inr ⟨hproto, hb ▸ hsize, (hudp hproto).trans hb.symm⟩
  · exact lengths_of_kept hkept

end Refill

section Split

variable {p p' : ByteString}

/-- More fragments follow the first of several. -/
theorem contiguous_cons_cons (start : Nat) (p q : ByteString) (ps : List ByteString) :
    contiguous start (p :: q :: ps) = true ↔
      (fragmentOffset p = start ∧ moreFragments p = true) ∧
        contiguous (start + (payload p).length) (q :: ps) = true := by
  simp only [contiguous, decide_eq_true_eq]

/-- The first one starts where it should. -/
theorem fragmentOffset_of_contiguous {start : Nat} (h : contiguous start (p :: ps) = true) :
    fragmentOffset p = start := by
  cases ps with
  | nil =>
    rw [contiguous, decide_eq_true_eq] at h
    exact h.1
  | cons q ps => exact ((contiguous_cons_cons start p q ps).mp h).1.1

/-- The first of several fragments has at least eight bytes, and others follow. -/
theorem IsSplit.first_length (h : IsSplit (p :: p' :: ps) d) :
    8 ≤ (payload p).length ∧ (payload p).length < d.segment.length := by
  obtain ⟨-, hcont, hsegment⟩ := reassemble_cons h.reassembles
  have hfirst := (h.fragments p mem_cons_self).nonempty
  have hsecond := (h.fragments p' (mem_cons_of_mem _ mem_cons_self)).nonempty
  have hoffset : fragmentOffset p' = (payload p).length := by
    have hrest := ((contiguous_cons_cons 0 p p' ps).mp hcont).2
    rw [Nat.zero_add] at hrest
    exact fragmentOffset_of_contiguous hrest
  have hmod : (payload p).length % 8 = 0 := by
    rw [← hoffset]
    exact Nat.mul_mod_left _ _
  have hlen := length_payload p
  have hlen' := length_payload p'
  refine ⟨by omega, ?_⟩
  rw [hsegment, flatMap_cons, flatMap_cons, length_append, length_append]
  omega

/-- The bytes before the place of a checksum are kept in every fragment. -/
theorem getElem?_flatMap_patch {protocol : UInt8}
    (hproto : protocol = tcpProto ∨ protocol = udpProto) (source a : BitVec 32)
    (qs : List ByteString) {k : Nat} (hk : k < xsumOf protocol) :
    (qs.flatMap (fun q => patch protocol source a (payload q)))[k]? = (qs.flatMap payload)[k]? := by
  induction qs generalizing k with
  | nil => rfl
  | cons q qs ih =>
    rw [flatMap_cons, flatMap_cons]
    by_cases hlow : k < (payload q).length
    · rw [getElem?_append_left (by rw [length_patch]; exact hlow),
        getElem?_append_left hlow, getElem?_patch hproto hk]
    · rw [getElem?_append_right (by rw [length_patch]; omega),
        getElem?_append_right (by omega), length_patch]
      exact ih (by omega)

/-- A number is read from the first part. -/
theorem num_append_left {b b' : ByteString} {i n : Nat} (h : i + n ≤ b.length) :
    num (b ++ b') i n = num b i n := by
  unfold num range
  rw [drop_append_of_le_length (by omega), take_append_of_le_length (by rw [length_drop]; omega)]

/-- A segment that differs from a sample in the checksum is the sample with the other
checksum. -/
theorem eq_sample_of_sameBut {front b : ByteString} {v n : Nat}
    (h : SameBut (Within front.length 2) (sample front v n) b) :
    b = sample front (num b front.length 2) n := by
  have hlen := h.length
  rw [length_sample] at hlen
  have hin : front.length + 2 ≤ (sample front v n).length := by
    rw [length_sample]
    omega
  have hput := (h.putNum hin (num b front.length 2)).eq (fun k hk => hk.2 hk.1)
  rw [putNum_num (by omega), putNum_sample] at hput
  exact hput

/-- A sample with a checksum that is not the one of the datagram. -/
theorem not_valid_sample {e : Datagram} {front : ByteString}
    (hfront : front.length = xsumOf e.protocol) {w : UInt16} {n : Nat}
    (hsegment : e.segment = sample front w.toNat n) (hw : e.protocol = udpProto → w ≠ 0)
    (hne : combine (combine e.pseudoSum (checksum front 0)) w ≠ 0xffff) : ¬ e.Valid := by
  rintro (⟨hudp, hzero⟩ | hone)
  · rw [hsegment, ← hfront, num_sample front w.toNat_lt] at hzero
    exact hw hudp (UInt16.toNat_inj.mp hzero)
  · rw [hsegment, checksum_sample hfront, UInt16.ofNat_toNat] at hone
    exact hne hone

section First

variable {front : ByteString} {v n : Nat} {a : BitVec 32}
  (hproto : d.protocol = tcpProto ∨ d.protocol = udpProto)
  (hfront : front.length = xsumOf d.protocol)
  (hparts : ∀ q ∈ p :: ps, Fragment q ∧ dst q = d.destination)
  (hlen : (sample front v n).length = ((p :: ps).flatMap payload).length)
  (hsame : SameBut (Within (xsumOf d.protocol) 2) (sample front v n)
    (rewritten (refill (p :: ps) (sample front v n)) d a).segment)

include hparts hlen

/-- The first fragment of a refilled datagram that was rewritten, and what follows it. -/
theorem segment_rewritten_refill :
    (payload p).length ≤ (sample front v n).length ∧
    (rewritten (refill (p :: ps) (sample front v n)) d a).segment =
      patch d.protocol d.source a ((sample front v n).take (payload p).length) ++
        (refill ps ((sample front v n).drop (payload p).length)).flatMap
          (fun q => patch d.protocol d.source a (payload q)) := by
  have hfits : (payload p).length ≤ (sample front v n).length := by
    rw [hlen, flatMap_cons, length_append]
    omega
  refine ⟨hfits, ?_⟩
  unfold rewritten
  rw [refill, flatMap_cons,
    payload_refilled (hparts p mem_cons_self).1.header (length_take_of_le hfits)]

include hproto hsame

/-- Without a whole transport header in the first fragment the checksum is behind it, at an
offset that is not written. -/
theorem rewritten_of_lt (hshort : (payload p).length < minimumOf d.protocol)
    (height : 8 ≤ (payload p).length) :
    (rewritten (refill (p :: ps) (sample front v n)) d a).segment = sample front v n := by
  obtain ⟨hfits, hsegment⟩ := segment_rewritten_refill hparts hlen (d := d) (a := a)
  obtain ⟨-, hflat, -⟩ := refill_facts (b := (sample front v n).drop (payload p).length)
    (forall_mem_cons.mp hparts).2 (by
      rw [length_drop, hlen, flatMap_cons, length_append]
      omega)
  have htake := length_take_of_le hfits
  rw [patch_of_lt hproto (by rw [htake]; exact hshort)] at hsegment
  apply ext_getElem?
  intro k
  by_cases hk : Within (xsumOf d.protocol) 2 k
  · obtain ⟨hk1, hk2⟩ := hk
    rw [hsegment]
    by_cases hlow : k < (payload p).length
    · rw [getElem?_append_left (by rw [htake]; exact hlow), getElem?_take, if_pos hlow]
    · rw [getElem?_append_right (by rw [htake]; omega), htake,
        getElem?_flatMap_patch hproto _ _ _ (by omega), hflat, getElem?_drop]
      congr 1
      omega
  · exact hsame.bytes k hk

include hfront

/-- With a whole transport header there the checksum is the one of this fragment. -/
theorem rewritten_of_le (hwhole : minimumOf d.protocol ≤ (payload p).length) :
    (rewritten (refill (p :: ps) (sample front v n)) d a).segment =
      sample front (~~~combine (pseudoHeaderChecksum d.protocol d.source a
        (ofNat (payload p).length)) (checksum front 0)).toNat n := by
  obtain ⟨hfits, hsegment⟩ := segment_rewritten_refill hparts hlen (d := d) (a := a)
  have hxsum := xsumOf_lt_minimumOf d.protocol
  rw [length_sample] at hfits
  have hsize : (sample front v ((payload p).length - (front.length + 2))).length =
      (payload p).length := by
    rw [length_sample]
    omega
  have hzero : ofNat 0 = 0 := rfl
  rw [take_sample v (by omega) hfits, patch_of_le hproto (by rw [hsize]; exact hwhole), hsize,
    ← hfront, putNum_sample, putNum_sample, checksum_sample hfront, hzero, combine_zero] at hsegment
  rw [← hfront] at hsame
  refine (eq_sample_of_sameBut hsame).trans ?_
  rw [hsegment, num_append_left (by rw [length_sample]; omega), num_sample front (toNat_lt _)]

end First

/-- **A split datagram that the rewrite breaks**, for any way of splitting it in two or
more fragments. -/
theorem exists_not_preserved (h : IsSplit (p :: p' :: ps) d) :
    ∃ qs e a, IsSplit qs e ∧ SameShape (p :: p' :: ps) d qs e ∧ e.Valid ∧
      ¬ Preserved qs e (.v4 a) := by
  have hproto := h.wellFormed.tcp_or_udp
  have hmin := h.wellFormed.minimum
  have hxsum := xsumOf_lt_minimumOf d.protocol
  have hfits := h.wellFormed.fits
  simp only [ipv4MinimumSize] at hfits
  obtain ⟨height, hrest⟩ := h.first_length
  obtain ⟨hsegment, hparts⟩ := h.parts
  obtain ⟨front, hfront, hudp⟩ : ∃ front : ByteString, front.length = xsumOf d.protocol ∧
      (d.protocol = udpProto → ∀ rest, num (front ++ rest) 4 2 = d.segment.length % 65536) :=
    ⟨_, length_frontOf d.protocol d.segment.length, fun hproto => num_frontOf hproto _⟩
  obtain ⟨n, hn⟩ : ∃ n, d.segment.length = front.length + 2 + n :=
    ⟨d.segment.length - (front.length + 2), by omega⟩
  -- the checksum that makes the sample valid
  obtain ⟨w, hw⟩ : ∃ w, w = ~~~combine d.pseudoSum (checksum front 0) := ⟨_, rfl⟩
  have hlen : (sample front w.toNat n).length = d.segment.length := by rw [length_sample, hn]
  obtain ⟨hsplit, hshape⟩ := isSplit_refill h hlen
    (fun hproto => (hudp hproto _).trans (Nat.mod_eq_of_lt (by omega)))
  have hsum : Datagram.pseudoSum { d with segment := sample front w.toNat n } = d.pseudoSum := by
    rw [Datagram.pseudoSum, hlen]
    rfl
  have hvalid : Datagram.Valid { d with segment := sample front w.toNat n } := by
    refine .inr ?_
    rw [hsum, checksum_sample hfront, UInt16.ofNat_toNat, hw, combine_not]
  rw [hsegment] at hlen
  -- the checksum after the rewrite, in the two cases, is not valid for some destination
  suffices ∃ a, ∀ hsame : SameBut (Within (xsumOf d.protocol) 2) (sample front w.toNat n)
      (rewritten (refill (p :: p' :: ps) (sample front w.toNat n)) d a).segment,
      ¬ (rewritten (refill (p :: p' :: ps) (sample front w.toNat n)) d a).Valid by
    obtain ⟨a, hnot⟩ := this
    refine ⟨_, _, a, hsplit, hshape, hvalid, fun hpreserved => ?_⟩
    obtain ⟨hsame, hiff⟩ := (preserved_iff hsplit rfl).mp hpreserved
    exact hnot hsame (hiff.mpr hvalid)
  by_cases hwhole : minimumOf d.protocol ≤ (payload p).length
  · obtain ⟨a, ha⟩ := exists_destination_ne d.protocol d.source (ofNat (payload p).length)
      (checksum front 0)
    refine ⟨a, fun hsame => ?_⟩
    have hfirst := rewritten_of_le hproto hfront hparts hlen hsame hwhole
    refine not_valid_sample hfront hfirst (fun _ hzero => ha ?_) ?_
    · rw [← UInt16.not_not (a := combine _ _), hzero]
      rfl
    · rw [Datagram.pseudoSum, hfirst, length_sample, ← hn]
      exact combine_first_ne _ hrest (by omega)
  · obtain ⟨a, ha⟩ := exists_destination_ne d.protocol d.source (ofNat d.segment.length)
      (combine (checksum front 0) w)
    refine ⟨a, fun hsame => ?_⟩
    have hold := rewritten_of_lt hproto hparts hlen hsame (by omega) height
    refine not_valid_sample hfront hold (fun hudp => absurd ?_ hwhole) ?_
    · rw [show d.protocol = udpProto from hudp]
      exact height
    · rw [Datagram.pseudoSum, hold, length_sample, ← hn, combine_assoc]
      exact ha

end Split

/-- **Where rewriting fragments is right.**  An unsplit datagram is rewritten as it should
exactly if its checksum was valid.  A way of splitting is rewritten as it should for every
datagram with a valid checksum exactly if it does not split. -/
theorem rewrite_fragments_iff (h : IsSplit ps d) :
    (ps.length = 1 → ∀ (newDst : Addr) (a : BitVec 32), newDst.as4 = some a →
      (Preserved ps d newDst ↔ d.Valid)) ∧
    ((∀ qs e, IsSplit qs e → SameShape ps d qs e → e.Valid →
        ∀ (newDst : Addr) (a : BitVec 32), newDst.as4 = some a → Preserved qs e newDst) ↔
      ps.length = 1) := by
  refine ⟨fun hone newDst a ha => ?_, fun hall => ?_,
    fun hone qs e he hshape hvalid newDst a ha => ?_⟩
  · obtain ⟨p, rfl⟩ := length_eq_one_iff.mp hone
    exact preserved_single_iff h ha
  · cases ps with
    | nil => cases h.reassembles
    | cons p ps =>
      cases ps with
      | nil => rfl
      | cons p' ps =>
        obtain ⟨qs, e, a, hsplit, hshape, hvalid, hnot⟩ := exists_not_preserved h
        exact absurd (hall qs e hsplit hshape hvalid (.v4 a) a rfl) hnot
  · have hlength : qs.length = 1 := by
      have hlengths := congrArg length hshape.lengths
      rw [length_map, length_map] at hlengths
      exact hlengths.trans hone
    obtain ⟨q, rfl⟩ := length_eq_one_iff.mp hlength
    exact (preserved_single_iff he ha).mpr hvalid

/-- A TCP segment from 10.0.0.1 to 10.1.0.1 with 28 bytes of payload. -/
def segment : ByteString :=
  [31, 144, 0, 80, 0, 0, 0, 1, 0, 0, 0, 2, 80, 16, 255, 255, 183, 0, 0, 0,
    1, 2, 3, 4, 5, 6, 7, 8, 9, 10, 11, 12, 13, 14, 15, 16, 17, 18, 19, 20, 21, 22, 23, 24, 25, 26,
    27, 28]

def tcpDatagram : Datagram :=
  { source := 0x0A000001#32, destination := 0x0A010001#32, protocol := tcpProto,
    segment := segment }

/-- The segment in one packet. -/
def wholePacket : ByteString :=
  [69, 0, 0, 68, 0, 7, 0, 0, 64, 6, 102, 171, 10, 0, 0, 1, 10, 1, 0, 1] ++ segment

/-- Its first 24 bytes. -/
def firstFragment : ByteString :=
  [69, 0, 0, 44, 0, 7, 32, 0, 64, 6, 70, 195, 10, 0, 0, 1, 10, 1, 0, 1] ++ segment.take 24

/-- The other 24 bytes. -/
def lastFragment : ByteString :=
  [69, 0, 0, 44, 0, 7, 0, 3, 64, 6, 102, 192, 10, 0, 0, 1, 10, 1, 0, 1] ++ segment.drop 24

/-- It is well-formed. -/
theorem wellFormed_tcpDatagram : tcpDatagram.WellFormed :=
  ⟨by decide, .inl ⟨by decide, by decide⟩⟩

/-- An unsplit datagram with a valid checksum. -/
theorem wholePacket_preserved : Preserved [wholePacket] tcpDatagram (.v4 0x0A020304#32) := by
  have hfragment : Fragment wholePacket :=
    ⟨by decide, ⟨by decide, by decide⟩, by decide, by unfold HeaderVerifies; decide, by decide⟩
  have hsplit : IsSplit [wholePacket] tcpDatagram := by
    refine ⟨fun p hp => ?_, by decide +kernel, wellFormed_tcpDatagram⟩
    obtain rfl := mem_singleton.mp hp
    exact hfragment
  have hvalid : tcpDatagram.Valid := by decide +kernel
  exact ((rewrite_fragments_iff hsplit).1 rfl (.v4 0x0A020304#32) _ rfl).mpr hvalid

/-- **A datagram in two fragments is damaged**: two bytes of payload of the second fragment
are overwritten, and the checksum is the one of the first fragment. -/
theorem two_fragments_damaged :
    IsSplit [firstFragment, lastFragment] tcpDatagram ∧ tcpDatagram.Valid ∧
      ¬ Preserved [firstFragment, lastFragment] tcpDatagram (.v4 0x0A020304#32) := by
  have hfirst : Fragment firstFragment :=
    ⟨by decide, ⟨by decide, by decide⟩, by decide, by unfold HeaderVerifies; decide, by decide⟩
  have hlast : Fragment lastFragment :=
    ⟨by decide, ⟨by decide, by decide⟩, by decide, by unfold HeaderVerifies; decide, by decide⟩
  have hsplit : IsSplit [firstFragment, lastFragment] tcpDatagram := by
    refine ⟨fun p hp => ?_, by decide +kernel, wellFormed_tcpDatagram⟩
    rcases mem_pair.mp hp with rfl | rfl
    · exact hfirst
    · exact hlast
  refine ⟨hsplit, by decide +kernel, fun hpreserved => ?_⟩
  obtain ⟨hsame, -⟩ := (preserved_iff hsplit rfl).mp hpreserved
  have hbyte := hsame.bytes 40 (fun hwithin => absurd hwithin.2 (by decide))
  have hchanged : (rewritten [firstFragment, lastFragment] tcpDatagram
      0x0A020304#32).segment[40]? ≠ tcpDatagram.segment[40]? := by
    decide +kernel
  exact hchanged hbyte

end Newt.FragmentRewrite

import Newt.Lib.PacketRewrite
import Newt.ProxyHandler

/-!
# Packets with a rewritten address

`rewritePacketDestination` and `rewritePacketSource` on well-formed TCP and UDP packets:
nothing but the address and the two checksums changes, the checksums verify, and a
packet that these functions have made comes back when its destination is rewritten away
and back (`rewritePacket_correct`).
-/

namespace Newt.AddressRewrite

open Netip Bytes IPv4Packet

/-- A TCP or UDP packet of IPv4 that is not a fragment, with its length fields right.  The
header length is at most 60 in any packet. -/
structure WellFormed (b : ByteString) : Prop where
  version : version b = 4
  header : HasHeader b
  totalLength : num b 2 2 = b.length
  /-- Neither more fragments nor an offset. -/
  whole : num b 6 2 % 16384 = 0
  transport : (proto b = tcpProto ∧ headerLen b + tcpMinimumSize ≤ b.length) ∨
    (proto b = udpProto ∧ headerLen b + udpMinimumSize ≤ b.length ∧
      num b (headerLen b + 4) 2 = b.length - headerLen b)

/-- The packet `b'` is `b` with the address `a` at `off` and checksums that verify. -/
structure Rewritten (off : Nat) (a : BitVec 32) (b b' : ByteString) : Prop where
  sameBut : SameBut (fun k => Within off 4 k ∨ ChecksumField b k) b b'
  address : num b' off 4 = a.toNat
  header : HeaderVerifies b'
  transport : TransportVerifies b'

/-- The checksums of the packet were made by one of the two functions. -/
def Produced (p : ByteString) : Prop :=
  ∃ q newAddr, HasHeader q ∧
    (rewritePacketDestination q newAddr = .ok (some p) ∨
      rewritePacketSource q newAddr = .ok (some p))

theorem WellFormed.xsumOffset {b : ByteString} (h : WellFormed b) :
    ∃ x, IPv4Packet.xsumOffset b = some x := by
  unfold IPv4Packet.xsumOffset
  split
  · exact ⟨_, rfl⟩
  · next htcp =>
    rcases h.transport with hcase | ⟨hudp, hsize, -⟩
    · exact absurd hcase htcp
    · exact ⟨_, if_pos ⟨hudp, hsize⟩⟩

variable {off : Nat} {b : ByteString}

/-- A rewrite of a well-formed packet. -/
theorem rewritten_restored (h : WellFormed b) (hoff : AddressOffset off) (a : BitVec 32) :
    Rewritten off a b (restored (putNum b off 4 a.toNat)) := by
  obtain ⟨x, hx⟩ := h.xsumOffset
  obtain ⟨hheader, -, hxsum⟩ := h.header.putNum hoff a.toNat
  have hfit := h.header.address_fits hoff
  obtain ⟨hlow, hhigh⟩ := hoff
  have hsame := sameBut_restored hheader
  have hfields : ∀ k, ChecksumField (putNum b off 4 a.toNat) k → ChecksumField b k := by
    intro k hk
    unfold ChecksumField at hk ⊢
    rw [hxsum] at hk
    exact hk
  refine ⟨?_, ?_, headerVerifies_restored hheader,
    transportVerifies_restored hheader (hxsum.trans hx)⟩
  · refine SameBut.trans ((sameBut_putNum hfit a.toNat).mono (fun k hk => .inl hk)) ?_
    exact hsame.mono (fun k hk => .inr (hfields k hk))
  · rw [hsame.num_eq, num_putNum_self hfit]
    · omega
    · intro k hk
      obtain ⟨hk1, hk2⟩ := hk
      exact not_checksumField hheader.minimum (by omega) (by omega)

theorem Produced.restored {p : ByteString} (h : Produced p) :
    HasHeader p ∧ IPv4Packet.restored p = p := by
  obtain ⟨q, newAddr, hq, hrewrite⟩ := h
  have hmade : ∀ off, AddressOffset off → rewriteAddress off q newAddr = .ok (some p) →
      HasHeader p ∧ IPv4Packet.restored p = p := by
    intro off hoff hok
    rcases rewriteAddress_cases newAddr hoff.1 hoff.2 hq.twenty_le_length with
      ⟨-, e, herr⟩ | ⟨a, -, ha, -⟩
    · rw [herr] at hok
      cases hok
    · rw [rewriteAddress_eq hq hoff ha] at hok
      obtain rfl := Option.some.inj (Except.ok.inj hok)
      obtain ⟨hheader, -, -⟩ := hq.putNum hoff a.toNat
      have hsame := sameHeader_of_checksums hheader.minimum (sameBut_restored hheader)
      exact ⟨hheader.of_sameHeader hsame, restored_restored hheader⟩
  rcases hrewrite with hok | hok
  · exact hmade 16 ⟨by decide, by decide⟩ hok
  · exact hmade 12 ⟨by decide, by decide⟩ hok

/-- Away and back: the last address written counts, and nothing else but checksums has
changed meanwhile. -/
theorem restored_back {p : ByteString} (h : HasHeader p) (hoff : AddressOffset off) (v : Nat) :
    restored (putNum (restored (putNum p off 4 v)) off 4 (num p off 4)) =
      restored p := by
  obtain ⟨hheader, -, hxsum⟩ := h.putNum hoff v
  have hfit := h.address_fits hoff
  refine restored_congr h ?_
  have hsame := (sameBut_restored hheader).putNum
    (by rw [length_putNum hfit]; exact hfit) (num p off 4)
  rw [putNum_putNum hfit, putNum_num hfit] at hsame
  refine hsame.mono ?_
  intro k hk
  have hfield := hk.1
  unfold ChecksumField at hfield ⊢
  rw [hxsum] at hfield
  exact hfield

/-- The destination of a packet as it is written. -/
theorem toNat_dst {p : ByteString} (h : HasHeader p) : (dst p).toNat = num p 16 4 := by
  have hlen := h.twenty_le_length
  have hlt : num p 16 4 < 256 ^ 4 := num_lt (by omega)
  unfold dst
  rw [BitVec.toNat_ofNat, Nat.mod_eq_of_lt]
  exact hlt

/-- **Rewritten packets.**  A well-formed packet keeps its length and everything but the
address and the two checksums, which verify; and a packet whose checksums these functions
have made is restored when its destination is rewritten away and back. -/
theorem rewritePacket_correct :
    (∀ (packet : ByteString) (newAddr : Addr) (a : BitVec 32),
      WellFormed packet → newAddr.as4 = some a →
      (∃ pkt, rewritePacketDestination packet newAddr = .ok (some pkt) ∧
        Rewritten 16 a packet pkt) ∧
      ∃ pkt, rewritePacketSource packet newAddr = .ok (some pkt) ∧
        Rewritten 12 a packet pkt) ∧
    ∀ (packet : ByteString) (away back : Addr) (a : BitVec 32), Produced packet →
      away.as4 = some a → back.as4 = some (dst packet) →
      ∃ pkt, rewritePacketDestination packet away = .ok (some pkt) ∧
        rewritePacketDestination pkt back = .ok (some packet) := by
  have hdst : AddressOffset 16 := ⟨by decide, by decide⟩
  have hsrc : AddressOffset 12 := ⟨by decide, by decide⟩
  refine ⟨fun packet newAddr a hwell ha => ⟨?_, ?_⟩, fun packet away back a hmade ha hback => ?_⟩
  · exact ⟨_, rewriteAddress_eq hwell.header hdst ha, rewritten_restored hwell hdst a⟩
  · exact ⟨_, rewriteAddress_eq hwell.header hsrc ha, rewritten_restored hwell hsrc a⟩
  · obtain ⟨hheader, hrestored⟩ := hmade.restored
    obtain ⟨hput, -, -⟩ := hheader.putNum hdst a.toNat
    have hsame := sameHeader_of_checksums hput.minimum (sameBut_restored hput)
    refine ⟨_, rewriteAddress_eq hheader hdst ha, ?_⟩
    refine (rewriteAddress_eq (hput.of_sameHeader hsame) hdst hback).trans ?_
    rw [toNat_dst hheader, restored_back hheader hdst, hrestored]

/-- A UDP packet from 10.0.0.1 to 10.1.0.1, of three bytes of payload, without a checksum
of its own. -/
def datagram : ByteString :=
  [0x45, 0, 0, 31, 0, 0, 0, 0, 64, 17, 0, 0, 10, 0, 0, 1, 10, 1, 0, 1,
    0, 99, 0, 53, 0, 11, 0, 0, 1, 2, 3]

theorem datagram_rewritten :
    (∃ pkt, rewritePacketDestination datagram (.v4 0x0A020304#32) = .ok (some pkt) ∧
      Rewritten 16 0x0A020304#32 datagram pkt) ∧
    ∃ packet pkt, rewritePacketDestination datagram (.v4 0x0A010001#32) = .ok (some packet) ∧
      rewritePacketDestination packet (.v4 0x0A020304#32) = .ok (some pkt) ∧
      rewritePacketDestination pkt (.v4 0x0A010001#32) = .ok (some packet) := by
  have hwell : WellFormed datagram := by
    refine ⟨by decide, ⟨by decide, by decide⟩, by decide, by decide, .inr ?_⟩
    decide
  obtain ⟨⟨packet, hmade, hrewritten⟩, -⟩ :=
    rewritePacket_correct.1 datagram (.v4 0x0A010001#32) _ hwell rfl
  have hdst : dst packet = 0x0A010001#32 := by
    unfold dst
    rw [hrewritten.address]
    rfl
  obtain ⟨pkt, haway, hback⟩ := rewritePacket_correct.2 packet (.v4 0x0A020304#32)
    (.v4 0x0A010001#32) _ ⟨datagram, _, hwell.header, .inl hmade⟩ rfl (congrArg some hdst.symm)
  exact ⟨(rewritePacket_correct.1 datagram (.v4 0x0A020304#32) _ hwell rfl).1,
    packet, pkt, hmade, haway, hback⟩

end Newt.AddressRewrite

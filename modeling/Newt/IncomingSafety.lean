import Newt.PacketFlow

/-!
# When an incoming packet panics the process

`HandleIncomingPacket` reads the packet only after checking its length, for
every value of the IHL nibble: the version, the addresses and, for TCP and UDP,
the ports.  The destination rewrite that follows is less careful.  It converts
the rewrite address with `As4`, which panics on IPv6, and it sums the checksum
over the first IHL*4 bytes, which only TCP and UDP packets were checked to
hold.  `handleIncomingPacket_ok_iff` says that these are the only two panics.
-/

namespace Newt

open Netip Bytes IPv4Packet

variable {T : Type → Type} [PrefixTable T]

/-- The packet can be rewritten as its rule asks: if a rule admits it and the
rewrite address (of an existing NAT entry, or else what `RewriteTo` resolves
to) is not a loopback address, then that address is IPv4 and the header length
lies inside the packet. -/
def ProxyHandler.Rewritable (p : ProxyHandler T) (dns : Resolver) (packet : ByteString) : Prop :=
  ∀ key rule newDst, p.Admits packet key rule → p.target dns rule key = some newDst →
    newDst.isLoopback = false → (∃ x, newDst.as4 = some x) ∧ headerLen packet ≤ packet.length

theorem not_unsafeTarget_iff {packet : ByteString} {target : Option Addr} :
    ¬ UnsafeTarget packet target ↔
      ∀ newDst, target = some newDst → newDst.isLoopback = false →
        (∃ x, newDst.as4 = some x) ∧ headerLen packet ≤ packet.length := by
  refine ⟨?_, ?_⟩
  · intro h newDst ht hl
    have hsafe : ¬ (newDst.as4 = none ∨ packet.length < headerLen packet) :=
      fun hbad => h ⟨newDst, ht, hl, hbad⟩
    rw [not_or] at hsafe
    exact ⟨Option.ne_none_iff_exists'.mp hsafe.1, Nat.not_lt.mp hsafe.2⟩
  · intro h hbad
    obtain ⟨newDst, ht, hl, hbad⟩ := hbad
    obtain ⟨⟨x, hx⟩, hlen⟩ := h newDst ht hl
    rcases hbad with hbad | hbad
    · rw [hx] at hbad
      cases hbad
    · omega

/-- **No panic exactly when the packet can be rewritten.**  For every state of
the handler, every resolver and every byte string. -/
theorem handleIncomingPacket_ok_iff (dns : Resolver) (p : ProxyHandler T)
    (packet : ByteString) :
    (∃ r, p.handleIncomingPacket dns packet = .ok r) ↔ p.Rewritable dns packet := by
  rcases handleIncomingPacket_cases dns p packet with ⟨key, rule, hadm, heq⟩ | ⟨hnone, heq⟩
  · rw [heq]
    have hlen := (incomingKey_length hadm.key_eq).1
    have hrewritable : p.Rewritable dns packet ↔
        ¬ UnsafeTarget packet (p.target dns rule key) := by
      rw [not_unsafeTarget_iff]
      refine ⟨fun h newDst => h key rule newDst hadm, ?_⟩
      intro h key' rule' newDst hadm'
      obtain ⟨hkey, hrule⟩ := hadm.unique hadm'
      rw [hkey, hrule]
      exact h newDst
    rw [hrewritable]
    rcases forwardPacket_cases hlen (p.target dns rule key) with
      ⟨hbad, e, he⟩ | ⟨hgood, out, hout, -⟩
    · rw [he]
      refine ⟨?_, fun h => absurd hbad h⟩
      intro h
      obtain ⟨r, hr⟩ := h
      cases hr
    · rw [hout]
      exact ⟨fun _ => hgood, fun _ => ⟨_, rfl⟩⟩
  · rw [heq]
    refine ⟨?_, fun _ => ⟨_, rfl⟩⟩
    intro _ key rule newDst hadm
    exact absurd hadm (hnone key rule)

/-- An ICMP packet of 20 bytes to 10.0.0.5 whose IHL nibble is 15. -/
def icmpLongHeader : ByteString :=
  [0x4F, 0, 0, 20, 0, 0, 0, 0, 64, 1, 0, 0, 10, 0, 0, 1, 10, 0, 0, 5]

/-- **Two packets that panic**: a TCP segment under a rule that rewrites to an
IPv6 address, and a short ICMP packet with a long header length under a rule
that rewrites to an IPv4 address. -/
theorem handleIncomingPacket_panics :
    ((ProxyHandler.fresh true : ProxyHandler ListTable).changeRules
        (.add (hostRule 0x0A000005 "2001:db8::1"))).handleIncomingPacket (fun _ => none)
          (tcpSegment 0x0A000001 0x0A000005 1000 80) = .error .addressFamily ∧
      ((ProxyHandler.fresh true : ProxyHandler ListTable).changeRules
        (.add (hostRule 0x0A000005 "192.168.1.10/32"))).handleIncomingPacket (fun _ => none)
          icmpLongHeader = .error .outOfRange := by exact ⟨rfl, rfl⟩

end Newt

import Newt.Lib.AddressText
import Newt.NetstackRouting

/-!
# The destination in an endpoint

`Send` takes the destination of a `StdNetEndpoint` as it is.  From any other endpoint
it asks for the bytes of the destination and decodes them by their number: sixteen
bytes of address and two of port from eighteen on, four and two below.  The bytes of
a zone stand between address and port, so with a zone the port is read from the
wrong place and the zone is lost.

The endpoints of received and of injected packets have unmapped addresses;
`ParseEndpoint` leaves an address as it is written.  `Send` compares the two as they
are.

Main results: `endpoint_destination_and_route`, and `endpoints_misread`.
-/

namespace Newt.Bind

open Netip Bytes Routing Router AddrPort

/-- The endpoints `Send` distinguishes: `StdNetEndpoint` of WireGuard, and `Endpoint`
of this package. -/
inductive Endpoint
  | std (addrPort : AddrPort)
  | shared (addrPort : AddrPort)
  deriving DecidableEq, Repr

/-- `Endpoint.DstToBytes`. -/
def dstToBytes (addrPort : AddrPort) : ByteString :=
  addrPort.marshalBinary

/-- The destination in the bytes of an endpoint, invalid if there is none. -/
def destOfBytes (dstBytes : ByteString) : AddrPort :=
  if dstBytes.length ≥ 6 then
    let addr := if dstBytes.length ≥ 18 then addrFromSlice (dstBytes.take 16)
      else addrFromSlice (dstBytes.take 4)
    let port := if dstBytes.length ≥ 18 then portOfBytes (dstBytes.getD 16 0) (dstBytes.getD 17 0)
      else portOfBytes (dstBytes.getD 4 0) (dstBytes.getD 5 0)
    if addr ≠ .zero then { addr := addr, port := port } else { addr := .zero, port := 0 }
  else { addr := .zero, port := 0 }

/-- `destAddrPort` of `Send`. -/
def destAddrPort : Endpoint → AddrPort
  | .std addrPort => addrPort
  | .shared addrPort => destOfBytes (dstToBytes addrPort)

/-- The destination `Send` extracts, `none` where it returns an error. -/
def destination (ep : Endpoint) : Option AddrPort :=
  if (destAddrPort ep).addr ≠ .zero then some (destAddrPort ep) else none

/-- `ParseEndpoint`. -/
def parseEndpoint (s : String) : Option Endpoint :=
  (parseAddrPort s.toList).map fun r => .std { addr := r.1, port := UInt16.ofNat r.2 }

/-- The way of a `Send` in one state of the bind. -/
def sendRoute (s : Router) (ep : Endpoint) : Option Route :=
  match destination ep with
  | none => none
  | some dest =>
    match (s.send (.lookup dest)).bind s.send with
    | some (.returned _ route _ _) => some route
    | _ => none

/-- Two addresses name one host and port, IPv4-mapped or not. -/
def SameHost (a b : AddrPort) : Prop :=
  a.addr.unmap = b.addr.unmap ∧ a.port = b.port
  deriving Decidable

theorem endpointOf_eq (a : AddrPort) : endpointOf a = { addr := a.addr.unmap, port := a.port } := by
  unfold endpointOf
  cases h : a.addr.is4In6 with
  | true => rfl
  | false =>
    rw [unmap_of_not_is4In6 h]
    rfl

/-- Packets of one host have one endpoint. -/
theorem endpointOf_congr {a b : AddrPort} (h : SameHost a b) : endpointOf a = endpointOf b := by
  rw [endpointOf_eq, endpointOf_eq, h.1, h.2]

theorem destination_eq {ep : Endpoint} {dest : AddrPort} (hdest : destAddrPort ep = dest)
    (h : dest.addr ≠ .zero) : destination ep = some dest := by
  subst hdest
  exact if_pos h

theorem sendRoute_std (s : Router) {a : AddrPort} (h : a.addr ≠ .zero) :
    sendRoute s (.std a) = some (if s.netstackEndpoints.contains a then
      match s.netstackConn with
      | some conn => .netstack conn
      | none => .socket
      else .socket) := by
  have hdest : destination (.std a) = some a := destination_eq rfl h
  unfold sendRoute
  rw [hdest]
  rfl

section Decode

theorem destOfBytes_v4 (bits : BitVec 32) (port : UInt16) :
    destOfBytes (dstToBytes { addr := .v4 bits, port := port }) =
      { addr := .v4 bits, port := port } := by
  have hlen : (dstToBytes { addr := .v4 bits, port := port }).length = 6 := by
    simp [dstToBytes, marshalBinary, Addr.marshalBinary, littleEndian]
  have htake : (dstToBytes { addr := .v4 bits, port := port }).take 4 = encode 4 bits.toNat :=
    List.take_left' (length_encode 4 _)
  have hlo : (dstToBytes { addr := .v4 bits, port := port }).getD 4 0 =
      UInt8.ofNat (port.toNat % 256) := by
    simp [dstToBytes, marshalBinary, Addr.marshalBinary, littleEndian]
  have hhi : (dstToBytes { addr := .v4 bits, port := port }).getD 5 0 =
      UInt8.ofNat (port.toNat / 256) := by
    simp [dstToBytes, marshalBinary, Addr.marshalBinary, littleEndian]
  unfold destOfBytes
  rw [hlen, htake, hlo, hhi, addrFromSlice_v4, portOfBytes_littleEndian]
  rfl

/-- The address is that of an IPv6 endpoint without its zone; the port is read from
the two bytes behind it. -/
theorem destOfBytes_v6 (bits : BitVec 128) (zone : String) (port : UInt16) :
    destOfBytes (dstToBytes { addr := .v6 bits zone, port := port }) =
      { addr := .v6 bits "", port := portOfBytes ((zoneBytes zone ++ littleEndian port).getD 0 0)
          ((zoneBytes zone ++ littleEndian port).getD 1 0) } := by
  have hbytes : dstToBytes { addr := .v6 bits zone, port := port } =
      encode 16 bits.toNat ++ (zoneBytes zone ++ littleEndian port) :=
    List.append_assoc _ _ _
  have hlen : 18 ≤ (dstToBytes { addr := .v6 bits zone, port := port }).length := by
    rw [hbytes]
    simp [littleEndian]
    omega
  have htake : (dstToBytes { addr := .v6 bits zone, port := port }).take 16 =
      encode 16 bits.toNat := by
    rw [hbytes]
    exact List.take_left' (length_encode 16 _)
  have hget : ∀ k, (dstToBytes { addr := .v6 bits zone, port := port }).getD (16 + k) 0 =
      (zoneBytes zone ++ littleEndian port).getD k 0 := by
    intro k
    rw [hbytes, List.getD_eq_getElem?_getD, List.getD_eq_getElem?_getD,
      List.getElem?_append_right (by rw [length_encode]; omega), length_encode,
      Nat.add_sub_cancel_left]
  unfold destOfBytes
  rw [if_pos (by omega), if_pos hlen, if_pos hlen, htake, addrFromSlice_v6, hget 0, hget 1]
  rfl

/-- **The destination in an endpoint** is the address it holds exactly when that has
no zone. -/
theorem destination_shared_eq_iff {a : AddrPort} (h : a.addr ≠ .zero) :
    destination (.shared a) = some a ↔ a.addr.zone = "" := by
  obtain ⟨addr, port⟩ := a
  cases addr with
  | zero => exact absurd rfl h
  | v4 bits => exact ⟨fun _ => rfl, fun _ => destination_eq (destOfBytes_v4 bits port) nofun⟩
  | v6 bits zone =>
    have hdest : destination (.shared { addr := .v6 bits zone, port := port }) = some _ :=
      destination_eq (destOfBytes_v6 bits zone port) nofun
    rw [hdest]
    refine ⟨?_, ?_⟩
    · intro heq
      exact (Addr.v6.inj (mk.inj (Option.some.inj heq)).1).2.symm
    · intro hzone
      have hempty : zone = "" := hzone
      subst hempty
      have hport : portOfBytes ((zoneBytes "" ++ littleEndian port).getD 0 0)
          ((zoneBytes "" ++ littleEndian port).getD 1 0) = port :=
        portOfBytes_littleEndian port
      rw [hport]

end Decode

/-- A packet from the address is injected while a netstack connection is set. -/
def injected (a : AddrPort) : List Event :=
  [.setNetstackConn (some 0), .injectPacket [] a, .inject 0]

theorem run_injected (a : AddrPort) :
    ∃ s, Runs.run step init (injected a) = some s ∧
      s.netstackConn = some 0 ∧ s.netstackEndpoints = [endpointOf a] :=
  ⟨_, rfl, rfl, rfl⟩

/-- **The routing of a written address** is that of the packets of its host exactly
when it is not IPv4-mapped. -/
theorem sendRoute_std_eq_iff {a : AddrPort} (h : a.addr ≠ .zero) :
    (∀ es s, Runs.run step init es = some s → ∀ p, SameHost p a →
      sendRoute s (.std a) = sendRoute s (.std (endpointOf p))) ↔ a.addr.is4In6 = false := by
  refine ⟨fun hroute => ?_, fun hmapped es s _ p hp => ?_⟩
  · by_contra hmapped
    have h4 : a.addr.is4In6 = true := Bool.not_eq_false _ ▸ hmapped
    obtain ⟨s, hs, hconn, hendpoints⟩ := run_injected a
    have heq := hroute _ s hs a ⟨rfl, rfl⟩
    have hne : endpointOf a ≠ a := by
      intro hsame
      rw [endpointOf_eq] at hsame
      exact unmap_of_is4In6 h4 (congrArg addr hsame)
    have hvalid : (endpointOf a).addr ≠ .zero := by
      rw [endpointOf_eq]
      exact unmap_ne_zero h
    rw [sendRoute_std s h, sendRoute_std s hvalid, hendpoints, hconn] at heq
    simp [hne.symm] at heq
  · have hend : endpointOf p = a := by
      rw [endpointOf_congr hp, endpointOf_eq, unmap_of_not_is4In6 hmapped]
    rw [hend]

/-- **Endpoints and their destinations**: for every valid address with a port, the
destination `Send` extracts from an `Endpoint` that holds it is this address exactly
when it has no zone; and the endpoint that `ParseEndpoint` makes of any text for it
is routed, in every reachable state, like the endpoint of a received or injected
packet of the same host exactly when the address is not written in its IPv4-mapped
form. -/
theorem endpoint_destination_and_route {a : AddrPort} (h : a.addr ≠ .zero) :
    (destination (.shared a) = some a ↔ a.addr.zone = "") ∧
      ∀ text, parseEndpoint text = some (.std a) →
        ((∀ es s, Runs.run step init es = some s → ∀ p, SameHost p a →
          sendRoute s (.std a) = sendRoute s (.std (endpointOf p))) ↔ a.addr.is4In6 = false) :=
  ⟨destination_shared_eq_iff h, fun _ _ => sendRoute_std_eq_iff h⟩

/-- The address of 10.0.0.1:1000. -/
def plainClient : AddrPort :=
  { addr := .v4 0x0A000001#32, port := 1000 }

theorem endpoint_destination_and_route_plainClient :
    destination (.shared plainClient) = some plainClient ∧
      parseEndpoint "10.0.0.1:1000" = some (.std plainClient) ∧
      ∀ es s, Runs.run step init es = some s → ∀ p, SameHost p plainClient →
        sendRoute s (.std plainClient) = sendRoute s (.std (endpointOf p)) := by
  have hparse : parseEndpoint "10.0.0.1:1000" = some (.std plainClient) := by decide +kernel
  obtain ⟨hdest, hroute⟩ := endpoint_destination_and_route (show plainClient.addr ≠ .zero by decide)
  exact ⟨hdest.mpr rfl, hparse, (hroute _ hparse).mpr rfl⟩

/-- The address of fe80::1%eth0, port 1000. -/
def zonedClient : AddrPort :=
  { addr := .v6 0xFE800000000000000000000000000001#128 "eth0", port := 1000 }

/-- The address of ::ffff:10.0.0.1, port 1000. -/
def mappedClient : AddrPort :=
  { addr := .v6 0xFFFF0A000001#128 "", port := 1000 }

/-- A zone is lost and its first letters are taken for the port; and after a packet of
10.0.0.1 was injected its endpoint is answered through the netstack, that of
"[::ffff:10.0.0.1]:1000" through the socket. -/
theorem endpoints_misread :
    destination (.shared zonedClient) =
        some { addr := .v6 0xFE800000000000000000000000000001#128 "", port := 29797 } ∧
      parseEndpoint "[::ffff:10.0.0.1]:1000" = some (.std mappedClient) ∧
      ∃ s, Runs.run step init (injected mappedClient) = some s ∧
        sendRoute s (.std mappedClient) = some .socket ∧
        sendRoute s (.std (endpointOf mappedClient)) = some (.netstack 0) := by
  refine ⟨by decide +kernel, by decide +kernel, _, rfl, by decide +kernel, by decide +kernel⟩

end Newt.Bind

import Newt.Lib.Runs
import Newt.ReceiveBatch

/-!
# Which way a Send goes

Packets reach WireGuard from the UDP socket and, injected, from the netstack.  `Send`
answers through the netstack when the destination is among `netstackEndpoints` and a
netstack connection is set.  `InjectPacket` writes the endpoint down before it knows
whether there is room for the packet, the netstack receive function may still pass
over it, and the socket receive function never takes an endpoint out.

The calls are program counters.  A history, newest first, records what was written
down, cleared and delivered; a `Send` keeps the history of the moment it looks the
destination up.  The bind is open throughout.

* `sound_run` — the endpoints are those written down since the last clear;
* `send_routed_by_delivery_iff` — a `Send` follows the packet delivered last exactly
  when there is no netstack connection, or what was written down agrees with what was
  delivered;
* `send_ignores_socket_packet` — a `Send` that does not.
-/

namespace Newt.Bind

namespace Routing

open Netip Bytes Runs

/-- `PacketSource`. -/
inductive PacketSource
  | socket
  | netstack
  deriving DecidableEq, Repr

/-- `injectedPacket`. -/
structure InjectedPacket where
  data : ByteString
  endpoint : AddrPort
  deriving DecidableEq, Repr

/-- What happens to the endpoints and to WireGuard. -/
inductive Record
  | stored (addr : AddrPort)
  | cleared
  | delivered (addr : AddrPort) (source : PacketSource)
  deriving DecidableEq, Repr

/-- A call of `InjectPacket`: before the endpoint is stored, before the send on the
channel, and done. -/
inductive InjectPC
  | store (data : ByteString) (fromAddr : AddrPort)
  | queue (data : ByteString) (fromAddr : AddrPort)
  | returned (ok : Bool)
  deriving DecidableEq, Repr

/-- A call of `ClearNetstackConn`. -/
inductive ClearPC
  | conn
  | endpoints
  | returned
  deriving DecidableEq, Repr

/-- The way of a `Send`. -/
inductive Route
  | netstack (conn : Nat)
  | socket
  deriving DecidableEq, Repr

/-- A call of `Send`: before it looks its destination up, before it loads the
netstack connection, and done.  `seen` is the history at the look-up and `conn` what
was loaded. -/
inductive SendPC
  | lookup (dest : AddrPort)
  | load (dest : AddrPort) (isNetstackEndpoint : Bool) (seen : List Record)
  | returned (dest : AddrPort) (route : Route) (seen : List Record) (conn : Option Nat)
  deriving DecidableEq, Repr

/-- The routing state of the bind and the calls on it. -/
structure Router where
  netstackConn : Option Nat
  netstackEndpoints : List AddrPort
  netstackPackets : List InjectedPacket
  injects : List InjectPC
  clears : List ClearPC
  sends : List SendPC
  history : List Record
  deriving DecidableEq, Repr

inductive Event
  /-- The socket receive function delivers a packet of this sender. -/
  | receiveSocket (udpAddr : AddrPort)
  /-- The netstack receive function, with the size of its buffer. -/
  | receiveNetstack (size : Nat)
  | injectPacket (data : ByteString) (fromAddr : AddrPort)
  | inject (i : Nat)
  | setNetstackConn (conn : Option Nat)
  | clearNetstackConn
  | clear (i : Nat)
  | startSend (dest : AddrPort)
  | send (i : Nat)
  deriving DecidableEq, Repr

namespace Router

def init : Router :=
  { netstackConn := none, netstackEndpoints := [], netstackPackets := [], injects := [],
    clears := [], sends := [], history := [] }

/-- The next step of `InjectPacket`. -/
def inject (s : Router) : InjectPC → Option (Router × InjectPC)
  | .store data fromAddr =>
    let addr := endpointOf fromAddr
    some ({ s with netstackEndpoints := addr :: s.netstackEndpoints,
                   history := .stored addr :: s.history }, .queue data addr)
  | .queue data addr =>
    if s.netstackPackets.length < 1024 then
      some ({ s with netstackPackets := s.netstackPackets ++ [⟨data, addr⟩] }, .returned true)
    else some (s, .returned false)
  | .returned _ => none

/-- The next step of `ClearNetstackConn`. -/
def clear (s : Router) : ClearPC → Option (Router × ClearPC)
  | .conn => some ({ s with netstackConn := none }, .endpoints)
  | .endpoints =>
    some ({ s with netstackEndpoints := [], history := .cleared :: s.history }, .returned)
  | .returned => none

/-- The next step of `Send`. -/
def send (s : Router) : SendPC → Option SendPC
  | .lookup dest => some (.load dest (s.netstackEndpoints.contains dest) s.history)
  | .load dest isNetstackEndpoint seen =>
    let route := if isNetstackEndpoint then
        match s.netstackConn with
        | some conn => .netstack conn
        | none => .socket
      else .socket
    some (.returned dest route seen s.netstackConn)
  | .returned _ _ _ _ => none

/-- `makeReceiveNetstack`: a packet that is too large for the buffer is skipped. -/
def receiveNetstack (s : Router) (size : Nat) : Option Router :=
  match s.netstackPackets with
  | [] => none
  | pkt :: rest =>
    if pkt.data.length ≤ size then
      some { s with netstackPackets := rest,
                    history := .delivered pkt.endpoint .netstack :: s.history }
    else some { s with netstackPackets := rest }

def step (s : Router) : Event → Option Router
  | .receiveSocket udpAddr =>
    some { s with history := .delivered (endpointOf udpAddr) .socket :: s.history }
  | .receiveNetstack size => s.receiveNetstack size
  | .injectPacket data fromAddr => some { s with injects := s.injects ++ [.store data fromAddr] }
  | .inject i =>
    match s.injects[i]? with
    | none => none
    | some pc => (s.inject pc).map fun r => { r.1 with injects := s.injects.set i r.2 }
  | .setNetstackConn conn => some { s with netstackConn := conn }
  | .clearNetstackConn => some { s with clears := s.clears ++ [.conn] }
  | .clear i =>
    match s.clears[i]? with
    | none => none
    | some pc => (s.clear pc).map fun r => { r.1 with clears := s.clears.set i r.2 }
  | .startSend dest => some { s with sends := s.sends ++ [.lookup dest] }
  | .send i =>
    match s.sends[i]? with
    | none => none
    | some pc => (s.send pc).map fun pc' => { s with sends := s.sends.set i pc' }

end Router

/-- The endpoint was written down since the last clear. -/
def stored (addr : AddrPort) : List Record → Bool
  | [] | .cleared :: _ => false
  | .stored a :: rest => a == addr || stored addr rest
  | .delivered _ _ :: rest => stored addr rest

/-- Where the packet delivered last from an address came from. -/
def lastSource (addr : AddrPort) : List Record → Option PacketSource
  | [] => none
  | .delivered a source :: rest => if a = addr then some source else lastSource addr rest
  | .stored _ :: rest | .cleared :: rest => lastSource addr rest

/-- **The rule for `Send`**: through the netstack exactly when a connection is set
and the packet delivered last from the destination was an injected one. -/
def FollowsDelivery (dest : AddrPort) (route : Route) (seen : List Record)
    (conn : Option Nat) : Prop :=
  route = match conn with
    | some c => if lastSource dest seen = some .netstack then .netstack c else .socket
    | none => .socket
  deriving Decidable

/-- What a place of a `Send` says about the history it has seen. -/
def SendPC.Sound : SendPC → Prop
  | .lookup _ => True
  | .load dest isNetstackEndpoint seen => isNetstackEndpoint = stored dest seen
  | .returned dest route seen conn =>
    route = match conn with
      | some c => if stored dest seen = true then .netstack c else .socket
      | none => .socket

/-- The invariant. -/
structure Router.Sound (s : Router) : Prop where
  endpoints : ∀ addr, s.netstackEndpoints.contains addr = stored addr s.history
  sends : ∀ pc ∈ s.sends, pc.Sound

namespace Router

variable {s s' : Router} {e : Event}

theorem Sound.inject (h : s.Sound) {pc : InjectPC} {r : Router × InjectPC}
    (hr : s.inject pc = some r) (injects : List InjectPC) :
    Sound { r.1 with injects := injects } := by
  cases pc with
  | store data fromAddr =>
    cases hr
    refine ⟨fun addr => ?_, h.sends⟩
    have hold := h.endpoints addr
    rw [stored, ← hold, List.contains_cons, Bool.beq_comm]
  | queue data addr =>
    simp only [Router.inject] at hr
    split at hr <;> cases hr <;> exact ⟨h.endpoints, h.sends⟩
  | returned ok => cases hr

theorem Sound.clear (h : s.Sound) {pc : ClearPC} {r : Router × ClearPC}
    (hr : s.clear pc = some r) (clears : List ClearPC) :
    Sound { r.1 with clears := clears } := by
  cases pc with
  | conn =>
    cases hr
    exact ⟨h.endpoints, h.sends⟩
  | endpoints =>
    cases hr
    exact ⟨fun addr => rfl, h.sends⟩
  | returned => cases hr

theorem Sound.send (h : s.Sound) {pc pc' : SendPC} (hpc : pc.Sound)
    (hstep : s.send pc = some pc') : pc'.Sound := by
  cases pc with
  | lookup dest =>
    cases hstep
    exact h.endpoints dest
  | load dest isNetstackEndpoint seen =>
    cases hstep
    have hfound : isNetstackEndpoint = stored dest seen := hpc
    rw [hfound]
    cases s.netstackConn with
    | none => cases stored dest seen <;> rfl
    | some c => rfl
  | returned dest route seen conn => cases hstep

theorem Sound.step (h : s.Sound) (hs : s.step e = some s') : s'.Sound := by
  cases e with
  | receiveNetstack size =>
    simp only [step, receiveNetstack] at hs
    split at hs
    · cases hs
    · split at hs <;> cases hs <;> exact ⟨h.endpoints, h.sends⟩
  | inject i =>
    simp only [step] at hs
    split at hs
    · cases hs
    · obtain ⟨r, hr, rfl⟩ := Option.map_eq_some_iff.mp hs
      exact h.inject hr _
  | clear i =>
    simp only [step] at hs
    split at hs
    · cases hs
    · obtain ⟨r, hr, rfl⟩ := Option.map_eq_some_iff.mp hs
      exact h.clear hr _
  | startSend dest =>
    cases hs
    refine ⟨h.endpoints, ?_⟩
    exact forall_mem_concat h.sends trivial
  | send i =>
    simp only [step] at hs
    split at hs
    · cases hs
    · next pc hi =>
      obtain ⟨pc', hpc', rfl⟩ := Option.map_eq_some_iff.mp hs
      refine ⟨h.endpoints, fun q hq => ?_⟩
      rcases List.mem_or_eq_of_mem_set hq with hq | rfl
      · exact h.sends q hq
      · exact h.send (h.sends pc (List.mem_of_getElem? hi)) hpc'
  | _ =>
    cases hs
    exact ⟨h.endpoints, h.sends⟩

theorem sound_init : init.Sound :=
  ⟨fun _ => rfl, nofun⟩

theorem sound_run {es : List Event} (hrun : run step init es = some s) : s.Sound :=
  run_always (fun h hs => Sound.step h hs) sound_init hrun

/-- **When `Send` follows the packet delivered last**: in every interleaving of
received and injected packets, `SetNetstackConn`, `ClearNetstackConn` and `Send`, a
`Send` that has found its way goes through the netstack connection exactly when one
is set and the packet delivered last from its destination was injected, if and only
if no connection is set, or the destination was written down since the last clear
exactly when the packet delivered last from it was injected. -/
theorem send_routed_by_delivery_iff {es : List Event} (hrun : run step init es = some s)
    {dest : AddrPort} {route : Route} {seen : List Record} {conn : Option Nat}
    (hsend : .returned dest route seen conn ∈ s.sends) :
    FollowsDelivery dest route seen conn ↔
      conn = none ∨ (stored dest seen = true ↔ lastSource dest seen = some .netstack) := by
  have hroute : SendPC.Sound (.returned dest route seen conn) := (sound_run hrun).sends _ hsend
  unfold FollowsDelivery
  rw [hroute]
  cases conn with
  | none => simp
  | some c =>
    by_cases hstored : stored dest seen = true <;>
      by_cases hlast : lastSource dest seen = some .netstack <;> simp [hstored, hlast]

/-- A client at 10.0.0.1:1000. -/
def client : AddrPort :=
  { addr := .v4 0x0A000001#32, port := 1000 }

/-- A packet is injected and delivered, and answered. -/
def relayed : List Event :=
  [.setNetstackConn (some 7), .injectPacket [1] client, .inject 0, .inject 0, .receiveNetstack 1500,
    .startSend client, .send 0, .send 0]

theorem send_routed_by_delivery_iff_relayed :
    ∃ s route seen, run step init relayed = some s ∧
      .returned client route seen (some 7) ∈ s.sends ∧
      FollowsDelivery client route seen (some 7) := by
  obtain ⟨s, hs, hmem⟩ : ∃ s, run step init relayed = some s ∧
      .returned client (.netstack 7) [.delivered client .netstack, .stored client] (some 7) ∈
        s.sends := by decide
  exact ⟨s, _, _, hs, hmem, (send_routed_by_delivery_iff hs hmem).mpr (Or.inr (by decide))⟩

/-- The client has moved to the socket: its last packet came from there. -/
def movedToSocket : List Event :=
  [.setNetstackConn (some 7), .injectPacket [1] client, .inject 0, .inject 0, .receiveNetstack 1500,
    .receiveSocket client, .startSend client, .send 0, .send 0]

/-- The answer still goes through the netstack. -/
theorem send_ignores_socket_packet :
    ∃ s seen, run step init movedToSocket = some s ∧
      .returned client (.netstack 7) seen (some 7) ∈ s.sends ∧
      lastSource client seen = some .socket ∧
      ¬ FollowsDelivery client (.netstack 7) seen (some 7) := by
  obtain ⟨s, hs, hmem⟩ : ∃ s, run step init movedToSocket = some s ∧
      .returned client (.netstack 7)
        [.delivered client .socket, .delivered client .netstack, .stored client] (some 7) ∈
          s.sends := by
    decide
  exact ⟨s, _, hs, hmem, by decide, by decide⟩

end Router

end Routing

end Newt.Bind

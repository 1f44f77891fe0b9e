import Newt.Lib.AddressText
import Newt.Lib.IPv4Packet
import Newt.NatTables

/-!
# The proxy handler

`ProxyHandler` of the `netstack2` package: `HandleIncomingPacket` with the
destination rewrite, `ReadOutgoingPacket` with the reverse rewrite, and the
decisions of the TCP, UDP and ICMP handlers that run on what the user-space
stack makes of an injected packet.

A packet is one atomic event.  All keys hold the source address, packets of one
source come from one peer and are written to the tunnel in order, and the
tables are only touched under `natMu`.
-/

namespace Newt

open Netip Bytes IPv4Packet

/-- `net.DefaultResolver.LookupIP` for "ip4" at the time of the call: `none` is
an error, otherwise the addresses as bytes. -/
abbrev Resolver := String → Option (List (List UInt8))

/-- `resolveRewriteAddress`: a prefix, an address, or a name whose first
address is IPv4. -/
def resolveRewriteAddress (dns : Resolver) (rewriteTo : String) : Option Addr :=
  match parsePrefix rewriteTo with
  | some pfx => some pfx.addr
  | none =>
    match parseAddr rewriteTo with
    | some addr => some addr
    | none =>
      match dns rewriteTo with
      | some (ip :: _) => (to4 ip).map .v4
      | _ => none

/-- `rewritePacketDestination`. -/
def rewritePacketDestination (packet : ByteString) (newDst : Addr) :
    Except Panic (Option ByteString) :=
  rewriteAddress 16 packet newDst

/-- `rewritePacketSource`. -/
def rewritePacketSource (packet : ByteString) (newSrc : Addr) :
    Except Panic (Option ByteString) :=
  rewriteAddress 12 packet newSrc

/-- `ProxyHandler`.  `httpHandler` says whether there is an HTTP handler. -/
structure ProxyHandler (T : Type → Type) where
  enabled : Bool
  subnetLookup : SubnetLookup T
  tables : NatTables
  icmpReplies : List ByteString
  httpHandler : Bool
  blocked : Bool

/-- `ProxyHandlerOptions`. -/
structure ProxyHandlerOptions where
  enableTCP : Bool
  enableUDP : Bool
  enableICMP : Bool

/-- The destination port of an incoming packet: `none` where the packet is too
short for its transport header, 0 for a protocol without ports. -/
def incomingDstPort (packet : ByteString) (protocol : UInt8) (headerLen : Nat) :
    Except Panic (Option UInt16) := do
  if protocol = tcpProto then
    if packet.length < headerLen + tcpMinimumSize then return none
    else return some (← destinationPort packet headerLen)
  else if protocol = udpProto then
    if packet.length < headerLen + udpMinimumSize then return none
    else return some (← destinationPort packet headerLen)
  else return some 0

/-- The source port of an incoming packet that is to be rewritten. -/
def incomingSrcPort (packet : ByteString) (protocol : UInt8) (headerLen : Nat) :
    Except Panic UInt16 := do
  if protocol = tcpProto then sourcePort packet headerLen
  else if protocol = udpProto then sourcePort packet headerLen
  else return 0

/-- The ports of an outgoing packet, 0 where there are none. -/
def outgoingPorts (packet : ByteString) (protocol : UInt8) (headerLen : Nat) :
    Except Panic (UInt16 × UInt16) := do
  if protocol = tcpProto then
    if packet.length ≥ headerLen + tcpMinimumSize then
      return (← sourcePort packet headerLen, ← destinationPort packet headerLen)
    else return (0, 0)
  else if protocol = udpProto then
    if packet.length ≥ headerLen + udpMinimumSize then
      return (← sourcePort packet headerLen, ← destinationPort packet headerLen)
    else return (0, 0)
  else return (0, 0)

/-- What a TCP or UDP handler does with a connection: close it, hand it to the
HTTP handler with a rule, or dial an address and account for a resource. -/
inductive ConnOutcome
  | closed
  | http (rule : SubnetRule)
  | forward (actualDstIP : Addr) (resourceId : Int)
  deriving DecidableEq, Repr

/-- The arguments `handleICMPPacket` gives to `proxyPing`. -/
structure PingJob where
  srcIP : Addr
  originalDstIP : Addr
  actualDstIP : Addr
  ident : UInt16
  seq : UInt16
  payload : ByteString
  deriving DecidableEq, Repr

/-- The reply `injectICMPReply` builds, from `srcIP` to `dstIP`. -/
def icmpReplyPacket (dstIP srcIP : BitVec 32) (ident seq : UInt16) (payload : ByteString) :
    ByteString :=
  let ipHdr (xsum : UInt16) : ByteString :=
    [0x45, 0] ++ encode 2 (28 + payload.length) ++ [0, 0, 0, 0, 64, 1] ++ encode 2 xsum.toNat ++
      encode 4 srcIP.toNat ++ encode 4 dstIP.toNat
  let icmpData (xsum : UInt16) : ByteString :=
    [0, 0] ++ encode 2 xsum.toNat ++ encode 2 ident.toNat ++ encode 2 seq.toNat ++ payload
  ipHdr (~~~checksum (ipHdr 0) 0) ++ icmpData (~~~checksum (icmpData 0) 0)

/-- `injectICMPReply`: `As4` may panic. -/
def injectICMPReply (dstIP srcIP : Addr) (ident seq : UInt16) (payload : ByteString) :
    Except Panic ByteString := do
  let src ← as4 srcIP
  let dst ← as4 dstIP
  return icmpReplyPacket dst src ident seq payload

namespace ProxyHandler

variable {T : Type → Type} [PrefixTable T]

/-- A new handler: no rules, empty tables. -/
def fresh (httpHandler : Bool) : ProxyHandler T :=
  { enabled := true, subnetLookup := SubnetLookup.newSubnetLookup, tables := NatTables.empty,
    icmpReplies := [], httpHandler := httpHandler, blocked := false }

/-- `NewProxyHandler`: the HTTP handler comes with TCP. -/
def newProxyHandler (options : ProxyHandlerOptions) : Option (ProxyHandler T) :=
  if !options.enableTCP && !options.enableUDP && !options.enableICMP then none
  else some (fresh options.enableTCP)

/-- `AddSubnetRule`, `RemoveSubnetRule` and `ReplaceAllSubnetRules`. -/
def changeRules (p : ProxyHandler T) (op : RuleOp) : ProxyHandler T :=
  if !p.enabled then p else { p with subnetLookup := p.subnetLookup.apply op }

/-- `SetBlocked`. -/
def setBlocked (p : ProxyHandler T) (v : Bool) : ProxyHandler T :=
  { p with blocked := v }

/-- `releaseConnectionState`. -/
def releaseConnectionState (p : ProxyHandler T) (key : ConnKey) : ProxyHandler T :=
  if !p.enabled then p else { p with tables := p.tables.releaseConnectionState key }

/-- `LookupDestinationRewrite`. -/
def lookupDestinationRewrite (p : ProxyHandler T) (key : DestKey) : Option Addr :=
  if !p.enabled then none else p.tables.lookupDestinationRewrite key

/-- `LookupResourceId`. -/
def lookupResourceId (p : ProxyHandler T) (key : DestKey) : Int :=
  if !p.enabled then 0 else p.tables.lookupResourceId key

/-- `HandleIncomingPacket` from a matched rule on: the tables, and the packet
that is injected. -/
def handleMatched (dns : Resolver) (p : ProxyHandler T) (packet : ByteString)
    (srcAddr dstAddr : Addr) (dstPort : UInt16) (protocol : UInt8) (headerLen : Nat)
    (matchedRule : SubnetRule) : Except Panic (ProxyHandler T × Option ByteString) := do
  if matchedRule.rewriteTo = "" then
    let dKey : DestKey :=
      { srcIP := srcAddr, dstIP := dstAddr, dstPort := dstPort, proto := protocol }
    return ({ p with tables := p.tables.storeResource dKey matchedRule.resourceId }, some packet)
  else
    let srcPort ← incomingSrcPort packet protocol headerLen
    let key : ConnKey :=
      { srcIP := srcAddr, srcPort := srcPort, dstIP := dstAddr, dstPort := dstPort,
        proto := protocol }
    let (tables, newDst) := p.tables.translate (resolveRewriteAddress dns) matchedRule key
    let p := { p with tables := tables }
    match newDst with
    | none => return (p, some packet)
    | some newDst =>
      -- A loopback target is left to the handlers: the stack would drop the
      -- rewritten packet.
      if !newDst.isLoopback then
        return (p, ← rewritePacketDestination packet newDst)
      else
        return (p, some packet)

/-- `HandleIncomingPacket`: the handler afterwards, and the packet injected
into the proxy stack (`none` where the call returns false). -/
def handleIncomingPacket (dns : Resolver) (p : ProxyHandler T) (packet : ByteString) :
    Except Panic (ProxyHandler T × Option ByteString) := do
  if !p.enabled then
    return (p, none)
  if packet.length < ipv4MinimumSize then
    return (p, none)
  if (← readNum packet 0 1) / 16 ≠ 4 then
    return (p, none)
  let srcAddr := .v4 (← sourceAddress packet)
  let dstAddr := .v4 (← destinationAddress packet)
  let protocol ← transportProtocol packet
  let headerLen ← headerLength packet
  match ← incomingDstPort packet protocol headerLen with
  | none => return (p, none)
  | some dstPort =>
    match p.subnetLookup.matchRule srcAddr dstAddr dstPort protocol.toUInt32 with
    | none => return (p, none)
    | some matchedRule =>
      p.handleMatched dns packet srcAddr dstAddr dstPort protocol headerLen matchedRule

/-- `ReadOutgoingPacket`, where `read` is the packet the proxy endpoint has. -/
def readOutgoingPacket (p : ProxyHandler T) (read : Option ByteString) :
    Except Panic (ProxyHandler T × Option ByteString) := do
  if !p.enabled then
    return (p, none)
  match p.icmpReplies with
  | icmpReply :: rest => return ({ p with icmpReplies := rest }, some icmpReply)
  | [] =>
    match read with
    | none => return (p, none)
    | some packet =>
      if packet.length < ipv4MinimumSize then
        return (p, some packet)
      if (← readNum packet 0 1) / 16 ≠ 4 then
        return (p, some packet)
      let srcIP := .v4 (← sourceAddress packet)
      let dstIP := .v4 (← destinationAddress packet)
      let protocol ← transportProtocol packet
      let headerLen ← headerLength packet
      if protocol = icmpProto then
        return (p, some packet)
      let (srcPort, dstPort) ← outgoingPorts packet protocol headerLen
      let reverseKey : ReverseConnKey :=
        { rewrittenTo := srcIP, originalSrcIP := dstIP, originalSrcPort := dstPort,
          originalDstPort := srcPort, proto := protocol }
      match p.tables.reverseNatTable reverseKey with
      | none => return (p, some packet)
      | some natEntry =>
        match ← rewritePacketSource packet natEntry.originalDst with
        | some pkt => return (p, some pkt)
        | none => return (p, some packet)

/-- `QueueICMPReply`: dropped when 256 replies are waiting. -/
def queueICMPReply (p : ProxyHandler T) (packet : ByteString) : ProxyHandler T × Bool :=
  if !p.enabled then (p, false)
  else if p.icmpReplies.length < 256 then
    ({ p with icmpReplies := p.icmpReplies ++ [packet] }, true)
  else (p, false)

/-- The address a TCP or UDP handler dials for the connection it sees. -/
def actualDstIP (p : ProxyHandler T) (id : ConnKey) : Addr :=
  (p.lookupDestinationRewrite id.dest).getD id.dstIP

/-- The HTTP routing of `handleTCPConn`: ports 80 and 443, and the rule that
matches the addresses the handler sees. -/
def httpRoute (p : ProxyHandler T) (id : ConnKey) : Option SubnetRule :=
  if (id.dstPort = 80 ∨ id.dstPort = 443) ∧ p.httpHandler = true then
    match p.subnetLookup.matchRule id.srcIP id.dstIP id.dstPort tcpProtocolNumber with
    | some rule => if rule.protocol ≠ "" ∧ rule.httpTargets.length > 0 then some rule else none
    | none => none
  else none

/-- `handleTCPConn`, up to the dial. -/
def handleTCPConn (p : ProxyHandler T) (id : ConnKey) : ConnOutcome :=
  if p.blocked then .closed
  else
    match p.httpRoute id with
    | some rule => .http rule
    | none => .forward (p.actualDstIP id) (p.lookupResourceId id.dest)

/-- `handleUDPConn`, up to the dial. -/
def handleUDPConn (p : ProxyHandler T) (id : ConnKey) : ConnOutcome :=
  if p.blocked then .closed
  else .forward (p.actualDstIP id) (p.lookupResourceId id.dest)

/-- `handleICMPPacket` on the ICMP header and the data behind it: the rule it
matched and the ping it starts. -/
def handleICMPPacket (dns : Resolver) (p : ProxyHandler T) (srcIP dstIP : Addr)
    (icmpData payload : ByteString) : Option (SubnetRule × PingJob) :=
  if icmpData.length < 8 then none
  else if num icmpData 0 1 ≠ 8 then none
  else
    match p.subnetLookup.matchRule srcIP dstIP 0 icmpv4ProtocolNumber with
    | none => none
    | some matchedRule =>
      let actualDstIP :=
        if matchedRule.rewriteTo ≠ "" then
          (resolveRewriteAddress dns matchedRule.rewriteTo).getD dstIP
        else dstIP
      some (matchedRule,
        { srcIP := srcIP, originalDstIP := dstIP, actualDstIP := actualDstIP,
          ident := UInt16.ofNat (num icmpData 4 2), seq := UInt16.ofNat (num icmpData 6 2),
          payload := payload })

/-- The end of `proxyPing` once a ping method has succeeded. -/
def pingReply (job : PingJob) : Except Panic ByteString :=
  injectICMPReply job.srcIP job.originalDstIP job.ident job.seq job.payload

end ProxyHandler

end Newt

import Newt.Lib.PrefixTable

/-!
# The subnet rule table

`SubnetRule` and `SubnetLookup` of the `netstack2` package: a table of tables,
source prefix first and destination prefix second, with a slice of the rules
kept beside every inner table.  The operations are `AddSubnet`, `RemoveSubnet`,
`ReplaceAll`, `GetAllRules` and `Match`.

A `*destTrie` is reached through exactly one source prefix, the one it was
created for, so writing through the pointer is storing the changed value under
that prefix again.  The mutex makes every operation atomic.
-/

namespace Newt

open Netip PrefixTable

/-- `tcpip.TransportProtocolNumber`. -/
abbrev TransportProtocolNumber := UInt32

def icmpv4ProtocolNumber : TransportProtocolNumber := 1
def tcpProtocolNumber : TransportProtocolNumber := 6
def udpProtocolNumber : TransportProtocolNumber := 17
def icmpv6ProtocolNumber : TransportProtocolNumber := 58

/-- `PortRange`: an inclusive range of ports.  `protocol` is whatever text the
server sent; "tcp", "udp" and "" have a meaning. -/
structure PortRange where
  min : UInt16
  max : UInt16
  protocol : String
  deriving DecidableEq, Repr

/-- `HTTPTarget`: a downstream service of an HTTP rule. -/
structure HTTPTarget where
  destAddr : String
  destPort : UInt16
  scheme : String
  deriving DecidableEq, Repr

/-- `SubnetRule`.  Its prefixes come out of `netip.ParsePrefix`, so they are
valid. -/
structure SubnetRule where
  sourcePrefix : Prefix
  destPrefix : Prefix
  disableIcmp : Bool := false
  rewriteTo : String := ""
  portRanges : List PortRange := []
  resourceId : Int := 0
  protocol : String := ""
  httpTargets : List HTTPTarget := []
  tlsCert : String := ""
  tlsKey : String := ""
  deriving DecidableEq, Repr

/-- `destTrie`: the inner table of a source prefix and the slice beside it. -/
structure DestTrie (T : Type → Type) where
  trie : T (List SubnetRule)
  rules : List SubnetRule

/-- `SubnetLookup`. -/
structure SubnetLookup (T : Type → Type) where
  sourceTrie : T (DestTrie T)

/-- `prefixEqual`: equality up to host bits. -/
def prefixEqual (a b : Prefix) : Bool :=
  a.masked == b.masked

/-- The port ranges test of `Match`: the port lies in the range, and the
range's protocol is empty or names the packet's. -/
def PortRange.admits (pr : PortRange) (port : UInt16) (proto : TransportProtocolNumber) : Bool :=
  (decide (port ≥ pr.min) && decide (port ≤ pr.max)) &&
    (pr.protocol == "" ||
      ((pr.protocol == "tcp" && proto == tcpProtocolNumber) ||
        (pr.protocol == "udp" && proto == udpProtocolNumber)))

/-- The body of the innermost loop of `Match`: `none` goes on to the next rule,
`some r` returns `r` (with `none` for nil). -/
def SubnetRule.check (rule : SubnetRule) (port : UInt16) (proto : TransportProtocolNumber) :
    Option (Option SubnetRule) :=
  -- ICMP is handled before the port ranges: it has no ports.
  if proto = icmpv4ProtocolNumber ∨ proto = icmpv6ProtocolNumber then
    if rule.disableIcmp then some none else some (some rule)
  else if rule.portRanges.length = 0 then some (some rule)
  else if rule.portRanges.any (fun pr => pr.admits port proto) then some (some rule)
  else none

namespace SubnetLookup

variable {T : Type → Type} [PrefixTable T]

/-- `NewSubnetLookup`. -/
def newSubnetLookup : SubnetLookup T :=
  { sourceTrie := empty }

/-- The inner table of a source prefix, a fresh one where there is none. -/
def destTrieFor (sl : SubnetLookup T) (canonicalSourcePrefix : Prefix) : DestTrie T :=
  (get sl.sourceTrie canonicalSourcePrefix).getD
    { trie := empty, rules := [] }

/-- The rules of a slice that are not stored under the given pair of prefixes. -/
def keepOthers (rules : List SubnetRule) (sourcePrefix destPrefix : Prefix) : List SubnetRule :=
  rules.filter (fun r =>
    !prefixEqual r.destPrefix destPrefix || !prefixEqual r.sourcePrefix sourcePrefix)

/-- `AddSubnet` (its body `addSubnetLocked`). -/
def addSubnet (sl : SubnetLookup T) (rule : SubnetRule) : SubnetLookup T :=
  let canonicalSourcePrefix := rule.sourcePrefix.masked
  let destTriePtr := sl.destTrieFor canonicalSourcePrefix
  let canonicalDestPrefix := rule.destPrefix.masked
  let newRules := keepOthers destTriePtr.rules canonicalSourcePrefix canonicalDestPrefix
  { sourceTrie := insert sl.sourceTrie canonicalSourcePrefix
      { trie := insert destTriePtr.trie canonicalDestPrefix [rule]
        rules := newRules ++ [rule] } }

/-- `ReplaceAll`: a new outer table, then every rule in order. -/
def replaceAll (_ : SubnetLookup T) (rules : List SubnetRule) : SubnetLookup T :=
  rules.foldl addSubnet { sourceTrie := empty }

/-- `RemoveSubnet`. -/
def removeSubnet (sl : SubnetLookup T) (sourcePrefix destPrefix : Prefix) : SubnetLookup T :=
  let canonicalSourcePrefix := sourcePrefix.masked
  let canonicalDestPrefix := destPrefix.masked
  match get sl.sourceTrie canonicalSourcePrefix with
  | none => sl
  | some destTriePtr =>
    let trie := delete destTriePtr.trie canonicalDestPrefix
    let newDestRules := keepOthers destTriePtr.rules canonicalSourcePrefix canonicalDestPrefix
    -- An inner table that became empty is dropped with its source prefix.
    if size trie = 0 then
      { sourceTrie := delete sl.sourceTrie canonicalSourcePrefix }
    else
      { sourceTrie := insert sl.sourceTrie canonicalSourcePrefix
          { trie := trie, rules := newDestRules } }

/-- `GetAllRules`. -/
def getAllRules (sl : SubnetLookup T) : List SubnetRule :=
  (all sl.sourceTrie).flatMap (fun e => e.2.rules)

/-- `Match`: the nested search through source and destination supernets.  An
invalid address has no host prefix and no supernets. -/
def matchRule (sl : SubnetLookup T) (srcIP dstIP : Addr) (port : UInt16)
    (proto : TransportProtocolNumber) : Option SubnetRule :=
  match hostPrefix srcIP, hostPrefix dstIP with
  | some srcPrefix, some dstPrefix =>
    ((supernets sl.sourceTrie srcPrefix).findSome? (fun s =>
      (supernets s.2.trie dstPrefix).findSome? (fun d =>
        d.2.findSome? (fun rule => rule.check port proto)))).join
  | _, _ => none

end SubnetLookup

/-- A call that changes the table. -/
inductive RuleOp where
  | add (rule : SubnetRule)
  | remove (sourcePrefix destPrefix : Prefix)
  | replaceAll (rules : List SubnetRule)
  deriving DecidableEq, Repr

namespace SubnetLookup

variable {T : Type → Type} [PrefixTable T]

/-- The table after one call. -/
def apply (sl : SubnetLookup T) : RuleOp → SubnetLookup T
  | .add rule => sl.addSubnet rule
  | .remove sourcePrefix destPrefix => sl.removeSubnet sourcePrefix destPrefix
  | .replaceAll rules => sl.replaceAll rules

/-- The table after a sequence of calls on a new table. -/
def after (ops : List RuleOp) : SubnetLookup T :=
  ops.foldl apply newSubnetLookup

end SubnetLookup

end Newt

import Newt.PacketFlow

/-!
# The rule a handler obeys

`HandleIncomingPacket` admits a packet under a rule; the TCP handler (on ports
80 and 443) and the ICMP handler look the rule up again, from the addresses of
the injected packet.  When the destination was rewritten in between, the second
look-up is about another address.

`handling_obeys_rule_iff` says exactly when the two agree, for every rule set
and every admitted packet, and `rewritten_packets_lose_their_rule` shows a TCP
connection and a ping for which they do not.
-/

namespace Newt

open Netip Bytes IPv4Packet ProxyHandler Option

/-- The rule is for the HTTP handler: it has a protocol and targets. -/
def SubnetRule.IsHTTP (r : SubnetRule) : Prop :=
  r.protocol ≠ "" ∧ r.httpTargets.length > 0
  deriving Decidable

/-- An ICMP header that is complete and an echo request. -/
def IsEcho (icmpData : ByteString) : Prop :=
  8 ≤ icmpData.length ∧ num icmpData 0 1 = 8

variable {T : Type → Type} [PrefixTable T]

variable {p : ProxyHandler T}

namespace ProxyHandler

/-- The handlers obey `rule` for a connection or ping with the client's 5-tuple
`key`, when the stack sees `seen`: a TCP connection on port 80 or 443 goes to
the HTTP handler with exactly this rule if it is an HTTP rule and not at all
otherwise; an echo request is proxied under this rule, and its reply has the
pinged address as source. -/
def Obeys (p : ProxyHandler T) (dns : Resolver) (rule : SubnetRule) (key seen : ConnKey) : Prop :=
  (key.proto = tcpProto → (key.dstPort = 80 ∨ key.dstPort = 443) →
      ∀ r, p.handleTCPConn seen = .http r ↔ (r = rule ∧ rule.IsHTTP)) ∧
    (key.proto = icmpProto → ∀ icmpData payload, IsEcho icmpData →
      ∃ job reply, p.handleICMPPacket dns seen.srcIP seen.dstIP icmpData payload =
          some (rule, job) ∧
        pingReply job = .ok reply ∧ key.dstIP = .v4 (src reply))

/-- The rule set treats the rewritten destination `dst` of a connection like
the original one: it is the same address, or an HTTP rule matches both and no
other, or none matches the rewritten one. -/
def MatchesAlike (p : ProxyHandler T) (rule : SubnetRule) (key : ConnKey) (dst : Addr) : Prop :=
  dst = key.dstIP ∨
    if rule.IsHTTP then
      p.subnetLookup.matchRule key.srcIP dst key.dstPort tcpProtocolNumber = some rule
    else
      ∀ r, p.subnetLookup.matchRule key.srcIP dst key.dstPort tcpProtocolNumber = some r →
        ¬ r.IsHTTP

theorem handleTCPConn_eq_http_iff {id : ConnKey} (hb : p.blocked = false)
    (hh : p.httpHandler = true) (hport : id.dstPort = 80 ∨ id.dstPort = 443) (r : SubnetRule) :
    p.handleTCPConn id = .http r ↔
      p.subnetLookup.matchRule id.srcIP id.dstIP id.dstPort tcpProtocolNumber = some r ∧
        r.IsHTTP := by
  have hroute : p.httpRoute id = some r ↔
      p.subnetLookup.matchRule id.srcIP id.dstIP id.dstPort tcpProtocolNumber = some r ∧
        r.IsHTTP := by
    unfold httpRoute
    rw [if_pos ⟨hport, hh⟩]
    cases p.subnetLookup.matchRule id.srcIP id.dstIP id.dstPort tcpProtocolNumber with
    | none => simp
    | some r' =>
      by_cases hr : r'.IsHTTP
      · simp only [SubnetRule.IsHTTP] at hr
        simp only [if_pos hr, some.injEq]
        refine ⟨fun heq => ⟨heq, heq ▸ hr⟩, fun h => h.1⟩
      · have hr' := hr
        simp only [SubnetRule.IsHTTP] at hr'
        simp only [if_neg hr', some.injEq]
        refine ⟨fun h => ?_, fun h => absurd (h.1 ▸ h.2) hr⟩
        cases h
  rw [← hroute]
  unfold handleTCPConn
  simp only [hb, Bool.false_eq_true, if_false]
  cases p.httpRoute id <;> simp

/-- The HTTP routing agrees with the rule exactly when the rule set treats the
two destinations alike. -/
theorem http_obeys_iff {rule : SubnetRule} {key : ConnKey} {dst : Addr}
    (hrule : p.subnetLookup.matchRule key.srcIP key.dstIP key.dstPort tcpProtocolNumber =
      some rule) (hb : p.blocked = false) (hh : p.httpHandler = true)
    (hport : key.dstPort = 80 ∨ key.dstPort = 443) :
    (∀ r, p.handleTCPConn (key.withDst dst) = .http r ↔ (r = rule ∧ rule.IsHTTP)) ↔
      p.MatchesAlike rule key dst := by
  have hport' : (key.withDst dst).dstPort = 80 ∨ (key.withDst dst).dstPort = 443 := hport
  simp only [handleTCPConn_eq_http_iff hb hh hport']
  show (∀ r, (p.subnetLookup.matchRule key.srcIP dst key.dstPort tcpProtocolNumber = some r ∧
    r.IsHTTP) ↔ (r = rule ∧ rule.IsHTTP)) ↔ _
  unfold MatchesAlike
  by_cases hr : rule.IsHTTP
  · simp only [hr, and_true, if_true]
    refine ⟨fun h => .inr ((h rule).mpr rfl).1, ?_⟩
    intro h r
    have hdst : p.subnetLookup.matchRule key.srcIP dst key.dstPort tcpProtocolNumber =
        some rule := by
      rcases h with h | h
      · rw [h, hrule]
      · exact h
    rw [hdst]
    refine ⟨fun h => (some.inj h.1).symm, fun h => ?_⟩
    rw [h]
    exact ⟨rfl, hr⟩
  · simp only [hr, and_false, iff_false, not_and, if_false]
    refine ⟨.inr, ?_⟩
    intro h r hm
    rcases h with h | h
    · rw [h, hrule] at hm
      rw [← some.inj hm]
      exact hr
    · exact h r hm

end ProxyHandler

/-- The source of an ICMP reply. -/
theorem src_icmpReplyPacket (dstIP srcIP : BitVec 32) (ident seq : UInt16)
    (payload : ByteString) :
    src (icmpReplyPacket dstIP srcIP ident seq payload) = srcIP := by
  have hrange : range (icmpReplyPacket dstIP srcIP ident seq payload) 12 4 =
      encode 4 srcIP.toNat := by
    simp [icmpReplyPacket, range, encode]
  unfold src num
  rw [hrange, value_encode]
  apply BitVec.eq_of_toNat_eq
  simp only [BitVec.toNat_ofNat]
  omega

/-- A ping has no ports. -/
theorem incomingKey_icmp {b : ByteString} {k : ConnKey} (hk : incomingKey b = some k)
    (hproto : k.proto = icmpProto) : k.dstPort = 0 := by
  obtain ⟨-, -, hp, hports⟩ := incomingKey_read hk
  rw [hp] at hproto
  cases hports with
  | tcp htcp _ _ _ => exact absurd (hproto.symm.trans htcp) (by decide)
  | udp _ hudp _ _ _ => exact absurd (hproto.symm.trans hudp) (by decide)
  | other _ _ _ hdst => exact hdst

namespace ProxyHandler

/-- A ping is proxied under the rule with the right source exactly when the
destination it is seen with is the one that was pinged. -/
theorem icmp_obeys_iff (dns : Resolver) {rule : SubnetRule} {key : ConnKey} {x : BitVec 32}
    (z : BitVec 32)
    (hrule : p.subnetLookup.matchRule key.srcIP key.dstIP 0 icmpv4ProtocolNumber = some rule)
    (hsrc : key.srcIP = .v4 x) :
    (∀ icmpData payload, IsEcho icmpData →
      ∃ job reply, p.handleICMPPacket dns key.srcIP (.v4 z) icmpData payload = some (rule, job) ∧
        pingReply job = .ok reply ∧ key.dstIP = .v4 (src reply)) ↔
      .v4 z = key.dstIP := by
  have hjob : ∀ icmpData payload job, p.handleICMPPacket dns key.srcIP (.v4 z) icmpData payload =
      some (rule, job) → job.originalDstIP = .v4 z ∧ job.srcIP = key.srcIP := by
    intro icmpData payload job h
    unfold handleICMPPacket at h
    split at h
    · cases h
    · split at h
      · cases h
      · split at h <;> cases h
        exact ⟨rfl, rfl⟩
  have hreply : ∀ job : PingJob, job.originalDstIP = .v4 z → job.srcIP = key.srcIP →
      pingReply job = .ok (icmpReplyPacket x z job.ident job.seq job.payload) := by
    intro job ho hs
    simp only [pingReply, injectICMPReply, as4, ho, hs, hsrc, Addr.as4_v4]
    rfl
  refine ⟨?_, ?_⟩
  · intro h
    obtain ⟨job, reply, hj, hr, hd⟩ := h [8, 0, 0, 0, 0, 0, 0, 0] [] ⟨by decide, by decide⟩
    obtain ⟨ho, hs⟩ := hjob _ _ job hj
    rw [hreply job ho hs] at hr
    cases hr
    rw [hd, src_icmpReplyPacket]
  · intro hz icmpData payload hecho
    have hlen : ¬ icmpData.length < 8 := Nat.not_lt.mpr hecho.1
    have hhandled : ∃ job, p.handleICMPPacket dns key.srcIP (.v4 z) icmpData payload =
        some (rule, job) := by
      unfold handleICMPPacket
      rw [if_neg hlen, if_neg (fun hne => hne hecho.2), hz, hrule]
      exact ⟨_, rfl⟩
    obtain ⟨job, hj⟩ := hhandled
    obtain ⟨ho, hs⟩ := hjob icmpData payload job hj
    refine ⟨job, _, hj, hreply job ho hs, ?_⟩
    rw [src_icmpReplyPacket, hz]

end ProxyHandler

/-- The 5-tuple the stack sees of an injected packet, and what the target says
about its destination. -/
theorem seen_of_injected {p p' : ProxyHandler T} {dns : Resolver} {packet out : ByteString}
    {key seen : ConnKey} {rule : SubnetRule} (hadm : p.Admits packet key rule)
    (hin : p.handleIncomingPacket dns packet = .ok (p', some out)) (hflow : flow out = some seen) :
    p'.subnetLookup = p.subnetLookup ∧ ∃ z, seen = key.withDst (.v4 z) ∧
      ((∀ newDst ∈ p.target dns rule key, newDst.isLoopback = true) ∧ .v4 z = key.dstIP ∨
        ∃ newDst, p.target dns rule key = some newDst ∧ newDst.isLoopback = false ∧
          newDst.unmap = .v4 z) := by
  obtain ⟨-, hdst, -⟩ := incomingKey_read hadm.key_eq
  have hlen := (incomingKey_length hadm.key_eq).1
  rcases handleIncomingPacket_cases dns p packet with ⟨key', rule', hadm', heq⟩ | ⟨hnone, -⟩
  · obtain ⟨hkey, hrule⟩ := hadm.unique hadm'
    subst hkey hrule
    rw [heq] at hin
    rcases forwardPacket_cases hlen (p.target dns rule' key') with
      ⟨-, e, he⟩ | ⟨hsafe, out', hout, -⟩
    · rw [he] at hin
      cases hin
    · have hseen := flow_forwardPacket hadm.key_eq hout
      rw [hout] at hin
      cases hin
      rw [hflow] at hseen
      by_cases hhl : headerLen packet < 20 ∨ packet.length < headerLen packet
      · rw [if_pos hhl] at hseen
        cases hseen
      · rw [if_neg hhl] at hseen
        cases hseen
        refine ⟨rfl, ?_⟩
        rcases seenKey_of_safe key' hsafe with
          ⟨hloop, hsame⟩ | ⟨newDst, z, htarget, hloop, hz, hsame⟩
        · exact ⟨dst packet, by rw [hsame, ← hdst, ConnKey.withDst_dstIP],
            .inl ⟨hloop, hdst.symm⟩⟩
        · exact ⟨z, hsame, .inr ⟨newDst, htarget, hloop, Addr.as4_eq_some_iff.mp hz⟩⟩
  · exact absurd hadm (hnone key rule)

/-- **When the handlers obey the rule that admitted a packet.**  For every rule
set, every admitted packet and every later state with the same rules in which
connections are not blocked: exactly when the destination is not really
rewritten (there is nothing to rewrite to, or it is a loopback address) or
rewritten to an address that, for TCP, the rule set treats alike, and, for
ICMP, is the original one. -/
theorem handling_obeys_rule_iff {p p' later : ProxyHandler T} {dns dns' : Resolver}
    {packet out : ByteString} {key seen : ConnKey} {rule : SubnetRule}
    (hadm : p.Admits packet key rule)
    (hin : p.handleIncomingPacket dns packet = .ok (p', some out))
    (hflow : flow out = some seen) (hrules : later.subnetLookup = p'.subnetLookup)
    (hblocked : later.blocked = false) (hhttp : later.httpHandler = true) :
    later.Obeys dns' rule key seen ↔
      (key.proto = tcpProto → (key.dstPort = 80 ∨ key.dstPort = 443) →
        ∀ newDst ∈ p.target dns rule key,
          newDst.isLoopback = true ∨ p.MatchesAlike rule key newDst.unmap) ∧
      (key.proto = icmpProto →
        ∀ newDst ∈ p.target dns rule key,
          newDst.isLoopback = true ∨ newDst.unmap = key.dstIP) := by
  obtain ⟨hlookup, z, hseen, hz⟩ := seen_of_injected hadm hin hflow
  obtain ⟨hsrc, -, -, -⟩ := incomingKey_read hadm.key_eq
  have hsame : later.subnetLookup = p.subnetLookup := hrules.trans hlookup
  have htarget : ∀ P : Addr → Prop, (.v4 z = key.dstIP → P (.v4 z)) →
      ((∀ newDst ∈ p.target dns rule key, newDst.isLoopback = true ∨ P newDst.unmap) ↔
        P (.v4 z)) := by
    intro P hown
    rcases hz with ⟨hloop, hdst⟩ | ⟨newDst, ht, hloop, hunmap⟩
    · exact ⟨fun _ => hown hdst, fun _ newDst h => .inl (hloop newDst h)⟩
    · rw [ht]
      refine ⟨fun h => ?_, fun h newDst' h' => ?_⟩
      · rcases h newDst rfl with hl | hp
        · rw [hloop] at hl
          cases hl
        · rw [← hunmap]
          exact hp
      · cases h'
        right
        rw [hunmap]
        exact h
  have halike : later.MatchesAlike rule key (.v4 z) ↔ p.MatchesAlike rule key (.v4 z) := by
    unfold ProxyHandler.MatchesAlike
    rw [hsame]
  rw [hseen]
  refine and_congr ?_ ?_
  · refine forall_congr' (fun htcp => forall_congr' (fun hport => ?_))
    have hrule : later.subnetLookup.matchRule key.srcIP key.dstIP key.dstPort
        tcpProtocolNumber = some rule := by
      have hr := hadm.rule_eq
      unfold ruleFor at hr
      rw [htcp] at hr
      rw [hsame]
      exact hr
    rw [http_obeys_iff hrule hblocked hhttp hport, halike]
    exact (htarget (p.MatchesAlike rule key) .inl).symm
  · refine forall_congr' (fun hicmp => ?_)
    have hrule : later.subnetLookup.matchRule key.srcIP key.dstIP 0 icmpv4ProtocolNumber =
        some rule := by
      have hr := hadm.rule_eq
      unfold ruleFor at hr
      rw [hicmp, incomingKey_icmp hadm.key_eq hicmp] at hr
      rw [hsame]
      exact hr
    exact (icmp_obeys_iff dns' z hrule hsrc).trans
      (htarget (fun a => a = key.dstIP) id).symm

/-- An admitted packet with a sound header whose target is IPv4 is injected. -/
theorem injected_of_is4 (dns : Resolver) {packet : ByteString} {key : ConnKey} {rule : SubnetRule}
    (hadm : p.Admits packet key rule)
    (hhl : 20 ≤ headerLen packet ∧ headerLen packet ≤ packet.length)
    (h4 : ∀ newDst ∈ p.target dns rule key, newDst.is4 = true) :
    ∃ out, p.handleIncomingPacket dns packet = .ok (p.admitted dns rule key, some out) ∧
      flow out = some (seenKey key (p.target dns rule key)) := by
  have hsafe : ¬ UnsafeTarget packet (p.target dns rule key) := by
    intro h
    obtain ⟨newDst, htarget, -, hbad⟩ := h
    obtain ⟨x, hx⟩ := Addr.is4_iff.mp (h4 newDst htarget)
    rcases hbad with hbad | hbad
    · rw [hx, Addr.as4_v4] at hbad
      cases hbad
    · omega
  have hlen := (incomingKey_length hadm.key_eq).1
  rcases forwardPacket_cases hlen (p.target dns rule key) with ⟨hbad, -⟩ | ⟨-, out, hout, -⟩
  · exact absurd hbad hsafe
  · refine ⟨out, ?_, ?_⟩
    · simp only [handleIncomingPacket_eq, hadm.enabled, hadm.key_eq, hadm.rule_eq, hout]
      rfl
    · rw [flow_forwardPacket hadm.key_eq hout, if_neg (by omega)]

/-- An HTTP rule for clients in 10.0.0.0/8. -/
def webRule (destPrefix : Prefix) (rewriteTo : String) : SubnetRule :=
  { sourcePrefix := .from4 0x0A000000 8, destPrefix := destPrefix, rewriteTo := rewriteTo,
    protocol := "http"
    httpTargets := [{ destAddr := "10.0.0.6", destPort := 8080, scheme := "http" }] }

/-- A handler with one rule. -/
def ruleHandler (rule : SubnetRule) : ProxyHandler ListTable :=
  (fresh true).changeRules (.add rule)

/-- The 5-tuple of a packet from 10.0.0.1 to 10.0.0.5. -/
def clientKey (srcPort dstPort : UInt16) (proto : UInt8) : ConnKey :=
  { srcIP := .v4 0x0A000001, srcPort := srcPort, dstIP := .v4 0x0A000005, dstPort := dstPort,
    proto := proto }

/-- A ping of 10.0.0.5. -/
def icmpEcho : ByteString :=
  [0x45, 0, 0, 28, 0, 0, 0, 0, 64, 1, 0, 0, 10, 0, 0, 1, 10, 0, 0, 5, 8, 0, 0, 0, 0, 1, 0, 1]

/-- A rule that rewrites within the subnet it covers is obeyed. -/
theorem web_rule_obeyed :
    ∃ (p' : ProxyHandler ListTable) (out : ByteString) (seen : ConnKey),
      (ruleHandler (webRule (.from4 0x0A000000 8) "10.0.0.6/32")).handleIncomingPacket
          (fun _ => none) (tcpSegment 0x0A000001 0x0A000005 1000 80) = .ok (p', some out) ∧
        flow out = some seen ∧ seen.dstIP = .v4 0x0A000006 ∧
        p'.Obeys (fun _ => none) (webRule (.from4 0x0A000000 8) "10.0.0.6/32")
          (clientKey 1000 80 tcpProto) seen := by
  have hadm : (ruleHandler (webRule (.from4 0x0A000000 8) "10.0.0.6/32")).Admits
      (tcpSegment 0x0A000001 0x0A000005 1000 80) (clientKey 1000 80 tcpProto)
      (webRule (.from4 0x0A000000 8) "10.0.0.6/32") := ⟨rfl, by decide, by decide⟩
  obtain ⟨out, hin, hflow⟩ := injected_of_is4 (fun _ => none) hadm (by decide) (by decide)
  refine ⟨_, out, _, hin, hflow, rfl, ?_⟩
  refine (handling_obeys_rule_iff hadm hin hflow rfl rfl rfl).mpr ⟨?_, by decide⟩
  intro _ _ newDst htarget
  have hnew : newDst = .v4 0x0A000006 := (some.inj htarget).symm
  rw [hnew]
  exact .inr (.inr (by decide))

/-- **Rewritten packets lose their rule.**  An HTTP rule for 10.0.0.5 that
rewrites to 192.168.1.10 admits a TCP connection to port 80, which is then
forwarded raw; and it admits a ping, which no handler answers. -/
theorem rewritten_packets_lose_their_rule :
    (∃ (p' : ProxyHandler ListTable) (out : ByteString) (seen : ConnKey),
      (ruleHandler (webRule (.from4 0x0A000005 32) "192.168.1.10/32")).handleIncomingPacket
          (fun _ => none) (tcpSegment 0x0A000001 0x0A000005 1000 80) = .ok (p', some out) ∧
        flow out = some seen ∧ p'.handleTCPConn seen = .forward (.v4 0xC0A8010A) 0) ∧
    (∃ (p' : ProxyHandler ListTable) (out : ByteString) (seen : ConnKey),
      (ruleHandler (webRule (.from4 0x0A000005 32) "192.168.1.10/32")).handleIncomingPacket
          (fun _ => none) icmpEcho = .ok (p', some out) ∧
        flow out = some seen ∧
        p'.handleICMPPacket (fun _ => none) seen.srcIP seen.dstIP (icmpEcho.drop 20) [] =
          none) := by
  have htcp : (ruleHandler (webRule (.from4 0x0A000005 32) "192.168.1.10/32")).Admits
      (tcpSegment 0x0A000001 0x0A000005 1000 80) (clientKey 1000 80 tcpProto)
      (webRule (.from4 0x0A000005 32) "192.168.1.10/32") := ⟨rfl, by decide, by decide⟩
  have hicmp : (ruleHandler (webRule (.from4 0x0A000005 32) "192.168.1.10/32")).Admits
      icmpEcho (clientKey 0 0 icmpProto)
      (webRule (.from4 0x0A000005 32) "192.168.1.10/32") := ⟨rfl, by decide, by decide⟩
  obtain ⟨out, hin, hflow⟩ := injected_of_is4 (fun _ => none) htcp (by decide) (by decide)
  obtain ⟨out', hin', hflow'⟩ := injected_of_is4 (fun _ => none) hicmp (by decide) (by decide)
  exact ⟨⟨_, out, _, hin, hflow, by decide⟩, ⟨_, out', _, hin', hflow', by decide⟩⟩

end Newt

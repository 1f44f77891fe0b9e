import Newt.ProxyHandler

/-!
# From incoming packets to connections

`incomingKey` is the 5-tuple `HandleIncomingPacket` reads off a packet it does
not reject, `flow` the one the user-space stack reads off an injected packet.
The stack drops a packet whose header is shorter than 20 bytes or longer than
the packet.

* `handleIncomingPacket_eq`: the whole call as a function of the 5-tuple, the
  matched rule and the tables;
* `flow_forwardPacket`: the stack sees the original 5-tuple with the
  destination replaced by the rewritten address (`seenKey`).
-/

namespace Newt

open Netip Bytes IPv4Packet NatTables Option

/-- The 5-tuple of a packet `HandleIncomingPacket` looks up. -/
def incomingKey (b : ByteString) : Option ConnKey :=
  let key (sport dport : UInt16) : ConnKey :=
    { srcIP := .v4 (src b), srcPort := sport, dstIP := .v4 (dst b), dstPort := dport,
      proto := proto b }
  if b.length < ipv4MinimumSize ∨ version b ≠ 4 then none
  else if proto b = tcpProto then
    if b.length < headerLen b + tcpMinimumSize then none
    else some (key (srcPort b (headerLen b)) (dstPort b (headerLen b)))
  else if proto b = udpProto then
    if b.length < headerLen b + udpMinimumSize then none
    else some (key (srcPort b (headerLen b)) (dstPort b (headerLen b)))
  else some (key 0 0)

/-- The 5-tuple the user-space stack reads off a packet. -/
def flow (b : ByteString) : Option ConnKey :=
  if headerLen b < 20 ∨ b.length < headerLen b then none else incomingKey b

/-- The packet that is injected when the destination becomes `target`. -/
def forwardPacket (packet : ByteString) : Option Addr → Except Panic (Option ByteString)
  | none => .ok (some packet)
  | some newDst =>
    if newDst.isLoopback then .ok (some packet) else rewritePacketDestination packet newDst

/-- The 5-tuple the handlers see of a connection rewritten to `target`. -/
def seenKey (key : ConnKey) : Option Addr → ConnKey
  | none => key
  | some newDst =>
    if newDst.isLoopback then key
    else
      match newDst.as4 with
      | some x => key.withDst (.v4 x)
      | none => key

/-- The handlers see the original 5-tuple, or one that is rewritten to a target
that is IPv4 and not a loopback address. -/
theorem seenKey_cases (key : ConnKey) (target : Option Addr) :
    seenKey key target = key ∨ ∃ newDst x, target = some newDst ∧ newDst.isLoopback = false ∧
      newDst.as4 = some x ∧ seenKey key target = key.withDst (.v4 x) := by
  cases target with
  | none => exact .inl rfl
  | some a =>
    cases hloop : a.isLoopback with
    | true => simp [seenKey, hloop]
    | false =>
      cases hx : a.as4 with
      | none => simp [seenKey, hloop, hx]
      | some x => exact .inr ⟨a, x, rfl, hloop, hx, by simp [seenKey, hloop, hx]⟩

@[simp] theorem side_seenKey (key : ConnKey) (target : Option Addr) :
    (seenKey key target).side = key.side := by
  rcases seenKey_cases key target with h | ⟨_, _, -, -, -, h⟩
  · rw [h]
  · rw [h, ConnKey.side_withDst]

@[simp] theorem proto_seenKey (key : ConnKey) (target : Option Addr) :
    (seenKey key target).proto = key.proto := by
  rcases seenKey_cases key target with h | ⟨_, _, -, -, -, h⟩
  · rw [h]
  · rw [h, ConnKey.proto_withDst]

section Keys

variable {b : ByteString} {k : ConnKey}

theorem incomingKey_length (h : incomingKey b = some k) : 20 ≤ b.length ∧ version b = 4 := by
  unfold incomingKey at h
  by_cases hbad : b.length < ipv4MinimumSize ∨ version b ≠ 4
  · simp [hbad] at h
  · simp only [ipv4MinimumSize, not_or, Nat.not_lt, ne_eq, not_not] at hbad
    exact hbad

theorem incomingDstPort_eq (hlen : 20 ≤ b.length) (hver : version b = 4) :
    incomingDstPort b (proto b) (headerLen b) = .ok ((incomingKey b).map ConnKey.dstPort) := by
  have hgood : ¬ (b.length < ipv4MinimumSize ∨ version b ≠ 4) := by
    simp only [ipv4MinimumSize]
    omega
  unfold incomingDstPort incomingKey
  simp only [if_neg hgood]
  by_cases htcp : proto b = tcpProto
  · simp only [htcp, if_true]
    by_cases hs : b.length < headerLen b + tcpMinimumSize
    · simp [hs]
      rfl
    · simp only [hs, if_false]
      simp only [tcpMinimumSize] at hs
      rw [destinationPort_ok (by omega)]
      rfl
  · simp only [htcp, if_false]
    by_cases hudp : proto b = udpProto
    · simp only [hudp, if_true]
      by_cases hs : b.length < headerLen b + udpMinimumSize
      · simp [hs]
        rfl
      · simp only [hs, if_false]
        simp only [udpMinimumSize] at hs
        rw [destinationPort_ok (by omega)]
        rfl
    · simp only [hudp, if_false]
      rfl

/-- Where the ports of a 5-tuple come from. -/
inductive PortsRead (b : ByteString) (k : ConnKey) : Prop
  | tcp (hproto : proto b = tcpProto) (hlen : headerLen b + tcpMinimumSize ≤ b.length)
      (hsrc : k.srcPort = srcPort b (headerLen b)) (hdst : k.dstPort = dstPort b (headerLen b))
  | udp (htcp : proto b ≠ tcpProto) (hproto : proto b = udpProto)
      (hlen : headerLen b + udpMinimumSize ≤ b.length)
      (hsrc : k.srcPort = srcPort b (headerLen b)) (hdst : k.dstPort = dstPort b (headerLen b))
  | other (htcp : proto b ≠ tcpProto) (hudp : proto b ≠ udpProto) (hsrc : k.srcPort = 0)
      (hdst : k.dstPort = 0)

/-- **What a 5-tuple is read from**, field by field. -/
theorem incomingKey_read (h : incomingKey b = some k) :
    k.srcIP = .v4 (src b) ∧ k.dstIP = .v4 (dst b) ∧ k.proto = proto b ∧ PortsRead b k := by
  obtain ⟨hlen, hver⟩ := incomingKey_length h
  have hgood : ¬ (b.length < ipv4MinimumSize ∨ version b ≠ 4) := by
    simp only [ipv4MinimumSize]
    omega
  unfold incomingKey at h
  rw [if_neg hgood] at h
  by_cases htcp : proto b = tcpProto
  · rw [if_pos htcp] at h
    obtain ⟨hs, hk⟩ := ite_none_left_eq_some.mp h
    cases hk
    exact ⟨rfl, rfl, rfl, .tcp htcp (Nat.not_lt.mp hs) rfl rfl⟩
  · rw [if_neg htcp] at h
    by_cases hudp : proto b = udpProto
    · rw [if_pos hudp] at h
      obtain ⟨hs, hk⟩ := ite_none_left_eq_some.mp h
      cases hk
      exact ⟨rfl, rfl, rfl, .udp htcp hudp (Nat.not_lt.mp hs) rfl rfl⟩
    · rw [if_neg hudp] at h
      cases h
      exact ⟨rfl, rfl, rfl, .other htcp hudp rfl rfl⟩

/-- The source port `HandleIncomingPacket` reads is the one of the 5-tuple. -/
theorem incomingSrcPort_eq (h : incomingKey b = some k) :
    incomingSrcPort b (proto b) (headerLen b) = .ok k.srcPort := by
  obtain ⟨-, -, -, hports⟩ := incomingKey_read h
  unfold incomingSrcPort
  cases hports with
  | tcp hproto hlen hsrc _ =>
    simp only [tcpMinimumSize] at hlen
    rw [if_pos hproto, sourcePort_ok (by omega), hsrc]
  | udp htcp hproto hlen hsrc _ =>
    simp only [udpMinimumSize] at hlen
    rw [if_neg htcp, if_pos hproto, sourcePort_ok (by omega), hsrc]
  | other htcp hudp hsrc _ =>
    rw [if_neg htcp, if_neg hudp, hsrc]
    rfl

end Keys

section Handle

variable {T : Type → Type} [PrefixTable T]

/-- The rule that admits a packet with the given 5-tuple. -/
def ProxyHandler.ruleFor (p : ProxyHandler T) (key : ConnKey) : Option SubnetRule :=
  p.subnetLookup.matchRule key.srcIP key.dstIP key.dstPort key.proto.toUInt32

/-- The handler after a packet with the given 5-tuple was admitted by a rule. -/
def ProxyHandler.admitted (p : ProxyHandler T) (dns : Resolver) (rule : SubnetRule)
    (key : ConnKey) : ProxyHandler T :=
  { p with tables := (p.tables.record (resolveRewriteAddress dns) rule key).1 }

/-- The address a packet with the given 5-tuple is rewritten to. -/
def ProxyHandler.target (p : ProxyHandler T) (dns : Resolver) (rule : SubnetRule)
    (key : ConnKey) : Option Addr :=
  p.tables.target (resolveRewriteAddress dns) rule key

omit [PrefixTable T] in
theorem handleMatched_eq {dns : Resolver} {p : ProxyHandler T} {packet : ByteString}
    {key : ConnKey} (hk : incomingKey packet = some key) (rule : SubnetRule) :
    p.handleMatched dns packet key.srcIP key.dstIP key.dstPort key.proto (headerLen packet) rule =
      (forwardPacket packet (p.target dns rule key)).map
        (fun out => (p.admitted dns rule key, out)) := by
  obtain ⟨-, -, hproto, -⟩ := incomingKey_read hk
  have hport := incomingSrcPort_eq hk
  rw [← hproto] at hport
  unfold ProxyHandler.handleMatched ProxyHandler.target ProxyHandler.admitted
  by_cases hr : rule.rewriteTo = ""
  · rw [if_pos hr]
    simp only [target, record, hr, if_true, forwardPacket, ne_eq,
      not_true_eq_false, if_false]
    rfl
  · have hrecord : p.tables.translate (resolveRewriteAddress dns) rule key =
        ((p.tables.record (resolveRewriteAddress dns) rule key).1,
          p.tables.target (resolveRewriteAddress dns) rule key) := by
      have htranslate : p.tables.record (resolveRewriteAddress dns) rule key =
          p.tables.translate (resolveRewriteAddress dns) rule key := by
        simp [record, hr]
      rw [← htranslate]
      exact Prod.ext rfl record_snd
    rw [if_neg hr, hport, ok_bind]
    simp only
    rw [hrecord]
    cases p.tables.target (resolveRewriteAddress dns) rule key with
    | none => rfl
    | some a =>
      cases hloop : a.isLoopback with
      | true =>
        simp only [forwardPacket, hloop, Bool.not_true, Bool.false_eq_true, if_false, if_true]
        rfl
      | false =>
        simp only [forwardPacket, hloop, Bool.not_false, Bool.false_eq_true, if_false, if_true]
        cases rewritePacketDestination packet a <;> rfl

/-- **`HandleIncomingPacket` in one equation**: nothing happens without a
5-tuple or without a rule; otherwise the tables take the packet and it is
forwarded to its target. -/
theorem handleIncomingPacket_eq (dns : Resolver) (p : ProxyHandler T) (packet : ByteString) :
    p.handleIncomingPacket dns packet =
      if p.enabled = false then .ok (p, none)
      else
        match incomingKey packet with
        | none => .ok (p, none)
        | some key =>
          match p.ruleFor key with
          | none => .ok (p, none)
          | some rule =>
            (forwardPacket packet (p.target dns rule key)).map
              (fun out => (p.admitted dns rule key, out)) := by
  unfold ProxyHandler.handleIncomingPacket
  cases hen : p.enabled with
  | false => rfl
  | true =>
    simp only [Bool.not_true, Bool.false_eq_true, if_false]
    by_cases hlen : packet.length < ipv4MinimumSize
    · have hnone : incomingKey packet = none := by simp [incomingKey, hlen]
      simp only [hlen, if_true, hnone]
      rfl
    · have hlen' : 20 ≤ packet.length := Nat.not_lt.mp hlen
      simp only [hlen, if_false]
      rw [readNum_ok (by omega), ok_bind]
      by_cases hver : num packet 0 1 / 16 = 4
      · rw [sourceAddress_ok hlen', destinationAddress_ok hlen', transportProtocol_ok hlen',
          headerLength_ok hlen']
        simp only [hver, ne_eq, not_true_eq_false, if_false, ok_bind]
        rw [incomingDstPort_eq hlen' hver, ok_bind]
        cases hk : incomingKey packet with
        | none => rfl
        | some key =>
          obtain ⟨hsrc, hdst, hproto, -⟩ := incomingKey_read hk
          simp only [map_some]
          rw [← hsrc, ← hdst, ← hproto]
          show (match p.ruleFor key with | none => _ | some rule => _) = _
          cases p.ruleFor key with
          | none => rfl
          | some rule => exact handleMatched_eq hk rule
      · have hnone : incomingKey packet = none := by
          simp [incomingKey, show version packet ≠ 4 from hver]
        simp only [hver, ne_eq, not_false_eq_true, if_true, hnone]
        rfl

/-- The packet has the 5-tuple `key`, and `rule` admits it. -/
structure ProxyHandler.Admits (p : ProxyHandler T) (packet : ByteString) (key : ConnKey)
    (rule : SubnetRule) : Prop where
  enabled : p.enabled = true
  key_eq : incomingKey packet = some key
  rule_eq : p.ruleFor key = some rule

theorem ProxyHandler.Admits.unique {p : ProxyHandler T} {packet : ByteString}
    {key key' : ConnKey} {rule rule' : SubnetRule} (h : p.Admits packet key rule)
    (h' : p.Admits packet key' rule') : key' = key ∧ rule' = rule := by
  have hkey : key' = key := some.inj (h'.key_eq.symm.trans h.key_eq)
  subst hkey
  exact ⟨rfl, some.inj (h'.rule_eq.symm.trans h.rule_eq)⟩

/-- The 5-tuple of a packet and the rule that admits it. -/
def ProxyHandler.admission (p : ProxyHandler T) (packet : ByteString) :
    Option (ConnKey × SubnetRule) :=
  if p.enabled then
    (incomingKey packet).bind (fun key => (p.ruleFor key).map (fun rule => (key, rule)))
  else none

theorem ProxyHandler.Admits.mem_admission {p : ProxyHandler T} {packet : ByteString}
    {key : ConnKey} {rule : SubnetRule} (h : p.Admits packet key rule) :
    (key, rule) ∈ p.admission packet := by simp [admission, h.enabled, h.key_eq, h.rule_eq]

/-- A packet is admitted and forwarded, or it is ignored. -/
theorem handleIncomingPacket_cases (dns : Resolver) (p : ProxyHandler T) (packet : ByteString) :
    (∃ key rule, p.Admits packet key rule ∧
        p.handleIncomingPacket dns packet =
          (forwardPacket packet (p.target dns rule key)).map
            (fun out => (p.admitted dns rule key, out))) ∨
      ((∀ key rule, ¬ p.Admits packet key rule) ∧
        p.handleIncomingPacket dns packet = .ok (p, none)) := by
  rw [handleIncomingPacket_eq]
  cases hen : p.enabled with
  | false =>
    right
    refine ⟨?_, rfl⟩
    intro key rule h
    rw [h.enabled] at hen
    cases hen
  | true =>
    cases hk : incomingKey packet with
    | none =>
      right
      refine ⟨?_, rfl⟩
      intro key rule h
      rw [h.key_eq] at hk
      cases hk
    | some key =>
      cases hr : p.ruleFor key with
      | none =>
        right
        refine ⟨?_, by simp only [hr]; rfl⟩
        intro key' rule h
        have hkey := h.key_eq
        rw [hk] at hkey
        cases hkey
        rw [h.rule_eq] at hr
        cases hr
      | some rule =>
        left
        exact ⟨key, rule, ⟨hen, hk, hr⟩, by simp only [hr]; rfl⟩

end Handle

section Forward

variable {packet out : ByteString} {key : ConnKey} {target : Option Addr}

/-- The target panics the rewrite: it is rewritten to, and it is not IPv4 or
the header length lies beyond the packet. -/
def UnsafeTarget (packet : ByteString) (target : Option Addr) : Prop :=
  ∃ newDst, target = some newDst ∧ newDst.isLoopback = false ∧
    (newDst.as4 = none ∨ packet.length < headerLen packet)

/-- **What forwarding does.**  It panics exactly on an unsafe target; otherwise
the packet goes out as it is, or readdressed to an IPv4 address. -/
theorem forwardPacket_cases (hlen : 20 ≤ packet.length) (target : Option Addr) :
    (UnsafeTarget packet target ∧ ∃ e, forwardPacket packet target = .error e) ∨
      (¬ UnsafeTarget packet target ∧ ∃ out, forwardPacket packet target = .ok (some out) ∧
        ((out = packet ∧ ∀ k, seenKey k target = k) ∨
          ∃ x, Readdressed 16 x packet out ∧ ∀ k, seenKey k target = k.withDst (.v4 x))) := by
  cases target with
  | none =>
    right
    refine ⟨?_, packet, rfl, .inl ⟨rfl, fun _ => rfl⟩⟩
    intro h
    obtain ⟨a, ha, -⟩ := h
    cases ha
  | some a =>
    cases hloop : a.isLoopback with
    | true =>
      right
      refine ⟨?_, packet, by simp [forwardPacket, hloop], .inl ⟨rfl, ?_⟩⟩
      · intro h
        obtain ⟨a', ha', hl, -⟩ := h
        cases ha'
        rw [hloop] at hl
        cases hl
      · intro k
        simp [seenKey, hloop]
    | false =>
      have hforward : forwardPacket packet (some a) = rewriteAddress 16 packet a := by
        simp [forwardPacket, hloop, rewritePacketDestination]
      rw [hforward]
      rcases rewriteAddress_cases a (by omega : 12 ≤ 16) (by omega) hlen with
        ⟨hbad, e, he⟩ | ⟨x, b', hx, hhl, hok, hread⟩
      · left
        exact ⟨⟨a, rfl, hloop, hbad⟩, e, he⟩
      · right
        refine ⟨?_, b', hok, .inr ⟨x, hread, ?_⟩⟩
        · intro h
          obtain ⟨a', ha', -, hbad⟩ := h
          cases ha'
          rcases hbad with hbad | hbad
          · rw [hx] at hbad
            cases hbad
          · omega
        · intro k
          simp [seenKey, hloop, hx]

/-- Of a safe target either nothing is rewritten or the stack sees the new
destination. -/
theorem seenKey_of_safe (key : ConnKey) (hsafe : ¬ UnsafeTarget packet target) :
    ((∀ newDst ∈ target, newDst.isLoopback = true) ∧ seenKey key target = key) ∨
      ∃ newDst x, target = some newDst ∧ newDst.isLoopback = false ∧ newDst.as4 = some x ∧
        seenKey key target = key.withDst (.v4 x) := by
  cases target with
  | none =>
    refine .inl ⟨?_, rfl⟩
    intro newDst h
    cases h
  | some a =>
    cases hloop : a.isLoopback with
    | true =>
      refine .inl ⟨?_, by simp [seenKey, hloop]⟩
      intro newDst h
      cases h
      exact hloop
    | false =>
      cases hx : a.as4 with
      | none => exact absurd ⟨a, rfl, hloop, .inl hx⟩ hsafe
      | some x => exact .inr ⟨a, x, rfl, hloop, hx, by simp [seenKey, hloop, hx]⟩

/-- A readdressed packet has the 5-tuple with the new destination. -/
theorem incomingKey_readdressed {x : BitVec 32} (h : Readdressed 16 x packet out)
    (hhl : 20 ≤ headerLen packet) :
    incomingKey out = (incomingKey packet).map (fun k => k.withDst (.v4 x)) := by
  have hver : version out = version packet := by
    unfold version
    rw [h.kept 0 1 (by omega) (by omega) (by omega)]
  have hlen : headerLen out = headerLen packet := h.headerLen_eq (by omega)
  have hproto : proto out = proto packet := by
    unfold proto
    rw [h.kept 9 1 (by omega) (by omega) (by omega)]
  have hsrc : src out = src packet := by
    unfold src
    rw [h.kept 12 4 (by omega) (by omega) (by omega)]
  have hdst : dst out = x := h.addr (by omega)
  have hsport : srcPort out (headerLen packet) = srcPort packet (headerLen packet) := by
    unfold srcPort
    rw [h.kept _ 2 (by omega) (by omega) (by omega)]
  have hdport : dstPort out (headerLen packet) = dstPort packet (headerLen packet) := by
    unfold dstPort
    rw [h.kept _ 2 (by omega) (by omega) (by omega)]
  unfold incomingKey
  simp only [hver, hlen, hproto, hsrc, hdst, hsport, hdport, h.length]
  split_ifs <;> rfl

/-- **What the handlers see.**  Of an injected packet the stack reads the
original 5-tuple with the rewritten destination. -/
theorem flow_forwardPacket (hk : incomingKey packet = some key)
    (ho : forwardPacket packet target = .ok (some out)) :
    flow out = if headerLen packet < 20 ∨ packet.length < headerLen packet then none
      else some (seenKey key target) := by
  obtain ⟨hlen, -⟩ := incomingKey_length hk
  rcases forwardPacket_cases hlen target with ⟨-, e, he⟩ | ⟨-, out', hout', hcases⟩
  · rw [he] at ho
    cases ho
  · rw [ho] at hout'
    cases hout'
    unfold flow
    rcases hcases with ⟨heq, hseen⟩ | ⟨x, hread, hseen⟩
    · rw [heq, hk, hseen]
    · rw [hread.headerLen_eq (by omega), hread.length, hseen]
      by_cases hhl : headerLen packet < 20 ∨ packet.length < headerLen packet
      · rw [if_pos hhl, if_pos hhl]
      · rw [if_neg hhl, if_neg hhl, incomingKey_readdressed hread (by omega), hk]
        rfl

end Forward

/-- A TCP segment without options or payload (a SYN). -/
def tcpSegment (srcAddr dstAddr : BitVec 32) (sport dport : UInt16) : ByteString :=
  [0x45, 0, 0, 40, 0, 0, 0, 0, 64, 6, 0, 0] ++ encode 4 srcAddr.toNat ++
    encode 4 dstAddr.toNat ++ encode 2 sport.toNat ++ encode 2 dport.toNat ++
    [0, 0, 0, 0, 0, 0, 0, 0, 0x50, 2, 0, 0, 0, 0, 0, 0]

example : flow (tcpSegment 0x0A000001 0x0A000005 1000 80) =
    some { srcIP := .v4 0x0A000001, srcPort := 1000, dstIP := .v4 0x0A000005, dstPort := 80,
           proto := tcpProto } := by decide

/-- A rule for one destination address, for clients in 10.0.0.0/8. -/
def hostRule (dstAddr : BitVec 32) (rewriteTo : String) : SubnetRule :=
  { sourcePrefix := .from4 0x0A000000 8, destPrefix := .from4 dstAddr 32, rewriteTo := rewriteTo }

end Newt

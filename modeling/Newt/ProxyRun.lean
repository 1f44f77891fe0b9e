import Newt.Lib.Runs
import Newt.PacketFlow

/-!
# The proxy as a system

The proxy handler together with the connections the user-space stack has
accepted.  Packets arrive, rules change, connections are blocked or unblocked;
the stack may accept a TCP connection or a UDP session on an injected packet,
its handler starts some time later and returns later still.

The stack is left free: any admitted TCP or UDP packet may open a connection,
with the addresses and ports of the injected packet, or may belong to one that
is open already.  A connection remembers the client's 5-tuple, the rule that
admitted its first packet and what that rule's `RewriteTo` resolved to at the
time; no step of the code reads these.

`stepCase` says what one step can do to the tables and the connections.  The
invariants of later modules only use it.
-/

namespace Newt

open ProxyHandler

open Netip Bytes IPv4Packet

/-- Where the handler of a connection is: not started, forwarding to a dialed
address with a resource ID, handed to the HTTP handler, or returned (after a
hand-off: the HTTP connection has finished). -/
inductive Phase
  | pending
  | raw (actualDstIP : Addr) (resourceId : Int)
  | http (rule : SubnetRule)
  | returned
  deriving DecidableEq, Repr

/-- A connection: the client's 5-tuple, the one its handler sees, the rule that
admitted its first packet, and the address that rule's `RewriteTo` resolved to. -/
structure Conn where
  orig : ConnKey
  seen : ConnKey
  rule : SubnetRule
  resolved : Option Addr
  phase : Phase
  deriving DecidableEq, Repr

/-- TCP and UDP, the protocols with connections. -/
def ConnKey.Tracked (k : ConnKey) : Prop :=
  k.proto = tcpProto ∨ k.proto = udpProto
  deriving Decidable

/-- The handler has not returned. -/
def Conn.Live (c : Conn) : Prop :=
  c.phase ≠ .returned

structure Sys (T : Type → Type) where
  proxy : ProxyHandler T
  conns : List Conn

inductive Event
  | changeRules (op : RuleOp)
  | setBlocked (v : Bool)
  | packet (dns : Resolver) (bytes : ByteString) (opens : Bool)
  | start (i : Nat)
  | finish (i : Nat)

variable {T : Type → Type} [PrefixTable T]

/-- The connection that opens on a packet with the 5-tuple `key` admitted by
`rule`, when the stack sees `seen`. -/
def Conn.opened (dns : Resolver) (rule : SubnetRule) (key seen : ConnKey) : Conn :=
  { orig := key, seen := seen, rule := rule, resolved :=
      if rule.rewriteTo = "" then none else resolveRewriteAddress dns rule.rewriteTo
    phase := .pending }

open Conn

/-- The connection a packet opens, if the stack can open one. -/
def ProxyHandler.opening (p : ProxyHandler T) (dns : Resolver) (bytes out : ByteString) :
    Option Conn :=
  match incomingKey bytes with
  | none => none
  | some key =>
    match p.ruleFor key with
    | none => none
    | some rule =>
      match flow out with
      | none => none
      | some seen =>
        if seen.proto = tcpProto ∨ seen.proto = udpProto then
          some (opened dns rule key seen)
        else none

/-- The handler of a connection: TCP or UDP. -/
def ProxyHandler.handleConn (p : ProxyHandler T) (id : ConnKey) : ConnOutcome :=
  if id.proto = tcpProto then p.handleTCPConn id else p.handleUDPConn id

namespace Sys

/-- A packet: nothing follows a panic. -/
def onPacket (s : Sys T) (dns : Resolver) (bytes : ByteString) (opens : Bool) :
    Option (Sys T) :=
  match s.proxy.handleIncomingPacket dns bytes with
  | .error _ => none
  | .ok (proxy, injected) =>
    if opens then
      match injected with
      | none => none
      | some out =>
        (s.proxy.opening dns bytes out).map (fun c =>
          { proxy := proxy, conns := s.conns ++ [c] })
    else some { s with proxy := proxy }

/-- A handler starts.  A blocked connection is closed at once; the UDP handler
has its release deferred by then, the TCP handler has not. -/
def onStart (s : Sys T) (i : Nat) (c : Conn) : Option (Sys T) :=
  if c.phase = .pending then
    match s.proxy.handleConn c.seen with
    | .http rule => some { s with conns := s.conns.set i { c with phase := .http rule } }
    | .forward actual resourceId =>
      some { s with conns := s.conns.set i { c with phase := .raw actual resourceId } }
    | .closed =>
      some { proxy :=
               if c.seen.proto = tcpProto then s.proxy
               else s.proxy.releaseConnectionState c.seen
             conns := s.conns.set i { c with phase := .returned } }
  else none

/-- A handler returns: raw forwarding runs the deferred release, with the
5-tuple the handler sees. -/
def onFinish (s : Sys T) (i : Nat) (c : Conn) : Option (Sys T) :=
  match c.phase with
  | .raw _ _ =>
    some { proxy := s.proxy.releaseConnectionState c.seen
           conns := s.conns.set i { c with phase := .returned } }
  | .http _ => some { s with conns := s.conns.set i { c with phase := .returned } }
  | _ => none

def step (s : Sys T) : Event → Option (Sys T)
  | .changeRules op => some { s with proxy := s.proxy.changeRules op }
  | .setBlocked v => some { s with proxy := s.proxy.setBlocked v }
  | .packet dns bytes opens => s.onPacket dns bytes opens
  | .start i => (s.conns[i]?).bind (fun c => s.onStart i c)
  | .finish i => (s.conns[i]?).bind (fun c => s.onFinish i c)

/-- A proxy at the start: empty tables and no connection, any rules and
settings. -/
structure Initial (s : Sys T) : Prop where
  enabled : s.proxy.enabled = true
  tables : s.proxy.tables = NatTables.empty
  conns : s.conns = []

/-- A new proxy handler without connections. -/
def fresh : Sys T :=
  { proxy := .fresh true, conns := [] }

theorem initial_fresh : (fresh : Sys T).Initial :=
  ⟨rfl, rfl, rfl⟩

/-- What an admitted packet does: its table entries are recorded, and it may
open a connection. -/
structure AfterPacket (s s' : Sys T) (dns : Resolver) (opens : Bool) (key : ConnKey)
    (rule : SubnetRule) : Prop where
  tables : s'.proxy.tables = (s.proxy.tables.record (resolveRewriteAddress dns) rule key).1
  tracked : opens = true → key.Tracked
  conns : s'.conns = s.conns ++ if opens then
    [opened dns rule key (seenKey key (s.proxy.target dns rule key))] else []

/-- What one step does to the tables and the connections. -/
inductive StepCase (s : Sys T) (e : Event) (s' : Sys T) : Prop
  | quiet (htables : s'.proxy.tables = s.proxy.tables) (hconns : s'.conns = s.conns)
  | packet (dns : Resolver) (bytes : ByteString) (opens : Bool) (key : ConnKey)
      (rule : SubnetRule) (he : e = .packet dns bytes opens)
      (hadm : s.proxy.Admits bytes key rule)
      (hsafe : ¬ UnsafeTarget bytes (s.proxy.target dns rule key))
      (hafter : s.AfterPacket s' dns opens key rule)
  | serve (i : Nat) (c : Conn) (he : e = .start i) (hc : s.conns[i]? = some c)
      (hpending : c.phase = .pending) (phase : Phase)
      (hphase : (∃ rule, s.proxy.handleConn c.seen = .http rule ∧ phase = .http rule) ∨
        phase = .raw (s.proxy.actualDstIP c.seen) (s.proxy.lookupResourceId c.seen.dest) ∨
        (s.proxy.handleConn c.seen = .closed ∧ c.seen.proto = tcpProto ∧ phase = .returned))
      (htables : s'.proxy.tables = s.proxy.tables)
      (hconns : s'.conns = s.conns.set i { c with phase := phase })
  | release (i : Nat) (c : Conn) (hc : s.conns[i]? = some c)
      (hwas : c.phase = .pending ∨ ∃ a r, c.phase = .raw a r)
      (htables : s'.proxy.tables = s.proxy.tables.releaseConnectionState c.seen)
      (hconns : s'.conns = s.conns.set i { c with phase := .returned })
  | httpDone (i : Nat) (c : Conn) (hc : s.conns[i]? = some c)
      (hwas : ∃ rule, c.phase = .http rule)
      (htables : s'.proxy.tables = s.proxy.tables)
      (hconns : s'.conns = s.conns.set i { c with phase := .returned })

variable {s s' : Sys T} {e : Event}

omit [PrefixTable T] in
/-- The connections after a packet: those from before, and the one it opened. -/
theorem AfterPacket.mem_conns_iff {dns : Resolver} {opens : Bool} {key : ConnKey}
    {rule : SubnetRule} (h : s.AfterPacket s' dns opens key rule) {c : Conn} :
    c ∈ s'.conns ↔ c ∈ s.conns ∨
      (opens = true ∧
        c = opened dns rule key (seenKey key (s.proxy.target dns rule key))) := by
  rw [h.conns, List.mem_append]
  cases opens <;> simp

omit [PrefixTable T] in
/-- What holds of all connections holds after a packet if it holds of the one
the packet opens. -/
theorem AfterPacket.forall_conns {P : Conn → Prop} {dns : Resolver} {opens : Bool}
    {key : ConnKey} {rule : SubnetRule} (h : s.AfterPacket s' dns opens key rule)
    (hold : ∀ c ∈ s.conns, P c)
    (hopened : opens = true →
      P (opened dns rule key (seenKey key (s.proxy.target dns rule key)))) :
    ∀ c ∈ s'.conns, P c := by
  intro c hc
  rcases h.mem_conns_iff.mp hc with hc | ⟨hopen, heq⟩
  · exact hold c hc
  · rw [heq]
    exact hopened hopen

omit [PrefixTable T] in
theorem release_enabled_tables {p : ProxyHandler T} (hen : p.enabled = true) (key : ConnKey) :
    (p.releaseConnectionState key).enabled = true ∧
      (p.releaseConnectionState key).tables = p.tables.releaseConnectionState key := by
  simp [releaseConnectionState, hen]

/-- What `opening` returns for an admitted packet. -/
theorem opening_eq_some {p : ProxyHandler T} {dns : Resolver} {bytes out : ByteString}
    {key : ConnKey} {rule : SubnetRule} {c : Conn} (hadm : p.Admits bytes key rule)
    (hout : forwardPacket bytes (p.target dns rule key) = .ok (some out))
    (h : p.opening dns bytes out = some c) :
    (key.proto = tcpProto ∨ key.proto = udpProto) ∧
      c = opened dns rule key (seenKey key (p.target dns rule key)) := by
  have hflow := flow_forwardPacket hadm.key_eq hout
  unfold opening at h
  rw [hadm.key_eq] at h
  simp only [hadm.rule_eq, hflow] at h
  by_cases hhl : headerLen bytes < 20 ∨ bytes.length < headerLen bytes
  · simp [hhl] at h
  · simp only [hhl, if_false] at h
    rw [proto_seenKey] at h
    by_cases hp : key.proto = tcpProto ∨ key.proto = udpProto
    · rw [if_pos hp] at h
      exact ⟨hp, (Option.some.inj h).symm⟩
    · rw [if_neg hp] at h
      cases h

theorem stepCase_packet {dns : Resolver} {bytes : ByteString} {opens : Bool}
    (hen : s.proxy.enabled = true) (h : s.onPacket dns bytes opens = some s') :
    s'.proxy.enabled = true ∧ StepCase s (.packet dns bytes opens) s' := by
  unfold onPacket at h
  rcases handleIncomingPacket_cases dns s.proxy bytes with
    ⟨key, rule, hadm, heq⟩ | ⟨-, heq⟩
  · rw [heq] at h
    have hlen := (incomingKey_length hadm.key_eq).1
    rcases forwardPacket_cases hlen (s.proxy.target dns rule key) with
      ⟨-, e, he⟩ | ⟨hsafe, out, hout, -⟩
    · rw [he] at h
      cases h
    · rw [hout] at h
      cases opens with
      | false =>
        cases h
        exact ⟨hen, .packet dns bytes false key rule rfl hadm hsafe
          ⟨rfl, Bool.noConfusion, (List.append_nil _).symm⟩⟩
      | true =>
        obtain ⟨c, hc, hs⟩ := Option.map_eq_some_iff.mp h
        obtain ⟨hproto, hopened⟩ := opening_eq_some hadm hout hc
        subst hs
        rw [hopened]
        exact ⟨hen, .packet dns bytes true key rule rfl hadm hsafe
          ⟨rfl, fun _ => hproto, rfl⟩⟩
  · rw [heq] at h
    cases opens with
    | false =>
      cases h
      exact ⟨hen, .quiet rfl rfl⟩
    | true => cases h

theorem handleConn_forward {p : ProxyHandler T} {id : ConnKey} {a : Addr}
    {r : Int} (h : p.handleConn id = .forward a r) :
    a = p.actualDstIP id ∧ r = p.lookupResourceId id.dest := by
  have hboth : ∀ o : ConnOutcome, o = .forward (p.actualDstIP id) (p.lookupResourceId id.dest) →
      o = .forward a r → a = p.actualDstIP id ∧ r = p.lookupResourceId id.dest := by
    intro o ho ho'
    rw [ho] at ho'
    cases ho'
    exact ⟨rfl, rfl⟩
  unfold handleConn handleTCPConn handleUDPConn at h
  by_cases htcp : id.proto = tcpProto
  · cases hb : p.blocked <;> cases hr : p.httpRoute id <;> simp only [htcp, hb, hr, if_true] at h
    all_goals first | exact hboth _ rfl h | cases h
  · cases hb : p.blocked <;> simp only [htcp, hb, if_false, if_true] at h
    all_goals first | exact hboth _ rfl h | cases h

theorem stepCase_start {i : Nat} {c : Conn} (hen : s.proxy.enabled = true)
    (hc : s.conns[i]? = some c) (h : s.onStart i c = some s') :
    s'.proxy.enabled = true ∧ StepCase s (.start i) s' := by
  unfold onStart at h
  by_cases hp : c.phase = .pending
  · rw [if_pos hp] at h
    cases ho : s.proxy.handleConn c.seen with
    | http rule =>
      simp only [ho] at h
      cases h
      exact ⟨hen, .serve i c rfl hc hp _ (.inl ⟨rule, ho, rfl⟩) rfl rfl⟩
    | forward a r =>
      simp only [ho] at h
      cases h
      obtain ⟨ha, hr⟩ := handleConn_forward ho
      exact ⟨hen, .serve i c rfl hc hp _ (.inr (.inl (by rw [ha, hr]))) rfl rfl⟩
    | closed =>
      simp only [ho] at h
      by_cases htcp : c.seen.proto = tcpProto
      · simp only [htcp, if_true] at h
        cases h
        exact ⟨hen, .serve i c rfl hc hp _ (.inr (.inr ⟨ho, htcp, rfl⟩)) rfl rfl⟩
      · simp only [htcp, if_false] at h
        cases h
        obtain ⟨hen', htables⟩ := release_enabled_tables hen c.seen
        exact ⟨hen', .release i c hc (.inl hp) htables rfl⟩
  · rw [if_neg hp] at h
    cases h

theorem stepCase_finish {i : Nat} {c : Conn} (hen : s.proxy.enabled = true)
    (hc : s.conns[i]? = some c) (h : s.onFinish i c = some s') :
    s'.proxy.enabled = true ∧ StepCase s (.finish i) s' := by
  unfold onFinish at h
  cases hp : c.phase with
  | raw a r =>
    simp only [hp] at h
    cases h
    obtain ⟨hen', htables⟩ := release_enabled_tables hen c.seen
    exact ⟨hen', .release i c hc (.inr ⟨a, r, hp⟩) htables rfl⟩
  | http rule =>
    simp only [hp] at h
    cases h
    exact ⟨hen, .httpDone i c hc ⟨rule, hp⟩ rfl rfl⟩
  | pending | returned =>
    simp only [hp] at h
    cases h

/-- **What a step can do.**  `NewProxyHandler` never gives a disabled handler,
and no step disables it. -/
theorem stepCase (hen : s.proxy.enabled = true) (h : s.step e = some s') :
    s'.proxy.enabled = true ∧ StepCase s e s' := by
  cases e with
  | changeRules op =>
    cases h
    have hkept : (s.proxy.changeRules op).enabled = true ∧
        (s.proxy.changeRules op).tables = s.proxy.tables := by
      simp [changeRules, hen]
    exact ⟨hkept.1, .quiet hkept.2 rfl⟩
  | setBlocked v =>
    cases h
    exact ⟨hen, .quiet rfl rfl⟩
  | packet dns bytes opens => exact stepCase_packet hen h
  | start i =>
    obtain ⟨c, hc, hs⟩ := Option.bind_eq_some_iff.mp h
    exact stepCase_start hen hc hs
  | finish i =>
    obtain ⟨c, hc, hs⟩ := Option.bind_eq_some_iff.mp h
    exact stepCase_finish hen hc hs

end Sys

/-- What holds of all connections whatever their phase still holds when one of
them changes its phase. -/
theorem Conn.forall_set_phase {P : Conn → Prop} {l : List Conn} {i : Nat} {c : Conn}
    {phase : Phase} (hP : ∀ c phase, P c → P { c with phase := phase })
    (hget : l[i]? = some c) (h : ∀ d ∈ l, P d) :
    ∀ d ∈ l.set i { c with phase := phase }, P d := by
  intro d hd
  rcases List.mem_or_eq_of_mem_set hd with hd | hd
  · exact h d hd
  · rw [hd]
    exact hP c phase (h c (List.mem_of_getElem? hget))

namespace Sys

variable {s s' : Sys T} {e : Event}

/-- What holds of every connection: it is TCP or UDP, to an IPv4 address, and
its handler sees it with the client's address and the ports. -/
structure WellFormed (s : Sys T) : Prop where
  enabled : s.proxy.enabled = true
  tracked : ∀ c ∈ s.conns, c.orig.Tracked
  dst4 : ∀ c ∈ s.conns, ∃ x, c.orig.dstIP = .v4 x
  side : ∀ c ∈ s.conns, c.seen.side = c.orig.side

omit [PrefixTable T] in
theorem Initial.not_mem (h : s.Initial) (c : Conn) : c ∉ s.conns := by
  rw [h.conns]
  exact List.not_mem_nil

omit [PrefixTable T] in
theorem wellFormed_initial (h : s.Initial) : s.WellFormed :=
  ⟨h.enabled, fun c hc => absurd hc (h.not_mem c), fun c hc => absurd hc (h.not_mem c),
    fun c hc => absurd hc (h.not_mem c)⟩

omit [PrefixTable T] in
/-- Well-formed connections stay so when one of them changes its phase. -/
theorem WellFormed.setPhase (h : s.WellFormed) {i : Nat} {c : Conn} {phase : Phase}
    (hen : s'.proxy.enabled = true) (hget : s.conns[i]? = some c)
    (hconns : s'.conns = s.conns.set i { c with phase := phase }) : s'.WellFormed := by
  refine ⟨hen, ?_, ?_, ?_⟩
  · rw [hconns]
    exact forall_set_phase (fun _ _ hd => hd) hget h.tracked
  · rw [hconns]
    exact forall_set_phase (fun _ _ hd => hd) hget h.dst4
  · rw [hconns]
    exact forall_set_phase (fun _ _ hd => hd) hget h.side

theorem WellFormed.step (h : s.WellFormed) (hs : s.step e = some s') : s'.WellFormed := by
  obtain ⟨hen, hcase⟩ := stepCase h.enabled hs
  cases hcase with
  | quiet _ hconns =>
    refine ⟨hen, ?_, ?_, ?_⟩ <;> rw [hconns]
    · exact h.tracked
    · exact h.dst4
    · exact h.side
  | packet dns bytes opens key rule _ hadm _ hafter =>
    obtain ⟨-, hdst, -⟩ := incomingKey_read hadm.key_eq
    refine ⟨hen, ?_, ?_, ?_⟩
    · exact hafter.forall_conns h.tracked hafter.tracked
    · exact hafter.forall_conns h.dst4 (fun _ => ⟨_, hdst⟩)
    · exact hafter.forall_conns h.side (fun _ => side_seenKey key _)
  | serve i c _ hget _ phase _ _ hconns
  | release i c hget _ _ hconns | httpDone i c hget _ _ hconns => exact h.setPhase hen hget hconns

/-- A connection from 10.0.0.1 to 10.0.0.5:80 that is opened and served. -/
def openAndServe (sport : UInt16) (i : Nat) : List Event :=
  [.packet (fun _ => none) (tcpSegment 0x0A000001 0x0A000005 sport 80) true, .start i]

end Sys

end Newt

import Newt.ServedConns

/-!
# The address a handler dials

A TCP or UDP handler asks `destRewriteTable` for the address to dial, under the
5-tuple it sees and without the source port.  The table is only ever written,
and only when a connection without a NAT entry resolves its `RewriteTo`.  So
what a handler finds may have been stored for another connection, under a rule
that has changed since, or for a destination that only looks like the one this
connection was rewritten to.

`DialsAsResolved` is the condition on a step under which the table holds what
the handler needs; `raw_conn_dials_resolved` says that then every connection
that is served dials the address its rule's `RewriteTo` resolved to, and
`removed_rewriteTo_still_dialed` is a run of the code in which it does not.
-/

namespace Newt

open Function NatTables

open Netip Bytes IPv4Packet

/-- The address that is reached when a handler dials `fmt.Sprintf("%s:%d", …)`
of an address and a port.  The text of an IPv6 address has colons of its own
and is not put into brackets, so such a text has too many colons and the dial
fails. -/
def dialAddr : Addr → Option Addr
  | .v4 x => some (.v4 x)
  | _ => none

/-- The address a connection should be forwarded to: what `RewriteTo` of the
rule that admitted it resolved to, or the original destination without
`RewriteTo`.  Nothing is asked where the resolution failed. -/
def Conn.expectedDst (c : Conn) : Option Addr :=
  if c.rule.rewriteTo = "" then some c.orig.dstIP else c.resolved.map Addr.unmap

/-- Dialing `a` reaches the address the connection should be forwarded to. -/
def Conn.DialsRight (c : Conn) (a : Addr) : Prop :=
  ∀ dst ∈ c.expectedDst, dialAddr a = some dst
  deriving Decidable

/-- What the tables must hold when a packet opens a connection:

* without `RewriteTo`, nothing else is stored under the key its handler asks;
* with a `RewriteTo` that resolves to `a`, `a` is a plain IPv4 address, an
  existing NAT entry is for `a`, and what is stored under the key the handler
  asks is `a`, unless this packet stores it. -/
def NatTables.ReadyFor (t : NatTables) (dns : Resolver) (rule : SubnetRule) (key : ConnKey) :
    Prop :=
  if rule.rewriteTo = "" then ∀ b ∈ t.destRewriteTable key.dest, b = key.dstIP
  else
    ∀ a ∈ resolveRewriteAddress dns rule.rewriteTo,
      a.is4 = true ∧ (∀ e ∈ t.natTable key, e.rewrittenTo = a) ∧
        if a.isLoopback then t.natTable key = none ∨ t.destRewriteTable key.dest = some a
        else (t.natTable key = none ∧ a = key.dstIP) ∨
          ∀ b ∈ t.destRewriteTable (key.withDst a).dest, b = a
  deriving Decidable

/-- The table entry, or else the address the handler sees, is `a`. -/
theorem getD_eq_of_forall {o : Option Addr} {a : Addr} (h : ∀ b ∈ o, b = a) : o.getD a = a := by
  cases o with
  | none => rfl
  | some b => exact h b rfl

/-- With a `RewriteTo` that resolves to `a`, the handler of the connection finds
`a` after the packet that opens it. -/
theorem NatTables.ReadyFor.lookup {t : NatTables} {dns : Resolver} {rule : SubnetRule}
    {key : ConnKey} {a : Addr} (hready : t.ReadyFor dns rule key) (hr : rule.rewriteTo ≠ "")
    (ha : resolveRewriteAddress dns rule.rewriteTo = some a) :
    let seen := seenKey key (t.target (resolveRewriteAddress dns) rule key)
    ((t.record (resolveRewriteAddress dns) rule key).1.served seen).1 = a := by
  intro seen
  show (_ : Option Addr).getD seen.dstIP = a
  unfold NatTables.ReadyFor at hready
  rw [if_neg hr] at hready
  obtain ⟨h4, hentry, hstored⟩ := hready a ha
  obtain ⟨y, rfl⟩ := Addr.is4_iff.mp h4
  have htarget : t.target (resolveRewriteAddress dns) rule key = some (.v4 y) := by
    cases hn : t.natTable key with
    | none => simp [target, hr, hn, ha]
    | some e => simp [target, hr, hn, hentry e hn]
  have hseen : seen = if (Addr.v4 y).isLoopback then key else key.withDst (.v4 y) := by
    simp only [seen, htarget, seenKey, Addr.as4_v4]
  -- what the packet leaves under the keys the handler may ask
  generalize htable : (t.record (resolveRewriteAddress dns) rule key).1.destRewriteTable = table
  obtain ⟨hown, hother⟩ : (t.natTable key = none ∨ t.destRewriteTable key.dest = some (.v4 y) →
      table key.dest = some (.v4 y)) ∧
      ∀ k, (∀ b ∈ t.destRewriteTable k, b = .v4 y) → ∀ b ∈ table k, b = .v4 y := by
    cases hn : t.natTable key with
    | none =>
      rw [(record_of_fresh (fresh_eq_some_iff.mpr ⟨hr, hn, ha⟩)).2.2] at htable
      subst htable
      refine ⟨fun _ => update_self .., fun k hk b hb => ?_⟩
      rw [update_apply] at hb
      split at hb
      · exact (Option.some.inj hb).symm
      · exact hk b hb
    | some e =>
      have hfresh : t.fresh (resolveRewriteAddress dns) rule key = none := by simp [fresh, hr, hn]
      rw [(record_of_not_fresh hfresh).2.2] at htable
      subst htable
      exact ⟨fun h => h.resolve_left (by simp), fun k hk => hk⟩
  cases hloop : (Addr.v4 y).isLoopback with
  | true =>
    rw [hloop, if_pos rfl] at hseen hstored
    rw [hseen, hown hstored]
    rfl
  | false =>
    rw [hloop, if_neg (by decide)] at hseen hstored
    rcases hstored with ⟨hnone, hdst⟩ | hstored
    · rw [hdst, ConnKey.withDst_dstIP] at hseen
      rw [hseen, hown (.inl hnone)]
      rfl
    · rw [hseen]
      exact getD_eq_of_forall (hother _ hstored)

open Conn

/-- **A ready table serves the connection that opens on it.** -/
theorem NatTables.ReadyFor.dialsRight {t : NatTables} {dns : Resolver} {rule : SubnetRule}
    {key : ConnKey} {x : BitVec 32} (hready : t.ReadyFor dns rule key) (hdst : key.dstIP = .v4 x) :
    let seen := seenKey key (t.target (resolveRewriteAddress dns) rule key)
    (opened dns rule key seen).DialsRight
      ((t.record (resolveRewriteAddress dns) rule key).1.served seen).1 := by
  intro seen dst hmem
  by_cases hr : rule.rewriteTo = ""
  · have hexp : dst = key.dstIP := by simpa [expectedDst, opened, hr, eq_comm] using hmem
    have hseen : seen = key := by simp [seen, target, hr, seenKey]
    have hfresh : t.fresh (resolveRewriteAddress dns) rule key = none := by simp [fresh, hr]
    unfold NatTables.ReadyFor at hready
    rw [if_pos hr] at hready
    show dialAddr ((_ : Option Addr).getD seen.dstIP) = some dst
    rw [hseen, (record_of_not_fresh hfresh).2.2, getD_eq_of_forall hready, hexp, hdst]
    rfl
  · cases ha : resolveRewriteAddress dns rule.rewriteTo with
    | none => simp [expectedDst, opened, hr, ha] at hmem
    | some a =>
      have hlookup := hready.lookup hr ha
      have h4 : a.is4 = true := by
        unfold NatTables.ReadyFor at hready
        rw [if_neg hr] at hready
        exact (hready a ha).1
      obtain ⟨y, hy⟩ := Addr.is4_iff.mp h4
      have hexp : dst = a.unmap := by
        simpa [expectedDst, opened, hr, ha, eq_comm] using hmem
      rw [hlookup, hexp, hy]
      rfl

variable {T : Type → Type} [PrefixTable T]

namespace Sys

/-- The condition on a step: a packet that opens a connection finds the tables
ready for it, and a packet that stores an address under the key of a connection
whose handler has not started stores the one that connection expects. -/
def DialsAsResolved (s : Sys T) : Event → Prop
  | .packet dns bytes opens =>
    ∀ kr ∈ s.proxy.admission bytes,
      (opens = true → s.proxy.tables.ReadyFor dns kr.2 kr.1) ∧
        ∀ a ∈ s.proxy.tables.fresh (resolveRewriteAddress dns) kr.2 kr.1,
          ∀ c ∈ s.conns, c.phase = .pending → c.seen.dest = kr.1.dest → c.DialsRight a
  | _ => True

instance (s : Sys T) : ∀ e, Decidable (s.DialsAsResolved e)
  | .packet _ _ _ => by unfold DialsAsResolved; infer_instance
  | .changeRules _ | .setBlocked _ | .start _ | .finish _ => isTrue trivial

variable {s : Sys T}

/-- **A packet that meets the condition** leaves every handler that has not
started with the right address to dial. -/
theorem DialsAsResolved.packetGood {dns : Resolver} {bytes : ByteString} {opens : Bool}
    {key : ConnKey} {rule : SubnetRule} (hc : s.DialsAsResolved (.packet dns bytes opens))
    (hadm : s.proxy.Admits bytes key rule) :
    s.PacketGood (fun c x => c.DialsRight x.1) dns opens rule key := by
  obtain ⟨hready, hother⟩ := hc (key, rule) hadm.mem_admission
  refine ⟨?_, ?_⟩
  · intro c hmem hp hbefore
    show c.DialsRight ((_ : Option Addr).getD c.seen.dstIP)
    cases hf : s.proxy.tables.fresh (resolveRewriteAddress dns) rule key with
    | none =>
      rw [(record_of_not_fresh hf).2.2]
      exact hbefore
    | some a =>
      rw [(record_of_fresh hf).2.2]
      by_cases hk : c.seen.dest = key.dest
      · rw [hk, update_self]
        exact hother a hf c hmem hp hk
      · rw [update_of_ne hk]
        exact hbefore
  · intro hopen
    obtain ⟨-, hdst, -⟩ := incomingKey_read hadm.key_eq
    exact (hready hopen).dialsRight hdst

/-- **Connections dial what their rule resolved to.**  In every run from a proxy
with empty tables in which every step meets the condition, a connection that is
being served dials the address `RewriteTo` of the rule that admitted its first
packet resolved to, or its original destination when that rule has none. -/
theorem raw_conn_dials_resolved {s₀ s : Sys T} {es : List Event} (hinit : s₀.Initial)
    (hmeets : Runs.Meets step DialsAsResolved s₀ es) (hrun : Runs.run step s₀ es = some s)
    {c : Conn} (hc : c ∈ s.conns) {actualDstIP : Addr} {resourceId : Int}
    (hraw : c.phase = .raw actualDstIP resourceId) :
    ∀ dst, c.expectedDst = some dst → dialAddr actualDstIP = some dst := by
  have hinv : s.Serves (fun c x => c.DialsRight x.1) :=
    serves_of_run (fun _ _ _ h => h) (fun hc hadm => hc.packetGood hadm) hinit hmeets hrun
  intro dst hdst
  exact hinv.raw c hc actualDstIP resourceId hraw dst hdst

/-- Under a rule that rewrites to 192.168.1.10 the first connection meets the
condition and dials that address. -/
theorem first_conn_dials_rewriteTo :
    ∃ (s : Sys ListTable) (c : Conn),
      Runs.run step fresh (.changeRules (.add (hostRule 0x0A000005 "192.168.1.10/32")) ::
        openAndServe 1000 0) = some s ∧
      s.conns = [c] ∧ c.phase = .raw (.v4 0xC0A8010A) 0 ∧
      ∀ dst, c.expectedDst = some dst → dialAddr (.v4 0xC0A8010A) = some dst := by
  have hmeets : Runs.Meets step DialsAsResolved (fresh : Sys ListTable)
      (.changeRules (.add (hostRule 0x0A000005 "192.168.1.10/32")) :: openAndServe 1000 0) := by
    decide
  refine ⟨_, _, rfl, rfl, rfl, ?_⟩
  exact raw_conn_dials_resolved initial_fresh hmeets rfl (List.mem_singleton_self _) rfl

/-- **A removed `RewriteTo` is still dialed.**  The rule rewrites 10.0.0.5 to
192.168.1.10 while a first connection is served; then `RewriteTo` is removed.
The next connection, from another port, is admitted by the rule without
`RewriteTo` and should go to 10.0.0.5, but its handler dials 192.168.1.10. -/
theorem removed_rewriteTo_still_dialed :
    ∃ (s : Sys ListTable) (c d : Conn),
      Runs.run step fresh
        (.changeRules (.add (hostRule 0x0A000005 "192.168.1.10/32")) :: openAndServe 1000 0 ++
          .changeRules (.add (hostRule 0x0A000005 "")) :: openAndServe 1001 1) = some s ∧
      s.conns = [d, c] ∧ c.rule = hostRule 0x0A000005 "" ∧
      c.expectedDst = some (.v4 0x0A000005) ∧ c.phase = .raw (.v4 0xC0A8010A) 0 ∧
      dialAddr (.v4 0xC0A8010A) ≠ c.expectedDst := by
  refine ⟨_, _, _, rfl, rfl, ?_⟩
  decide

end Sys

end Newt

import Newt.ServedConns

/-!
# The resource a connection is accounted to

`resourceTable` is keyed like `destRewriteTable`, without the source port.  A
packet stores a non-zero resource ID under the original destination, and under
the rewritten one only together with a new NAT entry.  Nothing is ever removed
and a rule without resource ID stores nothing, so a handler may find an ID that
another connection or an earlier rule has left.

`AccountsForRule` is the condition on a step under which the table holds what
the handler needs; `raw_conn_accounts_for_rule` is the property of whole runs
and `stale_resource_id` a run of the code that breaks it.
-/

namespace Newt

open NatTables

open Netip Bytes IPv4Packet

/-- What the tables must hold when a packet opens a connection.  Without a
resource ID, none is stored under the key the handler asks.  With one, the
packet is not rewritten, or it stores a new NAT entry for a plain IPv4 address,
or the ID is there already. -/
def NatTables.AccountsFor (t : NatTables) (dns : Resolver) (rule : SubnetRule) (key : ConnKey) :
    Prop :=
  let target := t.target (resolveRewriteAddress dns) rule key
  if rule.resourceId = 0 then t.lookupResourceId (seenKey key target).dest = 0
  else
    seenKey key target = key ∨ (t.natTable key = none ∧ ∀ a ∈ target, a.is4 = true) ∨
      t.lookupResourceId (seenKey key target).dest = rule.resourceId
  deriving Decidable

/-- The packet stores a resource ID under the given key. -/
def NatTables.StoresUnder (t : NatTables) (dns : Resolver) (rule : SubnetRule) (key : ConnKey)
    (k : DestKey) : Prop :=
  rule.resourceId ≠ 0 ∧
    (k = key.dest ∨ ∃ a ∈ t.fresh (resolveRewriteAddress dns) rule key, k = (key.withDst a).dest)
  deriving Decidable

theorem NatTables.lookupResourceId_record_eq {t : NatTables} {dns : Resolver} {rule : SubnetRule}
    {key : ConnKey} (k : DestKey) :
    (t.record (resolveRewriteAddress dns) rule key).1.lookupResourceId k =
      if t.StoresUnder dns rule key k then rule.resourceId else t.lookupResourceId k :=
  lookupResourceId_record k

/-- **A ready table serves the connection that opens on it.** -/
theorem NatTables.AccountsFor.lookup {t : NatTables} {dns : Resolver} {rule : SubnetRule}
    {key : ConnKey} (h : t.AccountsFor dns rule key) :
    (t.record (resolveRewriteAddress dns) rule key).1.lookupResourceId
      (seenKey key (t.target (resolveRewriteAddress dns) rule key)).dest = rule.resourceId := by
  rw [lookupResourceId_record_eq]
  unfold NatTables.AccountsFor at h
  by_cases hid : rule.resourceId = 0
  · rw [if_neg (fun hst => hst.1 hid), hid]
    simpa [hid] using h
  · simp only [hid, if_false] at h
    by_cases hst : t.StoresUnder dns rule key
        (seenKey key (t.target (resolveRewriteAddress dns) rule key)).dest
    · rw [if_pos hst]
    · rw [if_neg hst]
      rcases h with heq | ⟨hnone, h4⟩ | hstored
      · exact absurd ⟨hid, .inl (congrArg ConnKey.dest heq)⟩ hst
      · -- The new NAT entry comes with the ID under the rewritten key.
        rcases seenKey_cases key (t.target (resolveRewriteAddress dns) rule key) with
          heq | ⟨newDst, x, htarget, -, hx, heq⟩
        · exact absurd ⟨hid, .inl (congrArg ConnKey.dest heq)⟩ hst
        · have hfresh : t.fresh (resolveRewriteAddress dns) rule key = some newDst := by
            cases hf : t.fresh (resolveRewriteAddress dns) rule key with
            | none =>
              obtain ⟨e, he, -⟩ := target_of_not_fresh htarget hf
              rw [hnone] at he
              cases he
            | some a => rw [← target_of_fresh hf, htarget]
          obtain ⟨y, hy⟩ := Addr.is4_iff.mp (h4 newDst htarget)
          have hdst : newDst = .v4 x := by
            rw [hy, Addr.as4_v4] at hx
            rw [hy, Option.some.inj hx]
          exact absurd ⟨hid, .inr ⟨newDst, hfresh, by rw [heq, hdst]⟩⟩ hst
      · exact hstored

variable {T : Type → Type} [PrefixTable T]

namespace Sys

/-- The condition on a step: a packet that opens a connection finds the tables
ready for it, and a packet that stores a resource ID under the key of a
connection whose handler has not started stores that connection's. -/
def AccountsForRule (s : Sys T) : Event → Prop
  | .packet dns bytes opens =>
    ∀ kr ∈ s.proxy.admission bytes,
      (opens = true → s.proxy.tables.AccountsFor dns kr.2 kr.1) ∧
        ∀ c ∈ s.conns, c.phase = .pending →
          s.proxy.tables.StoresUnder dns kr.2 kr.1 c.seen.dest →
            kr.2.resourceId = c.rule.resourceId
  | _ => True

instance (s : Sys T) : ∀ e, Decidable (s.AccountsForRule e)
  | .packet _ _ _ => by unfold AccountsForRule; infer_instance
  | .changeRules _ | .setBlocked _ | .start _ | .finish _ => isTrue trivial

variable {s : Sys T}

/-- **A packet that meets the condition** leaves every handler that has not
started with the resource ID of its rule. -/
theorem AccountsForRule.packetGood {dns : Resolver} {bytes : ByteString} {opens : Bool}
    {key : ConnKey} {rule : SubnetRule} (hc : s.AccountsForRule (.packet dns bytes opens))
    (hadm : s.proxy.Admits bytes key rule) :
    s.PacketGood (fun c x => x.2 = c.rule.resourceId) dns opens rule key := by
  obtain ⟨hready, hother⟩ := hc (key, rule) hadm.mem_admission
  refine ⟨?_, fun hopen => (hready hopen).lookup⟩
  intro c hmem hp hbefore
  show lookupResourceId _ c.seen.dest = c.rule.resourceId
  rw [lookupResourceId_record_eq]
  by_cases hst : s.proxy.tables.StoresUnder dns rule key c.seen.dest
  · rw [if_pos hst]
    exact hother c hmem hp hst
  · rw [if_neg hst]
    exact hbefore

/-- **Connections are accounted to their rule.**  In every run from a proxy with
empty tables in which every step meets the condition, the resource ID a handler
obtains for a connection it serves is that of the rule that admitted the
connection's first packet (0 when that rule has none). -/
theorem raw_conn_accounts_for_rule {s₀ s : Sys T} {es : List Event} (hinit : s₀.Initial)
    (hmeets : Runs.Meets step AccountsForRule s₀ es) (hrun : Runs.run step s₀ es = some s)
    {c : Conn} (hc : c ∈ s.conns) {actualDstIP : Addr} {resourceId : Int}
    (hraw : c.phase = .raw actualDstIP resourceId) : resourceId = c.rule.resourceId := by
  have hinv : s.Serves (fun c x => x.2 = c.rule.resourceId) :=
    serves_of_run (fun _ _ _ h => h) (fun hc hadm => hc.packetGood hadm) hinit hmeets hrun
  exact hinv.raw c hc actualDstIP resourceId hraw

/-- The rule for 10.0.0.5 with a resource ID. -/
def resourceRule (resourceId : Int) : SubnetRule :=
  { hostRule 0x0A000005 "192.168.1.10/32" with resourceId := resourceId }

/-- The first connection under a rule that rewrites meets the condition. -/
theorem first_conn_accounted :
    ∃ (s : Sys ListTable) (c : Conn),
      Runs.run step fresh (.changeRules (.add (resourceRule 7)) :: openAndServe 1000 0) = some s ∧
      s.conns = [c] ∧ c.phase = .raw (.v4 0xC0A8010A) 7 ∧ (7 : Int) = c.rule.resourceId := by
  have hmeets : Runs.Meets step AccountsForRule (fresh : Sys ListTable)
      (.changeRules (.add (resourceRule 7)) :: openAndServe 1000 0) := by decide
  refine ⟨_, _, rfl, rfl, rfl, ?_⟩
  exact raw_conn_accounts_for_rule initial_fresh hmeets rfl (List.mem_singleton_self _) rfl

/-- **A resource ID that outlives its rule.**  A first connection is served
under a rule with resource ID 7, then the rule loses its ID.  The next
connection, from another port, is admitted by the rule without ID, but its
handler obtains 7. -/
theorem stale_resource_id :
    ∃ (s : Sys ListTable) (c d : Conn),
      Runs.run step fresh
        (.changeRules (.add (resourceRule 7)) :: openAndServe 1000 0 ++
          .changeRules (.add (resourceRule 0)) :: openAndServe 1001 1) = some s ∧
      s.conns = [d, c] ∧ c.rule.resourceId = 0 ∧ c.phase = .raw (.v4 0xC0A8010A) 7 := by
  refine ⟨_, _, _, rfl, rfl, ?_⟩
  decide +kernel

end Sys

end Newt

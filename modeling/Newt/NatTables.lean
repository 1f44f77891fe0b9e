import Mathlib.Logic.Function.Basic
import Newt.SubnetLookup

/-!
# The NAT tables of the proxy

The four maps of `ProxyHandler` that `natMu` guards: the NAT table, its reverse
lookup map, the rewritten destinations and the resource IDs.  The keys hold
addresses where the source holds their text; `String` of a valid address is
injective, so the maps are the same.

`record` is what `HandleIncomingPacket` does to the tables once a rule has
matched.  Its effect on each table depends on the earlier tables only through
`fresh` (the address resolved for a connection that has no entry yet), and the
packet is sent on to `target`.
-/

namespace Newt

open Netip Function

/-- `connKey`: the 5-tuple of a connection. -/
structure ConnKey where
  srcIP : Addr
  srcPort : UInt16
  dstIP : Addr
  dstPort : UInt16
  proto : UInt8
  deriving DecidableEq, Repr

/-- `reverseConnKey`: what a reply packet shows of a connection. -/
structure ReverseConnKey where
  rewrittenTo : Addr
  originalSrcIP : Addr
  originalSrcPort : UInt16
  originalDstPort : UInt16
  proto : UInt8
  deriving DecidableEq, Repr

/-- `destKey`: a connection without its source port. -/
structure DestKey where
  srcIP : Addr
  dstIP : Addr
  dstPort : UInt16
  proto : UInt8
  deriving DecidableEq, Repr

/-- `natState`. -/
structure NatState where
  originalDst : Addr
  rewrittenTo : Addr
  deriving DecidableEq, Repr

namespace ConnKey

/-- The same connection towards another destination address. -/
def withDst (k : ConnKey) (dst : Addr) : ConnKey :=
  { k with dstIP := dst }

/-- Everything but the destination address. -/
def side (k : ConnKey) : Addr × UInt16 × UInt16 × UInt8 :=
  (k.srcIP, k.srcPort, k.dstPort, k.proto)

/-- The key under which replies from `rewrittenTo` are found. -/
def reverse (k : ConnKey) (rewrittenTo : Addr) : ReverseConnKey :=
  { rewrittenTo, originalSrcIP := k.srcIP, originalSrcPort := k.srcPort,
    originalDstPort := k.dstPort, proto := k.proto }

/-- The key of the handler lookups. -/
def dest (k : ConnKey) : DestKey :=
  { srcIP := k.srcIP, dstIP := k.dstIP, dstPort := k.dstPort, proto := k.proto }

@[simp] theorem side_withDst (k : ConnKey) (a : Addr) : (k.withDst a).side = k.side := rfl

@[simp] theorem dstIP_withDst (k : ConnKey) (a : Addr) : (k.withDst a).dstIP = a := rfl

@[simp] theorem withDst_dstIP (k : ConnKey) : k.withDst k.dstIP = k := rfl

@[simp] theorem proto_withDst (k : ConnKey) (a : Addr) : (k.withDst a).proto = k.proto := rfl

theorem eq_iff {k k' : ConnKey} : k = k' ↔ k.side = k'.side ∧ k.dstIP = k'.dstIP := by
  cases k
  cases k'
  simp only [side, mk.injEq, Prod.mk.injEq]
  tauto

theorem reverse_eq_iff {k k' : ConnKey} {a a' : Addr} :
    k.reverse a = k'.reverse a' ↔ k.side = k'.side ∧ a = a' := by
  simp only [reverse, side, ReverseConnKey.mk.injEq, Prod.mk.injEq]
  tauto

end ConnKey

/-- The tables behind `natMu`. -/
structure NatTables where
  natTable : ConnKey → Option NatState
  reverseNatTable : ReverseConnKey → Option NatState
  destRewriteTable : DestKey → Option Addr
  resourceTable : DestKey → Option Int

namespace NatTables

def empty : NatTables :=
  { natTable := fun _ => none, reverseNatTable := fun _ => none,
    destRewriteTable := fun _ => none, resourceTable := fun _ => none }

/-- Store a resource ID, unless it is 0. -/
def storeResource (t : NatTables) (k : DestKey) (resourceId : Int) : NatTables :=
  if resourceId ≠ 0 then
    { t with resourceTable := update t.resourceTable k (some resourceId) }
  else t

/-- The NAT state of a new connection, under all its keys. -/
def storeEntry (t : NatTables) (key : ConnKey) (newDst : Addr) (resourceId : Int) : NatTables :=
  let natEntry : NatState := { originalDst := key.dstIP, rewrittenTo := newDst }
  let t : NatTables :=
    { t with
      natTable := update t.natTable key (some natEntry)
      reverseNatTable := update t.reverseNatTable (key.reverse newDst) (some natEntry)
      destRewriteTable := update t.destRewriteTable key.dest (some newDst) }
  t.storeResource (key.withDst newDst).dest resourceId

/-- The part of `HandleIncomingPacket` under a rule with `RewriteTo`: the
address the connection is rewritten to, `none` when it cannot be resolved. -/
def translate (resolve : String → Option Addr) (rule : SubnetRule) (key : ConnKey)
    (t : NatTables) : NatTables × Option Addr :=
  let t := t.storeResource key.dest rule.resourceId
  match t.natTable key with
  | some existingEntry => (t, some existingEntry.rewrittenTo)
  | none =>
    match resolve rule.rewriteTo with
    | none => (t, none)
    | some newDst => (t.storeEntry key newDst rule.resourceId, some newDst)

/-- What `HandleIncomingPacket` does to the tables under a matched rule, and
the address the packet is rewritten to, if any. -/
def record (resolve : String → Option Addr) (rule : SubnetRule) (key : ConnKey)
    (t : NatTables) : NatTables × Option Addr :=
  let t := if rule.rewriteTo = "" then t.storeResource key.dest rule.resourceId else t
  if rule.rewriteTo ≠ "" then t.translate resolve rule key else (t, none)

/-- `releaseConnectionState`. -/
def releaseConnectionState (t : NatTables) (key : ConnKey) : NatTables :=
  match t.natTable key with
  | none => t
  | some entry =>
    { t with
      natTable := update t.natTable key none
      reverseNatTable :=
        update t.reverseNatTable (key.reverse entry.rewrittenTo) none }

/-- `LookupDestinationRewrite`. -/
def lookupDestinationRewrite (t : NatTables) (key : DestKey) : Option Addr :=
  t.destRewriteTable key

/-- `LookupResourceId`: 0 where the map has no entry. -/
def lookupResourceId (t : NatTables) (key : DestKey) : Int :=
  (t.resourceTable key).getD 0

section Record

/-- The address a packet is rewritten to, read off the tables before it. -/
def target (resolve : String → Option Addr) (rule : SubnetRule) (key : ConnKey)
    (t : NatTables) : Option Addr :=
  if rule.rewriteTo = "" then none
  else
    match t.natTable key with
    | some entry => some entry.rewrittenTo
    | none => resolve rule.rewriteTo

/-- The address a packet resolves for a connection without an entry. -/
def fresh (resolve : String → Option Addr) (rule : SubnetRule) (key : ConnKey)
    (t : NatTables) : Option Addr :=
  if rule.rewriteTo = "" then none
  else
    match t.natTable key with
    | some _ => none
    | none => resolve rule.rewriteTo

variable {resolve : String → Option Addr} {rule : SubnetRule} {key : ConnKey} {t : NatTables}

/-- The other tables stay as they are. -/
@[simp] theorem storeResource_tables (k : DestKey) (i : Int) :
    (t.storeResource k i).natTable = t.natTable ∧
      (t.storeResource k i).reverseNatTable = t.reverseNatTable ∧
      (t.storeResource k i).destRewriteTable = t.destRewriteTable := by
  unfold storeResource
  split <;> exact ⟨rfl, rfl, rfl⟩

theorem lookupResourceId_storeResource (k k' : DestKey) (i : Int) :
    (t.storeResource k i).lookupResourceId k' =
      if k' = k ∧ i ≠ 0 then i else t.lookupResourceId k' := by
  unfold storeResource lookupResourceId
  by_cases hi : i = 0
  · simp [hi]
  · by_cases hk : k' = k
    · simp [hi, hk]
    · simp [hi, hk, update_of_ne]

variable {a : Addr}

theorem fresh_eq_some_iff :
    fresh resolve rule key t = some a ↔
      rule.rewriteTo ≠ "" ∧ t.natTable key = none ∧ resolve rule.rewriteTo = some a := by
  unfold fresh
  by_cases hr : rule.rewriteTo = ""
  · simp [hr]
  · cases he : t.natTable key <;> simp [hr]

/-- An address that is freshly resolved is the target. -/
theorem target_of_fresh (h : fresh resolve rule key t = some a) :
    target resolve rule key t = some a := by
  obtain ⟨hr, he, ha⟩ := fresh_eq_some_iff.mp h
  simp [target, hr, he, ha]

/-- A target that is not freshly resolved comes out of the NAT table. -/
theorem target_of_not_fresh (h : target resolve rule key t = some a)
    (hf : fresh resolve rule key t = none) : ∃ e, t.natTable key = some e ∧ e.rewrittenTo = a := by
  unfold target at h
  unfold fresh at hf
  by_cases hr : rule.rewriteTo = ""
  · simp [hr] at h
  · cases he : t.natTable key with
    | none =>
      simp only [hr, if_false, he] at h hf
      rw [h] at hf
      exact absurd hf (Option.some_ne_none a)
    | some e => exact ⟨e, rfl, by simpa [hr, he] using h⟩

/-- **What a matched packet does to the tables**: the resource ID under the
original key, and, when an address is freshly resolved, the new entry. -/
theorem record_eq :
    t.record resolve rule key =
      ((match fresh resolve rule key t with
        | none => t.storeResource key.dest rule.resourceId
        | some a => (t.storeResource key.dest rule.resourceId).storeEntry key a rule.resourceId),
        target resolve rule key t) := by
  unfold record target fresh
  by_cases hr : rule.rewriteTo = ""
  · simp [hr]
  · simp only [hr, ne_eq, not_false_eq_true, if_true, if_false, translate, storeResource_tables]
    cases t.natTable key with
    | some e => rfl
    | none => cases resolve rule.rewriteTo <;> rfl

theorem record_snd : (t.record resolve rule key).2 = target resolve rule key t := by rw [record_eq]

/-- A freshly resolved address goes into the three tables. -/
theorem record_of_fresh (h : fresh resolve rule key t = some a) :
    (t.record resolve rule key).1.natTable =
        update t.natTable key (some { originalDst := key.dstIP, rewrittenTo := a }) ∧
      (t.record resolve rule key).1.reverseNatTable =
        update t.reverseNatTable (key.reverse a)
          (some { originalDst := key.dstIP, rewrittenTo := a }) ∧
      (t.record resolve rule key).1.destRewriteTable =
        update t.destRewriteTable key.dest (some a) := by simp [record_eq, h, storeEntry]

/-- Without a freshly resolved address the three tables stay as they are. -/
theorem record_of_not_fresh (h : fresh resolve rule key t = none) :
    (t.record resolve rule key).1.natTable = t.natTable ∧
      (t.record resolve rule key).1.reverseNatTable = t.reverseNatTable ∧
      (t.record resolve rule key).1.destRewriteTable = t.destRewriteTable := by simp [record_eq, h]

/-- The NAT entries after a packet: those from before, and the new one. -/
theorem record_natTable_eq_some_iff {k : ConnKey} {e : NatState} :
    (t.record resolve rule key).1.natTable k = some e ↔
      t.natTable k = some e ∨ (k = key ∧ e.originalDst = key.dstIP ∧
        fresh resolve rule key t = some e.rewrittenTo) := by
  cases hf : fresh resolve rule key t with
  | none => simp [record_of_not_fresh hf]
  | some a =>
    rw [(record_of_fresh hf).1]
    by_cases hk : k = key
    · obtain ⟨-, hnone, -⟩ := fresh_eq_some_iff.mp hf
      cases e
      simp [hk, hnone, eq_comm]
    · simp [hk]

/-- The resource ID a lookup finds after a packet. -/
theorem lookupResourceId_record (k : DestKey) :
    (t.record resolve rule key).1.lookupResourceId k =
      if rule.resourceId ≠ 0 ∧ (k = key.dest ∨
          ∃ a, fresh resolve rule key t = some a ∧ k = (key.withDst a).dest)
      then rule.resourceId else t.lookupResourceId k := by
  rw [record_eq]
  cases hf : fresh resolve rule key t with
  | none =>
    simp only [lookupResourceId_storeResource]
    by_cases hk : k = key.dest <;> simp [hk]
  | some a =>
    have hentry : ((t.storeResource key.dest rule.resourceId).storeEntry key a
        rule.resourceId).lookupResourceId k =
        if k = (key.withDst a).dest ∧ rule.resourceId ≠ 0 then rule.resourceId
        else (t.storeResource key.dest rule.resourceId).lookupResourceId k := by
      unfold storeEntry
      rw [lookupResourceId_storeResource]
      rfl
    simp only [hentry, lookupResourceId_storeResource, Option.some.injEq, exists_eq_left']
    by_cases hk : k = key.dest <;> by_cases hk' : k = (key.withDst a).dest <;>
      by_cases hi : rule.resourceId = 0 <;> simp [hk, hk', hi]

end Record

section Release

variable {t : NatTables} {key : ConnKey}

theorem release_of_none (h : t.natTable key = none) : t.releaseConnectionState key = t := by
  simp [releaseConnectionState, h]

theorem release_natTable :
    (t.releaseConnectionState key).natTable = update t.natTable key none := by
  cases h : t.natTable key with
  | none => rw [release_of_none h, ← h, update_eq_self]
  | some e => simp [releaseConnectionState, h]

/-- The NAT entries after a release: all but the released one. -/
theorem release_natTable_eq_some_iff {k : ConnKey} {e : NatState} :
    (t.releaseConnectionState key).natTable k = some e ↔ k ≠ key ∧ t.natTable k = some e := by
  rw [release_natTable]
  by_cases hk : k = key
  · simp [hk]
  · simp [hk]

theorem release_reverseNatTable {e : NatState} (h : t.natTable key = some e) :
    (t.releaseConnectionState key).reverseNatTable =
      update t.reverseNatTable (key.reverse e.rewrittenTo) none := by
  simp [releaseConnectionState, h]

/-- The tables of the handlers keep what they have. -/
theorem release_handlerTables :
    (t.releaseConnectionState key).destRewriteTable = t.destRewriteTable ∧
      (t.releaseConnectionState key).resourceTable = t.resourceTable := by
  cases h : t.natTable key <;> simp [releaseConnectionState, h]

end Release

section ReverseMatched

variable {resolve : String → Option Addr} {rule : SubnetRule} {key : ConnKey} {t : NatTables}

/-- Every entry of the reverse map belongs to an entry of the NAT table. -/
def ReverseMatched (t : NatTables) : Prop :=
  ∀ rk e, t.reverseNatTable rk = some e →
    ∃ k, rk = k.reverse e.rewrittenTo ∧ k.dstIP = e.originalDst ∧ t.natTable k = some e

theorem reverseMatched_empty : ReverseMatched empty := by
  intro rk e h
  cases h

theorem ReverseMatched.record (h : t.ReverseMatched) :
    (t.record resolve rule key).1.ReverseMatched := by
  cases hf : fresh resolve rule key t with
  | none =>
    obtain ⟨hnat, hrev, -⟩ := record_of_not_fresh hf
    intro rk e he
    rw [hrev] at he
    rw [hnat]
    exact h rk e he
  | some a =>
    intro rk e he
    rw [(record_of_fresh hf).2.1] at he
    by_cases hrk : rk = key.reverse a
    · rw [hrk, update_self] at he
      cases he
      exact ⟨key, hrk, rfl, record_natTable_eq_some_iff.mpr (Or.inr ⟨rfl, rfl, hf⟩)⟩
    · rw [update_of_ne hrk] at he
      obtain ⟨k, hk, hdst, hnat⟩ := h rk e he
      exact ⟨k, hk, hdst, record_natTable_eq_some_iff.mpr (Or.inl hnat)⟩

theorem ReverseMatched.release (h : t.ReverseMatched) :
    (t.releaseConnectionState key).ReverseMatched := by
  cases hkey : t.natTable key with
  | none =>
    rw [release_of_none hkey]
    exact h
  | some e₀ =>
    intro rk e he
    rw [release_reverseNatTable hkey] at he
    by_cases hrk : rk = key.reverse e₀.rewrittenTo
    · rw [hrk, update_self] at he
      cases he
    · rw [update_of_ne hrk] at he
      obtain ⟨k, hk, hdst, hnat⟩ := h rk e he
      have hne : k ≠ key := by
        intro heq
        rw [heq, hkey] at hnat
        cases hnat
        exact hrk (heq ▸ hk)
      exact ⟨k, hk, hdst, release_natTable_eq_some_iff.mpr ⟨hne, hnat⟩⟩

end ReverseMatched

end NatTables

end Newt

import Newt.SubnetRefinement

/-!
# What `Match` decides

The policy the nested search is for, stated over the flat list of live rules:
of the rules whose prefixes contain both addresses, ordered by longest source
prefix and then by longest destination prefix, ICMP is decided by the first,
any other protocol by the first that admits port and protocol.

The nested search walks the rules in exactly that order (`candidates_eq_applicable`):
its candidates are the applicable rules, and a pair of lengths names at most
one of them, because of the canonical prefixes of one length only one contains
a given address.  `matchRule_eq_referencePolicy` is the resulting equality, for
every reachable table, every pair of addresses, port and protocol number.
-/

namespace Newt

open Netip List SubnetLookup PrefixTable Prefix

/-- The live rules as a flat list: a new rule replaces the one with its key. -/
def liveAdd (live : List SubnetRule) (r : SubnetRule) : List SubnetRule :=
  live.filter (fun r' => r'.key ≠ r.key) ++ [r]

def liveApply (live : List SubnetRule) : RuleOp → List SubnetRule
  | .add r => liveAdd live r
  | .remove p q => live.filter (fun r => r.key ≠ (p.masked, q.masked))
  | .replaceAll rules => rules.foldl liveAdd []

/-- The live rules after a sequence of calls on an empty table. -/
def liveRules (ops : List RuleOp) : List SubnetRule :=
  ops.foldl liveApply []

/-- Longest source prefix first, then longest destination prefix. -/
def LongestFirst (a b : SubnetRule) : Prop :=
  b.sourcePrefix.bits < a.sourcePrefix.bits ∨
    (b.sourcePrefix.bits = a.sourcePrefix.bits ∧ b.destPrefix.bits ≤ a.destPrefix.bits)

instance : DecidableRel LongestFirst := by
  unfold LongestFirst
  infer_instance

instance : Std.Total LongestFirst := ⟨fun a b => by unfold LongestFirst; omega⟩

instance : IsTrans SubnetRule LongestFirst :=
  ⟨fun a b c hab hbc => by unfold LongestFirst at *; omega⟩

/-- The live rules that contain both addresses, in the order they are asked. -/
def applicable (live : List SubnetRule) (src dst : Addr) : List SubnetRule :=
  (live.filter (fun r => r.sourcePrefix.contains src && r.destPrefix.contains dst)).insertionSort
    LongestFirst

/-- The rule admits the port and the protocol: it has no port ranges, or one
that holds the port and whose protocol is empty or names the packet's. -/
def SubnetRule.Serves (r : SubnetRule) (port : UInt16) (proto : TransportProtocolNumber) : Prop :=
  r.portRanges = [] ∨ ∃ pr ∈ r.portRanges, pr.min ≤ port ∧ port ≤ pr.max ∧
    (pr.protocol = "" ∨ (pr.protocol = "tcp" ∧ proto = tcpProtocolNumber) ∨
      (pr.protocol = "udp" ∧ proto = udpProtocolNumber))
  deriving Decidable

/-- The linear reference policy. -/
def referencePolicy (live : List SubnetRule) (src dst : Addr) (port : UInt16)
    (proto : TransportProtocolNumber) : Option SubnetRule :=
  if proto = icmpv4ProtocolNumber ∨ proto = icmpv6ProtocolNumber then
    match (applicable live src dst).head? with
    | some r => if r.disableIcmp then none else some r
    | none => none
  else
    (applicable live src dst).find? (fun r => decide (r.Serves port proto))

section Live

variable {live : List SubnetRule}

theorem mem_liveAdd {m : RuleMap} (h : ∀ r, r ∈ live ↔ m r.key = some r) (new : SubnetRule) :
    ∀ r, r ∈ liveAdd live new ↔ (m.add new) r.key = some r := by
  intro r
  unfold liveAdd RuleMap.add
  by_cases hk : r.key = new.key
  · simp [hk, eq_comm]
  · have hne : r ≠ new := fun heq => hk (congrArg SubnetRule.key heq)
    simp [hk, hne, h r, Function.update_of_ne]

theorem nodup_liveAdd (h : live.Nodup) (new : SubnetRule) : (liveAdd live new).Nodup := by
  refine (h.sublist filter_sublist).append (nodup_singleton new) ?_
  intro r hr hnew
  rw [mem_singleton] at hnew
  subst hnew
  simp at hr

/-- A list that holds exactly the rules of a map, once each. -/
def Lists (live : List SubnetRule) (m : RuleMap) : Prop :=
  live.Nodup ∧ ∀ r, r ∈ live ↔ m r.key = some r

theorem lists_empty : Lists [] RuleMap.empty := by
  refine ⟨nodup_nil, ?_⟩
  intro r
  simp [RuleMap.empty]

theorem lists_apply {m : RuleMap} (h : Lists live m) (op : RuleOp) :
    Lists (liveApply live op) (m.apply op) := by
  cases op with
  | add r => exact ⟨nodup_liveAdd h.1 r, mem_liveAdd h.2 r⟩
  | remove p q =>
    refine ⟨h.1.sublist filter_sublist, ?_⟩
    intro r
    by_cases hk : r.key = (p.masked, q.masked)
    · simp [liveApply, RuleMap.apply, RuleMap.remove, hk]
    · simp [liveApply, RuleMap.apply, RuleMap.remove, hk, h.2 r, Function.update_of_ne]
  | replaceAll rules =>
    exact foldl_rel lists_empty (fun r _ _ _ h => ⟨nodup_liveAdd h.1 r, mem_liveAdd h.2 r⟩)

/-- The flat list of live rules holds exactly the rules of the map. -/
theorem lists_liveRules (ops : List RuleOp) : Lists (liveRules ops) (RuleMap.after ops) :=
  foldl_rel lists_empty (fun op _ _ _ h => lists_apply h op)

end Live

section Search

theorem findSome?_flatMap {α β γ : Type} (f : α → List β) (g : β → Option γ) (l : List α) :
    (l.flatMap f).findSome? g = l.findSome? (fun a => (f a).findSome? g) := by
  induction l with
  | nil => rfl
  | cons a l ih =>
    rw [flatMap_cons, findSome?_append, findSome?_cons, ih]
    cases (f a).findSome? g <;> rfl

variable {T : Type → Type} [PrefixTable T]

/-- The rules the nested search of `Match` asks, in its order. -/
def SubnetLookup.candidates (sl : SubnetLookup T) (srcPrefix dstPrefix : Prefix) :
    List SubnetRule :=
  (supernets sl.sourceTrie srcPrefix).flatMap (fun s =>
    (supernets s.2.trie dstPrefix).flatMap (fun d => d.2))

variable {src dst : Addr}

theorem matchRule_eq_candidates {sl : SubnetLookup T} {srcPrefix dstPrefix : Prefix}
    (hsrc : hostPrefix src = some srcPrefix) (hdst : hostPrefix dst = some dstPrefix)
    (port : UInt16) (proto : TransportProtocolNumber) :
    sl.matchRule src dst port proto =
      ((sl.candidates srcPrefix dstPrefix).findSome? (fun r => r.check port proto)).join := by
  unfold matchRule candidates
  rw [hsrc, hdst]
  simp only [findSome?_flatMap]

variable [LawfulPrefixTable T] {sl : SubnetLookup T} {m : RuleMap}

open LawfulPrefixTable

/-- A pair of nested supernets holds one rule, the one with that key. -/
theorem supernet_entry (h : sl.Refines m) {p q sp dp : Prefix} {d : DestTrie T}
    {rules : List SubnetRule} (hs : (p, d) ∈ supernets sl.sourceTrie sp)
    (hd : (q, rules) ∈ supernets d.trie dp) :
    ∃ r, rules = [r] ∧ m r.key = some r ∧ r.key = (p, q) ∧
      p.covers sp = true ∧ q.covers dp = true := by
  rw [mem_supernets] at hs hd
  obtain ⟨hp, hgs, hcs⟩ := hs
  obtain ⟨hq, hgd, hcd⟩ := hd
  have hst : sl.stored p q = some rules := by
    unfold stored destTrieFor
    rw [hgs]
    exact hgd
  rw [h.stored_eq, hp, hq] at hst
  obtain ⟨r, hr, hrules⟩ := Option.map_eq_some_iff.mp hst
  have hkey : r.key = (p, q) := h.keyed _ _ hr
  exact ⟨r, hrules.symm, hkey ▸ hr, hkey, hcs, hcd⟩

/-- The candidates are the live rules that contain both addresses. -/
theorem mem_candidates (h : sl.Refines m) {sp dp : Prefix} (hsrc : hostPrefix src = some sp)
    (hdst : hostPrefix dst = some dp) {r : SubnetRule} :
    r ∈ sl.candidates sp dp ↔ m r.key = some r ∧
      r.sourcePrefix.contains src = true ∧ r.destPrefix.contains dst = true := by
  have hcs : ∀ p : Prefix, p.masked.covers sp = p.contains src := fun p => by
    rw [covers_hostPrefix hsrc, contains_masked]
  have hcd : ∀ p : Prefix, p.masked.covers dp = p.contains dst := fun p => by
    rw [covers_hostPrefix hdst, contains_masked]
  refine ⟨?_, ?_⟩
  · intro hr
    obtain ⟨⟨p, d⟩, hs, hr⟩ := mem_flatMap.mp hr
    obtain ⟨⟨q, rules⟩, hd, hr⟩ := mem_flatMap.mp hr
    obtain ⟨r', hrules, hm, hkey, hp, hq⟩ := supernet_entry h hs hd
    have hrr : r = r' := by simpa [hrules] using hr
    subst hrr
    obtain ⟨hkp, hkq⟩ := Prod.mk.inj hkey
    refine ⟨hm, ?_, ?_⟩
    · rw [← hcs, hkp]; exact hp
    · rw [← hcd, hkq]; exact hq
  · intro hr
    obtain ⟨hm, hs, hd⟩ := hr
    have hst := h.stored_eq r.sourcePrefix r.destPrefix
    rw [show m (r.sourcePrefix.masked, r.destPrefix.masked) = some r from hm] at hst
    unfold stored destTrieFor at hst
    cases hg : get sl.sourceTrie r.sourcePrefix with
    | none => simp [hg, get_empty] at hst
    | some d =>
      rw [hg] at hst
      refine mem_flatMap.mpr ⟨(r.sourcePrefix.masked, d), ?_, ?_⟩
      · rw [mem_supernets, get_masked, hcs]
        exact ⟨masked_masked _, hg, hs⟩
      · refine mem_flatMap.mpr ⟨(r.destPrefix.masked, [r]), ?_, mem_singleton_self r⟩
        rw [mem_supernets, get_masked, hcd]
        exact ⟨masked_masked _, hst, hd⟩

/-- The candidates come strictly by longest source prefix, then by longest
destination prefix. -/
theorem candidates_pairwise (h : sl.Refines m) (sp dp : Prefix) :
    (sl.candidates sp dp).Pairwise (fun a b =>
      b.sourcePrefix.bits < a.sourcePrefix.bits ∨
        (b.sourcePrefix.bits = a.sourcePrefix.bits ∧
          b.destPrefix.bits < a.destPrefix.bits)) := by
  have hbits : ∀ {s e}, s ∈ supernets sl.sourceTrie sp → e ∈ supernets s.2.trie dp →
      ∀ r ∈ e.2, r.sourcePrefix.bits = s.1.bits ∧ r.destPrefix.bits = e.1.bits := by
    intro s e hs he r hr
    obtain ⟨r', hrules, -, hkey, -⟩ := supernet_entry h hs he
    rw [hrules, mem_singleton] at hr
    obtain ⟨hp, hq⟩ := Prod.mk.inj hkey
    rw [hr, ← hp, ← hq, bits_masked, bits_masked]
    exact ⟨rfl, rfl⟩
  unfold candidates
  rw [pairwise_flatMap]
  refine ⟨fun s hs => ?_, ?_⟩
  · rw [pairwise_flatMap]
    refine ⟨fun e he => ?_, ?_⟩
    · obtain ⟨r, hrules, -⟩ := supernet_entry h hs he
      rw [hrules]
      exact pairwise_singleton _ r
    · refine (supernets_longest_first s.2.trie dp).imp_of_mem ?_
      intro a b ha hb hlt x hx y hy
      have hbx := hbits hs ha x hx
      have hby := hbits hs hb y hy
      right
      omega
  · refine (supernets_longest_first sl.sourceTrie sp).imp_of_mem ?_
    intro a b ha hb hlt x hx y hy
    obtain ⟨e, he, hx⟩ := mem_flatMap.mp hx
    obtain ⟨e', he', hy⟩ := mem_flatMap.mp hy
    have hbx := hbits ha he x hx
    have hby := hbits hb he' y hy
    left
    omega

/-- The nested search asks the applicable rules, in the policy's order. -/
theorem candidates_eq_applicable (h : sl.Refines m) {live : List SubnetRule}
    (hlive : Lists live m) {sp dp : Prefix} (hsrc : hostPrefix src = some sp)
    (hdst : hostPrefix dst = some dp) : sl.candidates sp dp = applicable live src dst := by
  have hstrict := candidates_pairwise h sp dp
  have hnodup : (sl.candidates sp dp).Nodup := by
    refine hstrict.imp ?_
    intro a b hab heq
    rw [heq] at hab
    omega
  have hperm : (sl.candidates sp dp).Perm (applicable live src dst) := by
    refine List.Perm.trans ?_ (perm_insertionSort _ _).symm
    rw [perm_ext_iff_of_nodup hnodup (hlive.1.sublist filter_sublist)]
    intro r
    rw [mem_candidates h hsrc hdst, mem_filter, hlive.2 r, Bool.and_eq_true]
  refine hperm.eq_of_pairwise ?_ (hstrict.imp ?_) (pairwise_insertionSort _ _)
  · intro a b ha hb hab hba
    obtain ⟨hma, hsa, hda⟩ := (mem_candidates h hsrc hdst).mp ha
    obtain ⟨hmb, hsb, hdb⟩ := (mem_candidates h hsrc hdst).mp (hperm.mem_iff.mpr hb)
    unfold LongestFirst at hab hba
    have hs := masked_eq_of_contains hsa hsb (by omega)
    have hd := masked_eq_of_contains hda hdb (by omega)
    have hkey : a.key = b.key := by
      unfold SubnetRule.key
      rw [hs, hd]
    rw [hkey, hmb] at hma
    exact (Option.some.inj hma).symm
  · intro a b hab
    unfold LongestFirst
    omega

end Search

section Decision

variable {proto : TransportProtocolNumber}

theorem portRange_admits_iff {pr : PortRange} {port : UInt16} :
    pr.admits port proto = true ↔ pr.min ≤ port ∧ port ≤ pr.max ∧
      (pr.protocol = "" ∨ (pr.protocol = "tcp" ∧ proto = tcpProtocolNumber) ∨
        (pr.protocol = "udp" ∧ proto = udpProtocolNumber)) := by simp [PortRange.admits, and_assoc]

theorem any_admits_iff {r : SubnetRule} {port : UInt16} :
    (r.portRanges = [] ∨ r.portRanges.any (fun pr => pr.admits port proto) = true) ↔
      r.Serves port proto := by
  unfold SubnetRule.Serves
  rw [any_eq_true]
  simp only [portRange_admits_iff]

/-- For ICMP the first rule asked decides. -/
theorem findSome?_check_icmp (rules : List SubnetRule) (port : UInt16)
    (hp : proto = icmpv4ProtocolNumber ∨ proto = icmpv6ProtocolNumber) :
    (rules.findSome? (fun r => r.check port proto)).join =
      match rules.head? with
      | some r => if r.disableIcmp then none else some r
      | none => none := by
  cases rules with
  | nil => rfl
  | cons r rest => cases hd : r.disableIcmp <;> simp [SubnetRule.check, hp, hd]

/-- For any other protocol the first rule that admits port and protocol is
returned. -/
theorem findSome?_check_ports (rules : List SubnetRule) (port : UInt16)
    (hp : ¬ (proto = icmpv4ProtocolNumber ∨ proto = icmpv6ProtocolNumber)) :
    (rules.findSome? (fun r => r.check port proto)).join =
      rules.find? (fun r => decide (r.Serves port proto)) := by
  have hcheck : ∀ r : SubnetRule, r.check port proto =
      if r.Serves port proto then some (some r) else none := by
    intro r
    unfold SubnetRule.check
    rw [if_neg hp]
    simp only [← any_admits_iff, length_eq_zero_iff]
    by_cases hnil : r.portRanges = []
    · simp [hnil]
    · simp [hnil]
  induction rules with
  | nil => rfl
  | cons r rest ih =>
    rw [findSome?_cons, hcheck r]
    by_cases hs : r.Serves port proto
    · simp [hs]
    · simp [hs, ih]

end Decision

variable {T : Type → Type} [PrefixTable T] [LawfulPrefixTable T]

/-- **`Match` is the linear policy.**  For every table reached by `AddSubnet`,
`RemoveSubnet` and `ReplaceAll`, every pair of addresses, every port and every
protocol number, the nested search returns what the reference policy returns
on the live rules. -/
theorem matchRule_eq_referencePolicy (ops : List RuleOp) (src dst : Addr) (port : UInt16)
    (proto : TransportProtocolNumber) :
    (after ops : SubnetLookup T).matchRule src dst port proto =
      referencePolicy (liveRules ops) src dst port proto := by
  have hrefines : (after ops : SubnetLookup T).Refines (RuleMap.after ops) :=
    refines_after ops
  have hdecide : ∀ {sp dp : Prefix}, hostPrefix src = some sp → hostPrefix dst = some dp →
      (after ops : SubnetLookup T).matchRule src dst port proto =
        referencePolicy (liveRules ops) src dst port proto := by
    intro sp dp hsrc hdst
    rw [matchRule_eq_candidates hsrc hdst,
      candidates_eq_applicable hrefines (lists_liveRules ops) hsrc hdst]
    unfold referencePolicy
    by_cases hp : proto = icmpv4ProtocolNumber ∨ proto = icmpv6ProtocolNumber
    · rw [if_pos hp, findSome?_check_icmp _ _ hp]
    · rw [if_neg hp, findSome?_check_ports _ _ hp]
  have hnone : hostPrefix src = none ∨ hostPrefix dst = none →
      applicable (liveRules ops) src dst = [] := by
    intro h
    have hfilter : (liveRules ops).filter
        (fun r => r.sourcePrefix.contains src && r.destPrefix.contains dst) = [] := by
      rw [filter_eq_nil_iff]
      intro r _
      rcases h with h | h <;> simp [contains_of_hostPrefix_none h]
    unfold applicable
    rw [hfilter]
    rfl
  cases hsrc : hostPrefix src with
  | none => simp [matchRule, hsrc, referencePolicy, hnone (Or.inl hsrc)]
  | some sp =>
    cases hdst : hostPrefix dst with
    | none => simp [matchRule, hdst, hsrc, referencePolicy, hnone (Or.inr hdst)]
    | some dp => exact hdecide hsrc hdst

/-- A narrow rule that admits only TCP to port 22, over a wide one that admits
everything but ICMP. -/
def narrowRule : SubnetRule :=
  { sourcePrefix := .from4 0x0A000000 8, destPrefix := .from4 0xC0A80105 32,
    portRanges := [⟨22, 22, "tcp"⟩] }

def wideRule : SubnetRule :=
  { sourcePrefix := .from4 0x0A000000 8, destPrefix := .from4 0xC0A80000 16, disableIcmp := true }

/-- A port the narrow rule does not admit falls through to the wide rule, while
an ICMP packet is decided by the narrow rule alone. -/
theorem match_falls_through_ports_not_icmp :
    (after [.add wideRule, .add narrowRule] : SubnetLookup ListTable).matchRule
        (.v4 0x0A000001) (.v4 0xC0A80105) 80 tcpProtocolNumber = some wideRule ∧
      (after [.add wideRule, .add narrowRule] : SubnetLookup ListTable).matchRule
        (.v4 0x0A000001) (.v4 0xC0A80105) 0 icmpv4ProtocolNumber = some narrowRule ∧
      (after [.add wideRule, .add narrowRule] : SubnetLookup ListTable).matchRule
        (.v4 0x0A000001) (.v4 0xC0A80106) 0 icmpv4ProtocolNumber = none := by
  refine ⟨?_, ?_, ?_⟩
  · rw [matchRule_eq_referencePolicy]; decide
  · rw [matchRule_eq_referencePolicy]; decide
  · rw [matchRule_eq_referencePolicy]; decide

end Newt

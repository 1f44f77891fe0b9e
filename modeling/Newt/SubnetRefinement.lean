import Mathlib.Logic.Function.Basic
import Newt.SubnetLookup

/-!
# The rule table is a map on pairs of canonical prefixes

What the three redundant structures of `SubnetLookup` are for: a finite map
from (source prefix, destination prefix), both masked, to the rule that was
written last under that pair.  `RuleMap` is that map; its operations are the
calls on the table read as updates of one key.

* `Refines` ties a table to a map: the nested lookup answers like the map, the
  slice of an inner table lists the rules of its trie, and no inner table is
  empty;
* `refines_after` — every sequence of calls keeps it;
* `subnetLookup_refines_ruleMap` — the whole statement, with `GetAllRules` and
  `ReplaceAll`.
-/

namespace Newt

open Netip List Function PrefixTable Prefix

/-- The key a rule is stored under. -/
abbrev RuleKey := Prefix × Prefix

def SubnetRule.key (r : SubnetRule) : RuleKey :=
  (r.sourcePrefix.masked, r.destPrefix.masked)

/-- The abstract rule table. -/
abbrev RuleMap := RuleKey → Option SubnetRule

namespace RuleMap

def empty : RuleMap := fun _ => none

def add (m : RuleMap) (r : SubnetRule) : RuleMap :=
  update m r.key (some r)

def remove (m : RuleMap) (sourcePrefix destPrefix : Prefix) : RuleMap :=
  update m (sourcePrefix.masked, destPrefix.masked) none

/-- The map after one call. -/
def apply (m : RuleMap) : RuleOp → RuleMap
  | .add r => m.add r
  | .remove sourcePrefix destPrefix => m.remove sourcePrefix destPrefix
  | .replaceAll rules => rules.foldl add empty

/-- The map after a sequence of calls: the last rule written under each key. -/
def after (ops : List RuleOp) : RuleMap :=
  ops.foldl apply empty

/-- Every rule of the map is stored under its own key. -/
def Keyed (m : RuleMap) : Prop :=
  ∀ k r, m k = some r → r.key = k

/-- An empty map has no rules. -/
theorem keyed_empty : Keyed empty := by
  intro k r h
  simp [empty] at h

/-- A rule is added under its own key. -/
theorem keyed_add {m : RuleMap} (hm : Keyed m) (r : SubnetRule) : Keyed (m.add r) := by
  intro k r' h
  by_cases hk : k = r.key
  · subst hk
    have hr : r = r' := by simpa [add] using h
    rw [hr]
  · exact hm k r' (by simpa [add, hk] using h)

/-- A rule is removed. -/
theorem keyed_remove {m : RuleMap} (hm : Keyed m) (p q : Prefix) : Keyed (m.remove p q) := by
  intro k r h
  by_cases hk : k = (p.masked, q.masked)
  · simp [remove, hk] at h
  · exact hm k r (by simpa [remove, hk] using h)

/-- A row of the map as singleton slices: which rules occur in it. -/
theorem exists_row_iff {m : RuleMap} (hm : Keyed m) {p : Prefix}
    {row : Prefix → Option (List SubnetRule)}
    (hrow : ∀ q, row q = (m (p.masked, q.masked)).map (fun r => [r])) {r : SubnetRule} :
    (∃ q, row q = some [r]) ↔ m r.key = some r ∧ r.sourcePrefix.masked = p.masked := by
  refine ⟨?_, ?_⟩
  · intro hq
    obtain ⟨q, hq⟩ := hq
    rw [hrow] at hq
    obtain ⟨r', hr', heq⟩ := Option.map_eq_some_iff.mp hq
    have hrr : r' = r := by simpa using heq
    subst hrr
    have hkey : r'.key = (p.masked, q.masked) := hm _ _ hr'
    rw [hkey]
    exact ⟨hr', congrArg Prod.fst hkey⟩
  · intro hr
    refine ⟨r.destPrefix, ?_⟩
    rw [hrow, ← hr.2]
    show Option.map _ (m r.key) = _
    rw [hr.1]
    rfl

end RuleMap

namespace SubnetLookup

variable {T : Type → Type} [PrefixTable T] {sl : SubnetLookup T} {m : RuleMap}

/-- The rules stored under a pair of prefixes. -/
def stored (sl : SubnetLookup T) (p q : Prefix) : Option (List SubnetRule) :=
  get (sl.destTrieFor p).trie q

/-- The slice of an inner table holds exactly the rules of its trie, once
each. -/
def Mirrored (d : DestTrie T) : Prop :=
  d.rules.Nodup ∧ ∀ r, r ∈ d.rules ↔ ∃ q, get d.trie q = some [r]

/-- A table implements a map: nested lookups answer like the map, the slices
mirror the tries, and no source prefix maps to an empty inner table. -/
structure Refines (sl : SubnetLookup T) (m : RuleMap) : Prop where
  keyed : RuleMap.Keyed m
  stored_eq : ∀ p q, sl.stored p q = (m (p.masked, q.masked)).map (fun r => [r])
  mirrored : ∀ p, Mirrored (sl.destTrieFor p)
  nonempty : ∀ p d, get sl.sourceTrie p = some d →
    ∃ q, get d.trie q ≠ none

/-- A change under one source prefix changes the inner table there only. -/
theorem destTrieFor_change {t : T (DestTrie T)} {p : Prefix} {d : Option (DestTrie T)}
    (hget : ∀ p', get t p' = if p'.masked = p.masked then d else get sl.sourceTrie p')
    (p' : Prefix) : (mk t).destTrieFor p' =
      if p'.masked = p.masked then d.getD { trie := empty, rules := [] }
      else sl.destTrieFor p' := by
  unfold destTrieFor
  rw [hget]
  split <;> rfl

variable [LawfulPrefixTable T]

open LawfulPrefixTable

/-- Bits behind a prefix do not matter. -/
theorem destTrieFor_masked (sl : SubnetLookup T) (p : Prefix) :
    sl.destTrieFor p.masked = sl.destTrieFor p := by
  unfold destTrieFor
  rw [get_masked]

/-- A fresh inner table has no rules. -/
theorem mirrored_fresh : Mirrored ({ trie := empty, rules := [] } : DestTrie T) := by
  refine ⟨nodup_nil, ?_⟩
  intro r
  simp [get_empty]

open SubnetRule

/-- The rules that stay in a slice. -/
theorem mem_keepOthers {rules : List SubnetRule} {p q : Prefix} {r : SubnetRule} :
    r ∈ keepOthers rules p q ↔ r ∈ rules ∧ r.key ≠ (p.masked, q.masked) := by
  simp only [keepOthers, mem_filter, prefixEqual, key, Bool.or_eq_true,
    Bool.not_eq_true', beq_eq_false_iff_ne, ne_eq, Prod.mk.injEq, not_and_or]
  exact and_congr_right fun _ => or_comm

/-- They stay once each. -/
theorem nodup_keepOthers {rules : List SubnetRule} (p q : Prefix) (h : rules.Nodup) :
    (keepOthers rules p q).Nodup :=
  h.sublist filter_sublist

omit [LawfulPrefixTable T] in
theorem removeSubnet_of_none {p q : Prefix}
    (h : get sl.sourceTrie p.masked = none) : sl.removeSubnet p q = sl := by
  unfold removeSubnet
  simp only [h]

omit [LawfulPrefixTable T] in
theorem removeSubnet_of_some {p q : Prefix} {d : DestTrie T}
    (h : get sl.sourceTrie p.masked = some d) :
    sl.removeSubnet p q =
      if size (delete d.trie q.masked) = 0 then
        { sourceTrie := delete sl.sourceTrie p.masked }
      else
        { sourceTrie := insert sl.sourceTrie p.masked
            { trie := delete d.trie q.masked
              rules := keepOthers d.rules p.masked q.masked } } := by
  unfold removeSubnet
  simp only [h]

namespace Refines

omit [LawfulPrefixTable T] in
/-- A slice holds the rules the map has for its source prefix. -/
theorem mem_rules_iff (h : Refines sl m) {p : Prefix} {r : SubnetRule} :
    r ∈ (sl.destTrieFor p).rules ↔ m r.key = some r ∧ r.sourcePrefix.masked = p.masked := by
  rw [(h.mirrored p).2 r]
  exact RuleMap.exists_row_iff h.keyed (h.stored_eq p)

omit [LawfulPrefixTable T] in
/-- A change of the inner table of one source prefix: what has to be checked. -/
theorem change_destTrie (h : Refines sl m) {m' : RuleMap} {p : Prefix} {t : T (DestTrie T)}
    {d : Option (DestTrie T)}
    (hget : ∀ p', get t p' = if p'.masked = p.masked then d else get sl.sourceTrie p')
    (hkeyed : RuleMap.Keyed m')
    (hother : ∀ p' q : Prefix, p'.masked ≠ p.masked → m' (p'.masked, q) = m (p'.masked, q))
    (hstored : ∀ q, get (d.getD { trie := empty, rules := [] }).trie q =
      (m' (p.masked, q.masked)).map (fun r => [r]))
    (hmirrored : Mirrored (d.getD { trie := empty, rules := [] }))
    (hnonempty : ∀ d' ∈ d, ∃ q, get d'.trie q ≠ none) : Refines (SubnetLookup.mk t) m' := by
  have hfor := destTrieFor_change hget
  refine ⟨hkeyed, fun p' q => ?_, fun p' => ?_, fun p' d' hd => ?_⟩
  · unfold stored
    rw [hfor]
    split
    · next hp =>
      rw [hp]
      exact hstored q
    · next hp =>
      rw [hother p' q.masked hp]
      exact h.stored_eq p' q
  · rw [hfor]
    split
    · exact hmirrored
    · exact h.mirrored p'
  · rw [hget] at hd
    split at hd
    · exact hnonempty d' hd
    · exact h.nonempty p' d' hd

/-- An inner table is replaced. -/
theorem insert_destTrie (h : Refines sl m) {m' : RuleMap} {p : Prefix} {d : DestTrie T}
    (hkeyed : RuleMap.Keyed m')
    (hother : ∀ p' q : Prefix, p'.masked ≠ p.masked → m' (p'.masked, q) = m (p'.masked, q))
    (hstored : ∀ q, get d.trie q = (m' (p.masked, q.masked)).map (fun r => [r]))
    (hnodup : d.rules.Nodup)
    (hrules : ∀ r, r ∈ d.rules ↔ m' r.key = some r ∧ r.sourcePrefix.masked = p.masked)
    (hnonempty : ∃ q, get d.trie q ≠ none) :
    Refines (SubnetLookup.mk (insert sl.sourceTrie p d)) m' := by
  refine h.change_destTrie (d := some d) (fun p' => get_insert _ _ _ _) hkeyed hother hstored
    ⟨hnodup, fun r => ?_⟩ (fun d' hd => ?_)
  · exact (hrules r).trans (RuleMap.exists_row_iff hkeyed hstored).symm
  · rw [← Option.some.inj hd]
    exact hnonempty

/-- An update under one pair of prefixes, read in the row of its source. -/
private theorem update_row (m : RuleMap) (p q q' : Prefix) (v : Option SubnetRule) :
    update m (p.masked, q.masked) v (p.masked, q'.masked) =
      if q'.masked = q.masked then v else m (p.masked, q'.masked) := by
  by_cases hq : q'.masked = q.masked
  · simp [hq]
  · simp [hq, update_of_ne]

/-- The same update leaves the other rows alone. -/
private theorem update_other_row (m : RuleMap) (p q q' : Prefix) {p' : Prefix}
    (hp : p'.masked ≠ p.masked) (v : Option SubnetRule) :
    update m (p.masked, q.masked) v (p'.masked, q') = m (p'.masked, q') := by
  apply update_of_ne
  intro heq
  exact hp (congrArg Prod.fst heq)

/-- `AddSubnet` writes one key of the map. -/
theorem addSubnet (h : Refines sl m) (rule : SubnetRule) :
    Refines (sl.addSubnet rule) (m.add rule) := by
  refine h.insert_destTrie (RuleMap.keyed_add h.keyed rule) ?_ ?_ ?_ ?_ ?_
  · intro p' q hp
    rw [masked_masked] at hp
    exact update_other_row m rule.sourcePrefix rule.destPrefix q hp (some rule)
  · intro q
    rw [get_insert, destTrieFor_masked, masked_masked, masked_masked]
    unfold RuleMap.add key
    rw [update_row]
    by_cases hq : q.masked = rule.destPrefix.masked
    · simp [hq]
    · rw [if_neg hq, if_neg hq]
      exact h.stored_eq rule.sourcePrefix q
  · refine (nodup_keepOthers _ _ (h.mirrored _).1).append (nodup_singleton rule) ?_
    intro r hr hr'
    rw [mem_singleton] at hr'
    subst hr'
    exact (mem_keepOthers.mp hr).2 (by simp [key])
  · intro r
    rw [mem_append, mem_keepOthers, h.mem_rules_iff, mem_singleton]
    simp only [masked_masked]
    change (m r.key = some r ∧ _) ∧ r.key ≠ rule.key ∨ r = rule ↔ _
    by_cases hk : r.key = rule.key
    · have hsrc : r.sourcePrefix.masked = rule.sourcePrefix.masked := congrArg Prod.fst hk
      simp [RuleMap.add, hk, hsrc, eq_comm]
    · have hne : r ≠ rule := fun heq => hk (congrArg key heq)
      simp [RuleMap.add, hk, hne, update_of_ne]
  · refine ⟨rule.destPrefix, ?_⟩
    rw [get_insert, if_pos (masked_masked _).symm]
    simp

/-- `RemoveSubnet` clears one key of the map. -/
theorem removeSubnet (h : Refines sl m) (p q : Prefix) :
    Refines (sl.removeSubnet p q) (m.remove p q) := by
  have hkeyed := RuleMap.keyed_remove h.keyed p q
  have hothers : ∀ p' q' : Prefix, p'.masked ≠ p.masked →
      (m.remove p q) (p'.masked, q') = m (p'.masked, q') :=
    fun p' q' hp => update_other_row m p q q' hp none
  cases hd : get sl.sourceTrie p.masked with
  | none =>
    have hempty : m (p.masked, q.masked) = none := by
      have hs := h.stored_eq p q
      unfold stored destTrieFor at hs
      rw [← get_masked sl.sourceTrie, hd] at hs
      simpa [get_empty, eq_comm] using hs
    have hsame : m.remove p q = m := by
      unfold RuleMap.remove
      rw [← hempty]
      exact update_eq_self _ _
    rw [hsame, removeSubnet_of_none hd]
    exact h
  | some d =>
    have hdfor : sl.destTrieFor p = d := by
      unfold destTrieFor
      rw [← get_masked, hd]
      rfl
    have hget : ∀ q' : Prefix, get (delete d.trie q.masked) q' =
        ((m.remove p q) (p.masked, q'.masked)).map (fun r => [r]) := by
      intro q'
      unfold RuleMap.remove
      rw [get_delete, masked_masked, update_row]
      by_cases hq : q'.masked = q.masked
      · simp [hq]
      · rw [if_neg hq, if_neg hq, ← h.stored_eq p q', stored, hdfor]
    rw [removeSubnet_of_some hd]
    by_cases hsize : size (delete d.trie q.masked) = 0
    · rw [if_pos hsize]
      refine h.change_destTrie (d := none) (get_delete _ _) hkeyed ?_ (fun q' => ?_)
        mirrored_fresh (fun _ hd => absurd hd (Option.not_mem_none _))
      · rw [masked_masked]
        exact hothers
      · have hq := (size_eq_zero_iff _).mp hsize q'
        rw [hget] at hq
        rw [masked_masked, Option.map_eq_none_iff.mp hq]
        exact get_empty _
    · rw [if_neg hsize]
      refine h.insert_destTrie hkeyed ?_ ?_ ?_ ?_ ?_
      · rw [masked_masked]
        exact hothers
      · rw [masked_masked]
        exact hget
      · rw [← hdfor]
        exact nodup_keepOthers _ _ (h.mirrored p).1
      · intro r
        rw [← hdfor, mem_keepOthers, h.mem_rules_iff, masked_masked, masked_masked]
        by_cases hk : r.key = (p.masked, q.masked)
        · simp [RuleMap.remove, hk]
        · simp [RuleMap.remove, hk, update_of_ne]
      · by_contra hno
        apply hsize
        rw [size_eq_zero_iff]
        exact fun q' => not_not.mp (not_exists.mp hno q')

end Refines

/-- A new table is the empty map. -/
theorem refines_new : Refines (newSubnetLookup : SubnetLookup T) RuleMap.empty := by
  have hfresh : ∀ p, (newSubnetLookup : SubnetLookup T).destTrieFor p =
      { trie := empty, rules := [] } := by
    intro p
    simp [newSubnetLookup, destTrieFor, get_empty]
  refine ⟨RuleMap.keyed_empty, ?_, ?_, ?_⟩
  · intro p q
    simp [stored, hfresh, get_empty, RuleMap.empty]
  · intro p
    rw [hfresh]
    exact mirrored_fresh
  · intro p d hd
    simp [newSubnetLookup, get_empty] at hd

/-- Rules are added one by one. -/
theorem Refines.foldl_addSubnet (h : Refines sl m) (rules : List SubnetRule) :
    Refines (rules.foldl SubnetLookup.addSubnet sl) (rules.foldl RuleMap.add m) :=
  foldl_rel h (fun r _ _ _ h => h.addSubnet r)

/-- Every call on the table is the same call on the map. -/
theorem Refines.apply (h : Refines sl m) (op : RuleOp) :
    Refines (sl.apply op) (m.apply op) := by
  cases op with
  | add rule => exact h.addSubnet rule
  | remove p q => exact h.removeSubnet p q
  | replaceAll rules => exact refines_new.foldl_addSubnet rules

/-- Every sequence of calls leaves a table that implements the map of the last
rules written. -/
theorem refines_after (ops : List RuleOp) :
    Refines (after ops : SubnetLookup T) (RuleMap.after ops) :=
  foldl_rel refines_new (fun op _ _ _ h => h.apply op)

/-- Source prefixes of the outer table are canonical, and their inner tables are
the ones the nested lookup uses. -/
theorem destTrieFor_of_mem_all {p : Prefix} {d : DestTrie T}
    (h : (p, d) ∈ all sl.sourceTrie) : p.masked = p ∧ sl.destTrieFor p = d := by
  rw [mem_all] at h
  refine ⟨h.1, ?_⟩
  unfold destTrieFor
  rw [h.2]
  rfl

/-- `GetAllRules` lists exactly the rules of the map. -/
theorem Refines.mem_getAllRules (h : Refines sl m) {r : SubnetRule} :
    r ∈ sl.getAllRules ↔ m r.key = some r := by
  unfold getAllRules
  rw [mem_flatMap]
  refine ⟨?_, ?_⟩
  · intro he
    obtain ⟨⟨p, d⟩, he, hr⟩ := he
    have hd := (destTrieFor_of_mem_all he).2
    rw [← hd] at hr
    exact (h.mem_rules_iff.mp hr).1
  · intro hr
    have hmem : r ∈ (sl.destTrieFor r.sourcePrefix).rules := h.mem_rules_iff.mpr ⟨hr, rfl⟩
    cases hd : get sl.sourceTrie r.sourcePrefix with
    | none => simp [destTrieFor, hd] at hmem
    | some d =>
      refine ⟨(r.sourcePrefix.masked, d), ?_, ?_⟩
      · rw [mem_all, get_masked]
        exact ⟨masked_masked _, hd⟩
      · simpa [destTrieFor, hd] using hmem

/-- `GetAllRules` lists no rule twice: the rules of different slices have
different source prefixes. -/
theorem Refines.nodup_getAllRules (h : Refines sl m) : sl.getAllRules.Nodup := by
  unfold getAllRules
  rw [nodup_flatMap]
  refine ⟨?_, ?_⟩
  · intro e he
    have hd := (destTrieFor_of_mem_all (p := e.1) (d := e.2) he).2
    rw [← hd]
    exact (h.mirrored e.1).1
  · have hkeys : (all sl.sourceTrie).Pairwise (fun a b => a.1 ≠ b.1) :=
      pairwise_map.mp (nodup_all sl.sourceTrie)
    refine hkeys.imp_of_mem ?_
    intro a b ha hb hne r hra hrb
    have hda := destTrieFor_of_mem_all (p := a.1) (d := a.2) ha
    have hdb := destTrieFor_of_mem_all (p := b.1) (d := b.2) hb
    have hpa := (h.mem_rules_iff (p := a.1) (r := r)).mp (by rw [hda.2]; exact hra)
    have hpb := (h.mem_rules_iff (p := b.1) (r := r)).mp (by rw [hdb.2]; exact hrb)
    rw [hda.1] at hpa
    rw [hdb.1] at hpb
    exact hne (hpa.2.symm.trans hpb.2)

/-- **The rule table refines a finite map.**  After every sequence of calls the
nested lookup answers like the map from pairs of masked prefixes to the rule
written last; the slice of every inner table holds exactly the rules of its
trie, once each; no source prefix maps to an empty inner table; `GetAllRules`
lists every live rule exactly once; and `ReplaceAll` leaves, from whatever
table, the map that adding the rules in order to an empty one gives. -/
theorem subnetLookup_refines_ruleMap (ops : List RuleOp) :
    (∀ p q, (SubnetLookup.after ops : SubnetLookup T).stored p q =
      (RuleMap.after ops (p.masked, q.masked)).map (fun r => [r])) ∧
    (∀ p d, PrefixTable.get (SubnetLookup.after ops : SubnetLookup T).sourceTrie p = some d →
      d.rules.Nodup ∧ (∀ r, r ∈ d.rules ↔ ∃ q, PrefixTable.get d.trie q = some [r]) ∧
      ∃ q, PrefixTable.get d.trie q ≠ none) ∧
    (SubnetLookup.after ops : SubnetLookup T).getAllRules.Nodup ∧
    (∀ r, r ∈ (SubnetLookup.after ops : SubnetLookup T).getAllRules ↔
      RuleMap.after ops r.key = some r) ∧
    (∀ (sl : SubnetLookup T) (rules : List SubnetRule) (p q : Prefix),
      (sl.replaceAll rules).stored p q =
        (rules.foldl SubnetLookup.addSubnet (newSubnetLookup : SubnetLookup T)).stored p q ∧
      (sl.replaceAll rules).stored p q =
        (rules.foldl RuleMap.add RuleMap.empty (p.masked, q.masked)).map (fun r => [r])) := by
  have h : Refines (SubnetLookup.after ops : SubnetLookup T) (RuleMap.after ops) :=
    refines_after ops
  refine ⟨h.stored_eq, ?_, h.nodup_getAllRules, fun r => h.mem_getAllRules, ?_⟩
  · intro p d hd
    have hdfor : (SubnetLookup.after ops : SubnetLookup T).destTrieFor p = d := by
      unfold destTrieFor
      rw [hd]
      rfl
    have hm := h.mirrored p
    rw [hdfor] at hm
    exact ⟨hm.1, hm.2, h.nonempty p d hd⟩
  · intro sl rules p q
    exact ⟨rfl, (refines_new.foldl_addSubnet rules).stored_eq p q⟩

/-- A rule for 10.0.0.5/24, written with host bits. -/
def hostBitsRule : SubnetRule :=
  { sourcePrefix := .from4 0x0a000005#32 24, destPrefix := .from4 0xc0a80000#32 16 }

/-- The same pair of networks without host bits, and another action. -/
def canonicalRule : SubnetRule :=
  { sourcePrefix := .from4 0x0a000000#32 24, destPrefix := .from4 0xc0a80000#32 16,
    rewriteTo := "127.0.0.1" }

/-- The later rule replaces the earlier one although their prefixes are spelled
differently. -/
theorem hostBits_alias_overwritten :
    LawfulPrefixTable ListTable ∧
    (after [.add hostBitsRule, .add canonicalRule] :
      SubnetLookup ListTable).stored hostBitsRule.sourcePrefix hostBitsRule.destPrefix =
        some [canonicalRule] := by
  refine ⟨inferInstance, ?_⟩
  rw [(subnetLookup_refines_ruleMap [.add hostBitsRule, .add canonicalRule]).1]
  decide

end SubnetLookup

end Newt

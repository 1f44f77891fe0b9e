import Mathlib.Algebra.BigOperators.Group.List.Basic
import Mathlib.Algebra.Ring.Int.Defs
import Mathlib.Data.BitVec
import Mathlib.Data.List.Dedup
import Newt.AccessLog
import Newt.Lib.Intervals

/-!
# What consolidation makes of a batch

Two sessions are in the same burst if they have the source IP, the destination, the
protocol and the resource in common and neither starts more than five seconds after
the other has ended.  `consolidateSessions` gives one session for each connected
component of that relation (`Summarizes`), whatever the order of the batch, of its
groups and of sessions that start together.

The code works on pointers: it clones the first session of a run and writes into the
clone.  `consolidateRefs` is the function with its heap; `consolidateRefs_cells` says
that it computes `consolidateSessions` and leaves every session it was given as it was.
The main result is `consolidateRefs_components`.
-/

namespace Newt.AccessLog

open Intervals List Function AccessSession

/-- A session that has ended, not before it started, and was not merged before. -/
structure AccessSession.Raw (s : AccessSession) : Prop where
  ended : s.endedAt ≠ 0
  ordered : s.startedAt ≤ s.endedAt
  single : s.connectionCount = 0

/-- The same group, and a gap of at most five seconds. -/
def SameBurst (s t : AccessSession) : Prop :=
  s.consolidationKey = t.consolidationKey ∧
    Near startedAt endedAt sessionGapThreshold s t

theorem SameBurst.symm (s t : AccessSession) (h : SameBurst s t) : SameBurst t s :=
  ⟨h.1.symm, Near.symm _ _ _ s t h.2⟩

/-- The number of distinct source addresses. -/
def distinctSources (c : List AccessSession) : Nat :=
  (c.map sourceAddr).dedup.length

/-- How many sessions of a batch have the group of this one. -/
def groupSize (batch : List AccessSession) (s : AccessSession) : Nat :=
  (batch.filter (fun t => t.consolidationKey = s.consolidationKey)).length

/-- `m` stands for the sessions `c` of a batch: the earliest start, the latest end, the
bytes of all, their number where the group has more than one, and the source address
without its port where there are several. -/
structure Summarizes (batch c : List AccessSession) (m : AccessSession) : Prop where
  sessionId : ∃ s ∈ c, m.sessionId = s.sessionId
  target : ∀ s ∈ c, m.destAddr = s.destAddr ∧ m.protocol = s.protocol ∧
    m.resourceId = s.resourceId
  startedAt : (∃ s ∈ c, m.startedAt = s.startedAt) ∧ ∀ s ∈ c, m.startedAt ≤ s.startedAt
  endedAt : (∃ s ∈ c, m.endedAt = s.endedAt) ∧ ∀ s ∈ c, s.endedAt ≤ m.endedAt
  bytesTx : m.bytesTx = (c.map bytesTx).sum
  bytesRx : m.bytesRx = (c.map bytesRx).sum
  connectionCount : ∀ s ∈ c, m.connectionCount =
    if groupSize batch s = 1 then 0 else c.length
  sourceAddr : ∀ s ∈ c, m.sourceAddr =
    if 1 < distinctSources c then extractIP s.sourceAddr else s.sourceAddr

attribute [ext] AccessSession

/-- A session without its ID. -/
def AccessSession.withoutId (s : AccessSession) : AccessSession :=
  { s with sessionId := "" }

/-- Sessions that stand for the same ones differ in the ID only. -/
theorem Summarizes.unique {batch batch' c c' : List AccessSession} {m m' : AccessSession}
    (h : Summarizes batch c m) (h' : Summarizes batch' c' m') (hbatch : batch.Perm batch')
    (hc : c.Perm c') : m.withoutId = m'.withoutId := by
  obtain ⟨s, hs, _⟩ := h.sessionId
  have hs' : s ∈ c' := hc.mem_iff.mp hs
  obtain ⟨hdest, hproto, hres⟩ := h.target s hs
  obtain ⟨hdest', hproto', hres'⟩ := h'.target s hs'
  have hstart : m.startedAt = m'.startedAt := by
    obtain ⟨a, ha, hma⟩ := h.startedAt.1
    obtain ⟨b, hb, hmb⟩ := h'.startedAt.1
    have hle := h.startedAt.2 b (hc.mem_iff.mpr hb)
    have hge := h'.startedAt.2 a (hc.mem_iff.mp ha)
    omega
  have hend : m.endedAt = m'.endedAt := by
    obtain ⟨a, ha, hma⟩ := h.endedAt.1
    obtain ⟨b, hb, hmb⟩ := h'.endedAt.1
    have hge := h.endedAt.2 b (hc.mem_iff.mpr hb)
    have hle := h'.endedAt.2 a (hc.mem_iff.mp ha)
    omega
  have htx : m.bytesTx = m'.bytesTx := by rw [h.bytesTx, h'.bytesTx, (hc.map _).sum_eq]
  have hrx : m.bytesRx = m'.bytesRx := by rw [h.bytesRx, h'.bytesRx, (hc.map _).sum_eq]
  have hcount : m.connectionCount = m'.connectionCount := by
    rw [h.connectionCount s hs, h'.connectionCount s hs', groupSize, groupSize,
      (hbatch.filter _).length_eq, hc.length_eq]
  have hsource : m.sourceAddr = m'.sourceAddr := by
    rw [h.sourceAddr s hs, h'.sourceAddr s hs', distinctSources, distinctSources,
      (hc.map _).dedup.length_eq]
  exact AccessSession.ext rfl (hres.trans hres'.symm) hsource (hdest.trans hdest'.symm)
    (hproto.trans hproto'.symm) hstart hend htx hrx hcount

section Merge

/-- What the loop of a group knows of the session it is merging: it has merged `c`, and
`ports` are their source addresses. -/
structure Merging (key : ConsolidationKey) (c : List AccessSession) (cur : AccessSession)
    (ports : List String) : Prop where
  members : ∀ s ∈ c, s.consolidationKey = key
  target : cur.destAddr = key.destAddr ∧ cur.protocol = key.protocol ∧
    cur.resourceId = key.resourceId
  first : ∃ s ∈ c, cur.sessionId = s.sessionId ∧ cur.sourceAddr = s.sourceAddr
  startedAt : (∃ s ∈ c, cur.startedAt = s.startedAt) ∧ ∀ s ∈ c, cur.startedAt ≤ s.startedAt
  endedAt : (∃ s ∈ c, cur.endedAt = s.endedAt) ∧ ∀ s ∈ c, s.endedAt ≤ cur.endedAt
  bytesTx : cur.bytesTx = (c.map bytesTx).sum
  bytesRx : cur.bytesRx = (c.map bytesRx).sum
  connectionCount : cur.connectionCount = c.length
  nodup : ports.Nodup
  mem_ports : ∀ a, a ∈ ports ↔ a ∈ c.map sourceAddr

variable {key : ConsolidationKey} {c rest : List AccessSession} {cur s : AccessSession}
  {ports : List String}

theorem merging_single (hs : s.consolidationKey = key) :
    Merging key [s] s.single [s.sourceAddr] where
  members := by simpa using hs
  target := by
    subst hs
    exact ⟨rfl, rfl, rfl⟩
  first := ⟨s, mem_singleton_self s, rfl, rfl⟩
  startedAt := ⟨⟨s, mem_singleton_self s, rfl⟩, by simp [single]⟩
  endedAt := ⟨⟨s, mem_singleton_self s, rfl⟩, by simp [single]⟩
  bytesTx := by simp [single]
  bytesRx := by simp [single]
  connectionCount := rfl
  nodup := nodup_singleton _
  mem_ports := by simp

theorem AccessSession.gapRef_eq (h : s.endedAt ≠ 0) : s.gapRef = s.endedAt := by
  rw [gapRef, if_neg h]

theorem AccessSession.endedAt_absorb (hs : s.endedAt ≠ 0) :
    (cur.absorb s).endedAt = max cur.endedAt s.endedAt := by
  show (if cur.endedAt < s.gapRef then s.gapRef else cur.endedAt) = _
  rw [gapRef_eq hs]
  split
  · rename_i hlt
    exact (max_eq_right (le_of_lt hlt)).symm
  · rename_i hge
    exact (max_eq_left (not_lt.mp hge)).symm

variable (h : Merging key c cur ports)
include h

/-- A session is merged into the current one. -/
theorem Merging.absorb (hs : s.consolidationKey = key) (hended : s.endedAt ≠ 0)
    (hstart : cur.startedAt ≤ s.startedAt) :
    Merging key (c ++ [s]) (cur.absorb s) (ports.insert s.sourceAddr) where
  members := Runs.forall_mem_concat h.members hs
  target := h.target
  first := by
    obtain ⟨t, ht, heq⟩ := h.first
    exact ⟨t, mem_append_left _ ht, heq⟩
  startedAt := by
    obtain ⟨⟨t, ht, heq⟩, hle⟩ := h.startedAt
    exact ⟨⟨t, mem_append_left _ ht, heq⟩, Runs.forall_mem_concat hle hstart⟩
  endedAt := by
    obtain ⟨⟨t, ht, heq⟩, hle⟩ := h.endedAt
    rw [endedAt_absorb hended]
    refine ⟨?_, fun u hu => ?_⟩
    · rcases le_total cur.endedAt s.endedAt with hmax | hmax
      · exact ⟨s, mem_concat_self, max_eq_right hmax⟩
      · exact ⟨t, mem_append_left _ ht, (max_eq_left hmax).trans heq⟩
    · rcases mem_append.mp hu with hu | hu
      · exact (hle u hu).trans (le_max_left _ _)
      · rw [mem_singleton.mp hu]
        exact le_max_right _ _
  bytesTx := by
    rw [map_append, sum_append, ← h.bytesTx]
    simp [AccessSession.absorb]
  bytesRx := by
    rw [map_append, sum_append, ← h.bytesRx]
    simp [AccessSession.absorb]
  connectionCount := by
    rw [length_append, ← h.connectionCount]
    rfl
  nodup := h.nodup.insert
  mem_ports := by
    intro a
    rw [mem_insert_iff, h.mem_ports, map_append, mem_append, or_comm]
    simp

theorem Merging.length_ports : ports.length = distinctSources c := by
  refine List.Perm.length_eq ?_
  rw [perm_ext_iff_of_nodup h.nodup (nodup_dedup _)]
  intro a
  rw [h.mem_ports, mem_dedup]

/-- The current session, when the next one is too far away. -/
theorem Merging.finalize {batch : List AccessSession} (hsize : ∀ s ∈ c, groupSize batch s ≠ 1) :
    Summarizes batch c (finalizeMergedSourceAddr cur key.sourceIP ports) := by
  have hkey : ∀ s ∈ c, s.destAddr = key.destAddr ∧ s.protocol = key.protocol ∧
      s.resourceId = key.resourceId ∧ extractIP s.sourceAddr = key.sourceIP := by
    intro s hs
    have hs := h.members s hs
    subst hs
    exact ⟨rfl, rfl, rfl, rfl⟩
  obtain ⟨hdest, hproto, hres⟩ := h.target
  -- Only the source address is touched, and only with several ones.
  have hfields : ∀ addr, (∀ s ∈ c, addr =
      if 1 < distinctSources c then extractIP s.sourceAddr else s.sourceAddr) →
      Summarizes batch c { cur with sourceAddr := addr } := by
    intro addr hsource
    refine ⟨?_, ?_, h.startedAt, h.endedAt, h.bytesTx, h.bytesRx, ?_, hsource⟩
    · obtain ⟨s, hs, heq, _⟩ := h.first
      exact ⟨s, hs, heq⟩
    · intro s hs
      obtain ⟨hd, hp, hr, _⟩ := hkey s hs
      exact ⟨hdest.trans hd.symm, hproto.trans hp.symm, hres.trans hr.symm⟩
    · intro s hs
      rw [if_neg (hsize s hs), ← h.connectionCount]
  unfold finalizeMergedSourceAddr
  rw [h.length_ports]
  by_cases hmany : distinctSources c > 1
  · rw [if_pos hmany]
    refine hfields _ (fun s hs => ?_)
    rw [if_pos hmany]
    exact (hkey s hs).2.2.2.symm
  · rw [if_neg hmany]
    refine hfields _ (fun s hs => ?_)
    rw [if_neg hmany]
    obtain ⟨t, ht, _, heq⟩ := h.first
    have ht' := mem_dedup.mpr (mem_map_of_mem (f := sourceAddr) ht)
    have hs' := mem_dedup.mpr (mem_map_of_mem (f := sourceAddr) hs)
    have hpos := length_pos_of_mem ht'
    obtain ⟨a, ha⟩ : ∃ a, (c.map sourceAddr).dedup = [a] := by
      refine length_eq_one_iff.mp ?_
      have hone : (c.map sourceAddr).dedup.length ≤ 1 := not_lt.mp hmany
      omega
    rw [ha] at ht' hs'
    rw [heq, mem_singleton.mp ht', mem_singleton.mp hs']

end Merge

section Groups

variable {key : ConsolidationKey} {c rest group batch : List AccessSession} {cur : AccessSession}
  {ports : List String}

/-- The loop of a group follows the sweep: what it appends stands for the runs. -/
theorem forall₂_mergeRuns (h : Merging key c cur ports)
    (hrest : ∀ s ∈ rest, s.consolidationKey = key ∧ s.Raw)
    (hsorted : rest.Pairwise (fun s t => s.startedAt ≤ t.startedAt))
    (hbefore : ∀ s ∈ rest, cur.startedAt ≤ s.startedAt)
    (hended : ∀ s ∈ c, s.Raw)
    (hsize : ∀ s, s.consolidationKey = key → groupSize batch s ≠ 1) :
    List.Forall₂ (Summarizes batch)
      (sweepFrom startedAt endedAt sessionGapThreshold cur.endedAt
        c rest)
      (mergeRuns key.sourceIP cur ports rest) := by
  induction rest generalizing c cur ports with
  | nil => exact List.Forall₂.cons (h.finalize (fun s hs => hsize s (h.members s hs))) .nil
  | cons s rest ih =>
    obtain ⟨hs, hsraw⟩ := hrest s mem_cons_self
    obtain ⟨hfirst, hsorted⟩ := pairwise_cons.mp hsorted
    have hrest' : ∀ s ∈ rest, s.consolidationKey = key ∧ s.Raw :=
      fun t ht => hrest t (mem_cons_of_mem _ ht)
    have hcur : cur.endedAt ≠ 0 := by
      obtain ⟨t, ht, heq⟩ := h.endedAt.1
      rw [heq]
      exact (hended t ht).ended
    unfold mergeRuns sweepFrom
    rw [gapRef_eq hcur]
    split
    · rw [← endedAt_absorb hsraw.ended]
      refine ih (h.absorb hs hsraw.ended (hbefore s mem_cons_self)) hrest' hsorted ?_ ?_
      · exact fun t ht => hbefore t (mem_cons_of_mem _ ht)
      · exact Runs.forall_mem_concat hended hsraw
    · refine List.Forall₂.cons (h.finalize (fun s hs => hsize s (h.members s hs))) ?_
      have hsingle : Merging key [s] s.single [s.sourceAddr] := merging_single hs
      refine ih hsingle hrest' hsorted hfirst ?_
      intro t ht
      rw [mem_singleton.mp ht]
      exact hsraw

/-- A group of one is passed through. -/
theorem summarizes_self {s : AccessSession} (hs : s.Raw) (hsize : groupSize batch s = 1) :
    Summarizes batch [s] s where
  sessionId := ⟨s, mem_singleton_self s, rfl⟩
  target := by simp
  startedAt := by simp
  endedAt := by simp
  bytesTx := by simp
  bytesRx := by simp
  connectionCount := by simpa [hsize] using hs.single
  sourceAddr := by simp [distinctSources]

theorem forall₂_mergeGroup (hkey : ∀ s ∈ group, s.consolidationKey = key ∧ s.Raw)
    (hsorted : group.Pairwise (fun s t => s.startedAt ≤ t.startedAt))
    (hsize : ∀ s, s.consolidationKey = key → groupSize batch s = group.length) :
    List.Forall₂ (Summarizes batch)
      (sweep startedAt endedAt sessionGapThreshold group)
      (mergeGroup key group) := by
  unfold mergeGroup
  cases group with
  | nil => exact List.Forall₂.nil
  | cons s rest =>
    obtain ⟨hs, hraw⟩ := hkey s mem_cons_self
    obtain ⟨hfirst, hsorted⟩ := pairwise_cons.mp hsorted
    split
    · rename_i hsmall
      have hnil : rest = [] := by
        simp only [minConnectionsToConsolidate, length_cons] at hsmall
        exact eq_nil_of_length_eq_zero (by omega)
      subst hnil
      exact List.Forall₂.cons (summarizes_self hraw (hsize s hs)) .nil
    · rename_i hbig
      simp only [minConnectionsToConsolidate] at hbig
      have hsingle : Merging key [s] s.single [s.sourceAddr] := merging_single hs
      refine forall₂_mergeRuns hsingle
        (fun t ht => hkey t (mem_cons_of_mem _ ht)) hsorted hfirst ?_ ?_
      · intro t ht
        rw [mem_singleton.mp ht]
        exact hraw
      · intro t ht
        rw [hsize t ht]
        omega

end Groups

section Batch

variable {batch : List AccessSession} {groups : List (ConsolidationKey × List AccessSession)}

/-- The runs of all groups. -/
def bursts (groups : List (ConsolidationKey × List AccessSession)) : List (List AccessSession) :=
  groups.flatMap (fun p =>
    sweep startedAt endedAt sessionGapThreshold p.2)

section

variable (h : Arranges batch groups)
include h

theorem Arranges.mem {p : ConsolidationKey × List AccessSession} (hp : p ∈ groups)
    {s : AccessSession} : s ∈ p.2 ↔ s ∈ batch ∧ s.consolidationKey = p.1 := by
  rw [(h.members p hp).mem_iff, mem_filter, decide_eq_true_iff]

theorem Arranges.nodup : (groups.map Prod.fst).Nodup :=
  h.keys.nodup_iff.mpr (nodup_dedup _)

/-- The groups together are the batch. -/
theorem Arranges.flatMap_perm : (groups.flatMap Prod.snd).Perm batch := by
  have hgroups : (groups.flatMap Prod.snd).Perm
      ((groups.map Prod.fst).flatMap (fun k =>
        batch.filter (fun s => s.consolidationKey = k))) := by
    rw [flatMap_map]
    exact List.Perm.flatMap_left groups (fun p hp => h.members p hp)
  refine hgroups.trans (flatMap_filter_perm consolidationKey h.nodup batch ?_)
  intro s hs
  exact h.keys.mem_iff.mpr (mem_dedup.mpr (mem_map_of_mem hs))

/-- A chain of sessions in one batch stays in one group. -/
theorem linked_group {p : ConsolidationKey × List AccessSession} (hp : p ∈ groups)
    {s t : AccessSession} (hs : s ∈ p.2) (hst : Linked SameBurst batch s t) :
    t ∈ p.2 ∧
      Linked (Near startedAt endedAt sessionGapThreshold) p.2 s t := by
  induction hst with
  | refl => exact ⟨hs, Relation.ReflTransGen.refl⟩
  | tail _ hstep ih =>
    obtain ⟨hmem, hlinked⟩ := ih
    obtain ⟨_, hbatch, hkey, hnear⟩ := hstep
    have hnext := (h.mem hp).mpr ⟨hbatch, hkey.symm.trans ((h.mem hp).mp hmem).2⟩
    exact ⟨hnext, hlinked.tail ⟨hmem, hnext, hnear⟩⟩

end

/-- The runs of the groups are the components of the batch. -/
theorem components_bursts (hraw : ∀ s ∈ batch, s.Raw) (h : Arranges batch groups) :
    Components SameBurst batch (bursts groups) := by
  have hcomp : ∀ p ∈ groups,
      Components (Near startedAt endedAt sessionGapThreshold) p.2
        (sweep startedAt endedAt sessionGapThreshold p.2) := by
    intro p hp
    refine components_sweep (by decide) (fun s hs => ?_) (h.sorted p hp)
    exact (hraw s ((h.mem hp).mp hs).1).ordered
  have hmem : ∀ p ∈ groups, ∀ c ∈ sweep startedAt endedAt
      sessionGapThreshold p.2, ∀ s ∈ c, s ∈ p.2 := by
    intro p hp c hc s hs
    exact (hcomp p hp).perm.mem_iff.mp (mem_flatten.mpr ⟨c, hc, hs⟩)
  refine ⟨⟨?_, ?_, ?_⟩, ?_⟩
  · intro c hc
    obtain ⟨p, hp, hc⟩ := mem_flatMap.mp hc
    exact (hcomp p hp).nonempty c hc
  · intro c hc s hs t ht
    obtain ⟨p, hp, hc⟩ := mem_flatMap.mp hc
    refine Relation.ReflTransGen.mono ?_ s t ((hcomp p hp).inside c hc s hs t ht)
    intro a b hab
    obtain ⟨ha, hb, hnear⟩ := hab
    obtain ⟨ha, hakey⟩ := (h.mem hp).mp ha
    obtain ⟨hb, hbkey⟩ := (h.mem hp).mp hb
    exact ⟨ha, hb, hakey.trans hbkey.symm, hnear⟩
  · refine pairwise_flatMap.mpr ⟨fun p hp => ?_, ?_⟩
    · refine (hcomp p hp).apart.imp_of_mem ?_
      intro c d hc hd hcd s hs t ht hst
      exact hcd s hs t ht (linked_group h hp (hmem p hp c hc s hs) hst).2
    · have hkeys := pairwise_map.mp h.nodup
      refine hkeys.imp_of_mem ?_
      intro p q hp hq hpq c hc d hd s hs t ht hst
      have hps := (linked_group h hp (hmem p hp c hc s hs) hst).1
      have hqt := hmem q hq d hd t ht
      exact hpq (((h.mem hp).mp hps).2.symm.trans ((h.mem hq).mp hqt).2)
  · have hflat : (bursts groups).flatten.Perm (groups.flatMap Prod.snd) := by
      unfold bursts
      rw [flatten_eq_flatMap, flatMap_assoc]
      refine List.Perm.flatMap_left groups (fun p hp => ?_)
      rw [← flatten_eq_flatMap]
      exact (hcomp p hp).perm
    exact hflat.trans h.flatMap_perm

/-- A batch of at most one session is its only group. -/
theorem consolidateSessions_eq (h : Arranges batch groups) :
    consolidateSessions batch groups = groups.flatMap (fun p => mergeGroup p.1 p.2) := by
  unfold consolidateSessions
  split
  · rename_i hsmall
    have hgroup : ∀ p ∈ groups, mergeGroup p.1 p.2 = p.2 := by
      intro p hp
      have hlen : p.2.length ≤ batch.length := by
        rw [(h.members p hp).length_eq]
        exact length_filter_le _ _
      unfold mergeGroup
      rw [if_pos (by rw [minConnectionsToConsolidate]; omega)]
    rw [flatMap_congr hgroup]
    have hperm := h.flatMap_perm
    cases batch with
    | nil => rw [hperm.eq_nil]
    | cons s rest =>
      have hnil : rest = [] := by
        rw [length_cons] at hsmall
        exact eq_nil_of_length_eq_zero (by omega)
      subst hnil
      exact (perm_singleton.mp hperm).symm
  · rfl

theorem forall₂_flatMap {α β γ : Type} {r : β → γ → Prop} {l : List α} {f : α → List β}
    {g : α → List γ} (h : ∀ x ∈ l, List.Forall₂ r (f x) (g x)) :
    List.Forall₂ r (l.flatMap f) (l.flatMap g) := by
  induction l with
  | nil => exact List.Forall₂.nil
  | cons x l ih =>
    rw [flatMap_cons, flatMap_cons]
    exact rel_append (h x mem_cons_self)
      (ih (fun y hy => h y (mem_cons_of_mem _ hy)))

/-- What is sent stands for the components of the batch, one for one. -/
theorem summarizes_bursts (hraw : ∀ s ∈ batch, s.Raw) (h : Arranges batch groups) :
    List.Forall₂ (Summarizes batch) (bursts groups) (consolidateSessions batch groups) := by
  rw [consolidateSessions_eq h]
  refine forall₂_flatMap (fun p hp => forall₂_mergeGroup ?_ (h.sorted p hp) ?_)
  · intro s hs
    obtain ⟨hbatch, hkey⟩ := (h.mem hp).mp hs
    exact ⟨hkey, hraw s hbatch⟩
  · intro s hs
    rw [groupSize, hs, (h.members p hp).length_eq]

/-- Sessions that stand for the same components, one for one, differ in their IDs only. -/
theorem map_withoutId_eq {batch' : List AccessSession} (hbatch : batch.Perm batch')
    {cs ds : List (List AccessSession)} (hcs : List.Forall₂ List.Perm cs ds)
    {ms ms' : List AccessSession} (hms : List.Forall₂ (Summarizes batch) cs ms)
    (hms' : List.Forall₂ (Summarizes batch') ds ms') :
    ms.map withoutId = ms'.map withoutId := by
  induction hcs generalizing ms ms' with
  | nil =>
    cases hms
    cases hms'
    rfl
  | cons hcd _ ih =>
    cases hms with
    | cons hm hms =>
      cases hms' with
      | cons hm' hms' => rw [map_cons, map_cons, hm.unique hm' hbatch hcd, ih hms hms']

/-- **The order of a batch does not matter**, up to the order of the result and the IDs. -/
theorem consolidateSessions_perm {batch' : List AccessSession}
    {groups' : List (ConsolidationKey × List AccessSession)} (hraw : ∀ s ∈ batch, s.Raw)
    (h : Arranges batch groups) (h' : Arranges batch' groups') (hbatch : batch.Perm batch') :
    ((consolidateSessions batch groups).map withoutId).Perm
      ((consolidateSessions batch' groups').map withoutId) := by
  have hraw' : ∀ s ∈ batch', s.Raw := fun s hs => hraw s (hbatch.mem_iff.mpr hs)
  obtain ⟨ds, hds, hcs⟩ := (components_bursts hraw h).unique SameBurst.symm
    (components_bursts hraw' h') hbatch
  obtain ⟨ms, hms, hperm⟩ := perm_comp_forall₂ hds (summarizes_bursts hraw' h')
  rw [map_withoutId_eq hbatch hcs (summarizes_bursts hraw h) hms]
  exact hperm.map _

end Batch

/-- The sessions that pointers lead to; `next` is the next pointer. -/
structure Heap where
  cells : Nat → AccessSession
  next : Nat

namespace Heap

def modify (h : Heap) (ref : Nat) (f : AccessSession → AccessSession) : Heap :=
  { h with cells := update h.cells ref (f (h.cells ref)) }

/-- `cloneSession`: the copy is behind the next pointer. -/
def cloneSession (h : Heap) (ref : Nat) : Heap where
  cells := update h.cells h.next (h.cells ref)
  next := h.next + 1

/-- A clone of a session that counts itself. -/
def beginRun (h : Heap) (ref : Nat) : Heap :=
  (h.cloneSession ref).modify h.next single

end Heap

/-- The loop over a sorted group, with its heap. -/
def mergeRefs (sourceIP : String) (h : Heap) (cur : Nat) (ports : List String) :
    List Nat → Heap × List Nat
  | [] => (h.modify cur (fun c => finalizeMergedSourceAddr c sourceIP ports), [cur])
  | ref :: rest =>
    let s := h.cells ref
    if s.startedAt - (h.cells cur).gapRef ≤ sessionGapThreshold then
      mergeRefs sourceIP (h.modify cur (fun c => c.absorb s)) cur (ports.insert s.sourceAddr) rest
    else
      let h := h.modify cur (fun c => finalizeMergedSourceAddr c sourceIP ports)
      let merged := mergeRefs sourceIP (h.beginRun ref) h.next [s.sourceAddr] rest
      (merged.1, cur :: merged.2)

/-- One group, with its heap. -/
def mergeGroupRefs (h : Heap) (key : ConsolidationKey) (group : List Nat) : Heap × List Nat :=
  if group.length < minConnectionsToConsolidate then (h, group)
  else
    match group with
    | [] => (h, [])
    | ref :: rest =>
      mergeRefs key.sourceIP (h.beginRun ref) h.next [(h.cells ref).sourceAddr] rest

/-- The loop over the groups, with its heap. -/
def mergeGroupsRefs (h : Heap) : List (ConsolidationKey × List Nat) → Heap × List Nat
  | [] => (h, [])
  | p :: groups =>
    let merged := mergeGroupRefs h p.1 p.2
    let others := mergeGroupsRefs merged.1 groups
    (others.1, merged.2 ++ others.2)

/-- `consolidateSessions` on pointers, for an arrangement of its groups. -/
def consolidateRefs (h : Heap) (sessions : List Nat)
    (groups : List (ConsolidationKey × List Nat)) : Heap × List Nat :=
  if sessions.length ≤ 1 then (h, sessions) else mergeGroupsRefs h groups

/-- The groups with the sessions their pointers lead to. -/
def Heap.groups (h : Heap) (groups : List (ConsolidationKey × List Nat)) :
    List (ConsolidationKey × List AccessSession) :=
  groups.map (fun p => (p.1, p.2.map h.cells))

/-- Groups of pointers, in the order in which they are ranged over. -/
structure Heap.Arranges (h : Heap) (sessions : List Nat)
    (groups : List (ConsolidationKey × List Nat)) : Prop where
  members : ∀ p ∈ groups, ∀ ref ∈ p.2, ref ∈ sessions
  arranges : AccessLog.Arranges (sessions.map h.cells) (h.groups groups)

/-- What the merging of some pointers does: the sessions that were there stay as they
are, apart from a clone that is being written, and those it returns have the given
values. -/
structure Heap.Yields (h : Heap) (clone : Option Nat) (r : Heap × List Nat)
    (result : List AccessSession) : Prop where
  next : h.next ≤ r.1.next
  kept : ∀ i < h.next, clone ≠ some i → r.1.cells i = h.cells i
  bounded : ∀ i ∈ r.2, i < r.1.next
  cells : r.2.map r.1.cells = result

section Refinement

variable {h : Heap}

theorem Heap.modify_self (h : Heap) (ref : Nat) (f : AccessSession → AccessSession) :
    (h.modify ref f).cells ref = f (h.cells ref) :=
  update_self _ _ _

theorem Heap.modify_of_ne (h : Heap) {i ref : Nat} (hne : i ≠ ref)
    (f : AccessSession → AccessSession) : (h.modify ref f).cells i = h.cells i :=
  update_of_ne hne _ _

theorem Heap.beginRun_self (h : Heap) (ref : Nat) :
    (h.beginRun ref).cells h.next = (h.cells ref).single := by
  have hclone : (h.cloneSession ref).cells h.next = h.cells ref := update_self _ _ _
  rw [beginRun, modify_self, hclone]

theorem Heap.beginRun_of_lt (h : Heap) (ref : Nat) {i : Nat} (hi : i < h.next) :
    (h.beginRun ref).cells i = h.cells i := by
  have hclone : (h.cloneSession ref).cells i = h.cells i :=
    update_of_ne (Nat.ne_of_lt hi) _ _
  rw [beginRun, modify_of_ne _ (Nat.ne_of_lt hi), hclone]

theorem some_ne_of_lt {i j : Nat} (h : i < j) : some j ≠ some i :=
  fun heq => Nat.ne_of_gt h (Option.some.inj heq)

/-- The loop writes into the current clone and into the ones it creates. -/
theorem mergeRefs_yields (ip : String) (h : Heap) (cur : Nat) (ports : List String)
    (rest : List Nat) (hcur : cur < h.next) (hrest : ∀ r ∈ rest, r < cur) :
    h.Yields (some cur) (mergeRefs ip h cur ports rest)
      (mergeRuns ip (h.cells cur) ports (rest.map h.cells)) := by
  induction rest generalizing h cur ports with
  | nil =>
    refine ⟨le_refl _, fun i _ hne => ?_, ?_, ?_⟩
    · exact h.modify_of_ne (fun heq => hne (congrArg some heq.symm)) _
    · intro i hi
      rw [mem_singleton.mp hi]
      exact hcur
    · simp only [mergeRefs, mergeRuns, map_cons, map_nil, h.modify_self]
  | cons ref rest ih =>
    have href : ref < cur := hrest ref mem_cons_self
    have hrest' : ∀ r ∈ rest, r < cur := fun r hr => hrest r (mem_cons_of_mem _ hr)
    have hmodify : ∀ f, rest.map (h.modify cur f).cells = rest.map h.cells := by
      intro f
      exact map_congr_left (fun r hr => h.modify_of_ne (Nat.ne_of_lt (hrest' r hr)) f)
    unfold mergeRefs
    rw [map_cons, mergeRuns]
    dsimp only
    split
    · have hrun := ih (h.modify cur (fun c => c.absorb (h.cells ref))) cur
        (ports.insert (h.cells ref).sourceAddr) hcur hrest'
      rw [hmodify, h.modify_self] at hrun
      refine ⟨hrun.next, fun i hi hne => ?_, hrun.bounded, hrun.cells⟩
      rw [hrun.kept i hi hne, h.modify_of_ne (fun heq => hne (congrArg some heq.symm))]
    · -- The clone of the next run is a new cell, so the finished one is not touched again.
      generalize hfin : h.modify cur (fun c => finalizeMergedSourceAddr c ip ports) = h₁
      have hnext₁ : h₁.next = h.next := by
        rw [← hfin]
        rfl
      have hkept₁ : ∀ i, i ≠ cur → h₁.cells i = h.cells i := by
        intro i hne
        rw [← hfin, h.modify_of_ne hne]
      have hcur₁ : h₁.cells cur = finalizeMergedSourceAddr (h.cells cur) ip ports := by
        rw [← hfin, h.modify_self]
      have hvalues : rest.map (h₁.beginRun ref).cells = rest.map h.cells := by
        refine map_congr_left (fun r hr => ?_)
        have hr := hrest' r hr
        rw [h₁.beginRun_of_lt ref (by omega), hkept₁ r (by omega)]
      have hrun := ih (h₁.beginRun ref) h₁.next [(h.cells ref).sourceAddr]
        (Nat.lt_succ_self _) (fun r hr => by have := hrest' r hr; omega)
      rw [hvalues, h₁.beginRun_self, hkept₁ ref (by omega)] at hrun
      generalize mergeRefs ip (h₁.beginRun ref) h₁.next [(h.cells ref).sourceAddr] rest = r
        at hrun ⊢
      have hnext : h₁.next + 1 ≤ r.1.next := hrun.next
      have hold : ∀ i < h.next, r.1.cells i = h₁.cells i := by
        intro i hi
        have hi₁ : i < h₁.next := by omega
        rw [hrun.kept i (Nat.lt_succ_of_lt hi₁) (some_ne_of_lt hi₁), h₁.beginRun_of_lt ref hi₁]
      refine ⟨?_, fun i hi hne => ?_, fun i hi => ?_, ?_⟩
      · show h.next ≤ r.1.next
        omega
      · exact (hold i hi).trans (hkept₁ i (fun heq => hne (congrArg some heq.symm)))
      · rcases mem_cons.mp hi with rfl | hi
        · show i < r.1.next
          omega
        · exact hrun.bounded i hi
      · rw [map_cons, hold cur hcur, hcur₁, hrun.cells]

theorem mergeGroupRefs_yields (key : ConsolidationKey) {group : List Nat}
    (hgroup : ∀ r ∈ group, r < h.next) :
    h.Yields none (mergeGroupRefs h key group) (mergeGroup key (group.map h.cells)) := by
  unfold mergeGroupRefs mergeGroup
  rw [length_map]
  split
  · exact ⟨le_refl _, fun _ _ _ => rfl, hgroup, rfl⟩
  · cases group with
    | nil => exact ⟨le_refl _, fun _ _ _ => rfl, hgroup, rfl⟩
    | cons ref rest =>
      have hrest : ∀ r ∈ rest, r < h.next := fun r hr => hgroup r (mem_cons_of_mem _ hr)
      have hvalues : rest.map (h.beginRun ref).cells = rest.map h.cells :=
        map_congr_left (fun r hr => h.beginRun_of_lt ref (hrest r hr))
      have hrun := mergeRefs_yields key.sourceIP (h.beginRun ref) h.next
        [(h.cells ref).sourceAddr] rest (Nat.lt_succ_self _) hrest
      rw [hvalues, h.beginRun_self] at hrun
      refine ⟨(Nat.le_succ _).trans hrun.next, fun i hi _ => ?_, hrun.bounded, hrun.cells⟩
      exact (hrun.kept i (Nat.lt_succ_of_lt hi) (some_ne_of_lt hi)).trans
        (h.beginRun_of_lt ref hi)

theorem mergeGroupsRefs_yields (h : Heap) {groups : List (ConsolidationKey × List Nat)}
    (hgroups : ∀ p ∈ groups, ∀ r ∈ p.2, r < h.next) :
    h.Yields none (mergeGroupsRefs h groups)
      ((h.groups groups).flatMap (fun p => mergeGroup p.1 p.2)) := by
  induction groups generalizing h with
  | nil =>
    refine ⟨le_refl _, fun _ _ _ => rfl, fun i hi => ?_, rfl⟩
    cases hi
  | cons p groups ih =>
    have hfirst := mergeGroupRefs_yields p.1 (hgroups p mem_cons_self)
    have hrest : ∀ q ∈ groups, ∀ r ∈ q.2, r < h.next :=
      fun q hq => hgroups q (mem_cons_of_mem _ hq)
    unfold mergeGroupsRefs
    generalize mergeGroupRefs h p.1 p.2 = r at hfirst ⊢
    have hothers := ih r.1 (fun q hq i hi => (hrest q hq i hi).trans_le hfirst.next)
    have hsame : r.1.groups groups = h.groups groups := by
      refine map_congr_left (fun q hq => Prod.ext rfl ?_)
      exact map_congr_left (fun i hi => hfirst.kept i (hrest q hq i hi) nofun)
    have hkept : r.2.map (mergeGroupsRefs r.1 groups).1.cells = r.2.map r.1.cells :=
      map_congr_left (fun i hi => hothers.kept i (hfirst.bounded i hi) nofun)
    refine ⟨hfirst.next.trans hothers.next, fun i hi hne => ?_, fun i hi => ?_, ?_⟩
    · exact (hothers.kept i (hi.trans_le hfirst.next) hne).trans (hfirst.kept i hi hne)
    · rcases mem_append.mp hi with hi | hi
      · exact (hfirst.bounded i hi).trans_le hothers.next
      · exact hothers.bounded i hi
    · rw [map_append, hkept, hfirst.cells, hothers.cells, hsame]
      rfl

/-- **The function with its heap computes the one without**, and leaves the sessions it
was given as they were. -/
theorem consolidateRefs_cells {sessions : List Nat} {groups : List (ConsolidationKey × List Nat)}
    (hlt : ∀ r ∈ sessions, r < h.next) (hmem : ∀ p ∈ groups, ∀ r ∈ p.2, r ∈ sessions) :
    h.Yields none (consolidateRefs h sessions groups)
      (consolidateSessions (sessions.map h.cells) (h.groups groups)) := by
  unfold consolidateRefs consolidateSessions
  rw [length_map]
  split
  · exact ⟨le_refl _, fun _ _ _ => rfl, hlt, rfl⟩
  · exact mergeGroupsRefs_yields h (fun p hp r hr => hlt r (hmem p hp r hr))

end Refinement

/-- **Consolidation.**  For sessions that have ended and were not merged before, in any
arrangement of their groups, the result has one session for each connected component
of the batch, which stands for its members; a batch in another order gives the same up
to order and IDs; and the sessions that were passed in are not modified. -/
theorem consolidateRefs_components (h : Heap) (sessions : List Nat)
    (groups : List (ConsolidationKey × List Nat)) (hlt : ∀ ref ∈ sessions, ref < h.next)
    (hraw : ∀ ref ∈ sessions, (h.cells ref).Raw) (harranges : h.Arranges sessions groups) :
    (∃ comps, Components SameBurst (sessions.map h.cells) comps ∧
        List.Forall₂ (Summarizes (sessions.map h.cells)) comps
          ((consolidateRefs h sessions groups).2.map
            (consolidateRefs h sessions groups).1.cells)) ∧
      (∀ (sessions' : List Nat) (groups' : List (ConsolidationKey × List Nat)),
        sessions'.Perm sessions → h.Arranges sessions' groups' →
          (((consolidateRefs h sessions' groups').2.map
              (consolidateRefs h sessions' groups').1.cells).map withoutId).Perm
            (((consolidateRefs h sessions groups).2.map
              (consolidateRefs h sessions groups).1.cells).map withoutId)) ∧
      ∀ ref < h.next, (consolidateRefs h sessions groups).1.cells ref = h.cells ref := by
  have hyields := consolidateRefs_cells hlt harranges.members
  have hraw' : ∀ s ∈ sessions.map h.cells, s.Raw := by
    intro s hs
    obtain ⟨ref, href, rfl⟩ := mem_map.mp hs
    exact hraw ref href
  refine ⟨⟨bursts (h.groups groups), components_bursts hraw' harranges.arranges, ?_⟩, ?_,
    fun ref href => hyields.kept ref href nofun⟩
  · rw [hyields.cells]
    exact summarizes_bursts hraw' harranges.arranges
  · intro sessions' groups' hperm harranges'
    have hyields' := consolidateRefs_cells
      (fun r hr => hlt r (hperm.mem_iff.mp hr)) harranges'.members
    rw [hyields.cells, hyields'.cells]
    exact (consolidateSessions_perm hraw' harranges.arranges harranges'.arranges
      (hperm.symm.map _)).symm

/-- Three connections of one client: the second one is within the first, the third one
comes ten seconds later. -/
def threeVisits : Heap where
  cells ref :=
    { sessionId := if ref = 0 then "a" else if ref = 1 then "b" else "c"
      resourceId := 7
      sourceAddr := if ref = 0 then "10.0.0.1:1000" else "10.0.0.1:1001"
      destAddr := "10.0.0.2:22"
      protocol := .tcp
      startedAt := if ref = 0 then 1000000000 else if ref = 1 then 2000000000 else 20000000000
      endedAt := if ref = 0 then 10000000000 else if ref = 1 then 3000000000 else 21000000000 }
  next := 3

def visitsGroups : List (ConsolidationKey × List Nat) :=
  [((threeVisits.cells 0).consolidationKey, [0, 1, 2])]

theorem threeVisits_kept :
    threeVisits.Arranges [2, 0, 1] visitsGroups ∧
      ((consolidateRefs threeVisits [2, 0, 1] visitsGroups).2.map
          (consolidateRefs threeVisits [2, 0, 1] visitsGroups).1.cells).map
        (fun s => (s.connectionCount, s.sourceAddr)) =
          [(2, "10.0.0.1"), (1, "10.0.0.1:1001")] ∧
      ∀ ref < 3, (consolidateRefs threeVisits [2, 0, 1] visitsGroups).1.cells ref =
        threeVisits.cells ref := by
  have harranges : threeVisits.Arranges [2, 0, 1] visitsGroups :=
    ⟨by decide, by decide +kernel⟩
  have hraw : ∀ ref ∈ [2, 0, 1], (threeVisits.cells ref).Raw := by
    intro ref href
    simp only [mem_cons, not_mem_nil, or_false] at href
    rcases href with rfl | rfl | rfl
    all_goals exact ⟨by decide, by decide, rfl⟩
  exact ⟨harranges, by decide +kernel, (consolidateRefs_components threeVisits [2, 0, 1]
    visitsGroups (by decide) hraw harranges).2.2⟩

end Newt.AccessLog

import Mathlib.Data.List.Sort
import Newt.Lib.Address

/-!
# Prefix tables

The interface of a routing table keyed by CIDR prefixes, as the BART library's
`bart.Table` documents it.  The library itself is not part of this
development, so `PrefixTable` names its operations and `LawfulPrefixTable` says
what is relied on: the table is a map on canonical prefixes, `all` lists it,
and `supernets` lists the stored prefixes that cover the argument, from the
longest to the shortest.

`ListTable` shows that the laws can be met: an association list whose keys are
canonical and distinct.
-/

namespace Netip

open List

/-- The operations of a prefix table with values of any type. -/
class PrefixTable (T : Type → Type) where
  empty {α : Type} : T α
  get {α : Type} : T α → Prefix → Option α
  insert {α : Type} : T α → Prefix → α → T α
  delete {α : Type} : T α → Prefix → T α
  size {α : Type} : T α → Nat
  all {α : Type} : T α → List (Prefix × α)
  supernets {α : Type} : T α → Prefix → List (Prefix × α)

open PrefixTable

/-- A prefix table is a map on canonical prefixes. -/
class LawfulPrefixTable (T : Type → Type) [PrefixTable T] : Prop where
  get_masked {α : Type} (t : T α) (p : Prefix) :
    get t p.masked = get t p
  get_empty {α : Type} (p : Prefix) : get (empty : T α) p = none
  get_insert {α : Type} (t : T α) (p q : Prefix) (v : α) :
    get (insert t p v) q =
      if q.masked = p.masked then some v else get t q
  get_delete {α : Type} (t : T α) (p q : Prefix) :
    get (delete t p) q =
      if q.masked = p.masked then none else get t q
  size_eq_zero_iff {α : Type} (t : T α) :
    size t = 0 ↔ ∀ p, get t p = none
  mem_all {α : Type} (t : T α) (p : Prefix) (v : α) :
    (p, v) ∈ all t ↔ p.masked = p ∧ get t p = some v
  nodup_all {α : Type} (t : T α) : ((all t).map Prod.fst).Nodup
  mem_supernets {α : Type} (t : T α) (q p : Prefix) (v : α) :
    (p, v) ∈ supernets t q ↔
      p.masked = p ∧ get t p = some v ∧ p.covers q = true
  supernets_longest_first {α : Type} (t : T α) (q : Prefix) :
    (supernets t q).Pairwise (fun a b => b.1.bits < a.1.bits)

/-- An association list of canonical, pairwise distinct prefixes. -/
structure ListTable (α : Type) where
  entries : List (Prefix × α)
  canonical : ∀ e ∈ entries, e.1.masked = e.1
  nodup : (entries.map Prod.fst).Nodup

namespace ListTable

variable {α : Type}

/-- Drop the entry stored under `k`. -/
def without (k : Prefix) (entries : List (Prefix × α)) : List (Prefix × α) :=
  entries.filter (fun e => e.1 ≠ k)

variable {entries : List (Prefix × α)} {k p : Prefix}

theorem mem_without {e : Prefix × α} : e ∈ without k entries ↔ e ∈ entries ∧ e.1 ≠ k := by
  simp [without]

theorem nodup_without (k : Prefix) (h : (entries.map Prod.fst).Nodup) :
    ((without k entries).map Prod.fst).Nodup :=
  h.sublist (filter_sublist.map _)

/-- Longer prefixes come first. -/
def Longer (a b : Prefix × α) : Prop := b.1.bits ≤ a.1.bits

instance : DecidableRel (Longer (α := α)) := fun a b =>
  inferInstanceAs (Decidable (b.1.bits ≤ a.1.bits))

instance : Std.Total (Longer (α := α)) := ⟨fun a b => Nat.le_total b.1.bits a.1.bits⟩

instance : IsTrans (Prefix × α) Longer := ⟨fun _ _ _ h₁ h₂ => Nat.le_trans h₂ h₁⟩

instance : PrefixTable ListTable where
  empty := ⟨[], by simp, by simp⟩
  get t p := (t.entries.find? (fun e => e.1 = p.masked)).map Prod.snd
  insert t p v :=
    { entries := (p.masked, v) :: without p.masked t.entries
      canonical := by
        intro e he
        rcases mem_cons.mp he with rfl | he
        · exact Prefix.masked_masked p
        · exact t.canonical e (mem_without.mp he).1
      nodup := by
        rw [map_cons, nodup_cons]
        refine ⟨?_, nodup_without _ t.nodup⟩
        intro hmem
        obtain ⟨e, he, hek⟩ := mem_map.mp hmem
        exact (mem_without.mp he).2 hek }
  delete t p :=
    { entries := without p.masked t.entries
      canonical := fun e he => t.canonical e (mem_without.mp he).1
      nodup := nodup_without _ t.nodup }
  size t := t.entries.length
  all t := t.entries
  supernets t q := (t.entries.filter (fun e => e.1.covers q)).insertionSort Longer

/-- With distinct keys, looking up finds exactly the stored pairs. -/
theorem find_eq_some_iff (hnd : (entries.map Prod.fst).Nodup) {v : α} :
    (entries.find? (fun e => e.1 = k)).map Prod.snd = some v ↔ (k, v) ∈ entries := by
  induction entries with
  | nil => simp
  | cons e rest ih =>
    obtain ⟨k', v'⟩ := e
    rw [map_cons, nodup_cons] at hnd
    by_cases hk : k' = k
    · subst hk
      have hfresh : (k', v) ∉ rest := fun h =>
        hnd.1 (mem_map.mpr ⟨(k', v), h, rfl⟩)
      simp [hfresh, eq_comm]
    · simp [hk, Ne.symm hk, ← ih hnd.2]

theorem find_eq_none_iff :
    (entries.find? (fun e => e.1 = k)).map Prod.snd = none ↔ ∀ v, (k, v) ∉ entries := by
  simp only [Option.map_eq_none_iff, find?_eq_none, decide_eq_true_eq]
  refine ⟨?_, ?_⟩
  · intro h v hv
    exact h (k, v) hv rfl
  · intro h e he hk
    subst hk
    exact h e.2 he

theorem get_eq_some_iff (t : ListTable α) {v : α} :
    get t p = some v ↔ (p.masked, v) ∈ t.entries :=
  find_eq_some_iff t.nodup

theorem get_eq_none_iff (t : ListTable α) :
    get t p = none ↔ ∀ v, (p.masked, v) ∉ t.entries :=
  find_eq_none_iff

/-- Two tables with the same entries under a key answer alike there. -/
private theorem get_congr {s t : ListTable α}
    (h : ∀ v, (p.masked, v) ∈ s.entries ↔ (p.masked, v) ∈ t.entries) :
    get s p = get t p := by
  cases ht : get t p with
  | none =>
    rw [get_eq_none_iff] at ht ⊢
    intro v hv
    exact ht v ((h v).mp hv)
  | some v =>
    rw [get_eq_some_iff] at ht ⊢
    exact (h v).mpr ht

instance : LawfulPrefixTable ListTable where
  get_masked t p := by simp [PrefixTable.get]
  get_empty p := rfl
  get_insert t p q v := by
    by_cases hk : q.masked = p.masked
    · rw [if_pos hk, get_eq_some_iff]
      simp [PrefixTable.insert, hk]
    · rw [if_neg hk]
      apply get_congr
      intro v'
      simp [PrefixTable.insert, mem_without, hk]
  get_delete t p q := by
    by_cases hk : q.masked = p.masked
    · rw [if_pos hk, get_eq_none_iff]
      intro v hv
      exact (mem_without.mp hv).2 hk
    · rw [if_neg hk]
      apply get_congr
      intro v'
      simp [PrefixTable.delete, mem_without, hk]
  size_eq_zero_iff t := by
    simp only [PrefixTable.size, length_eq_zero_iff]
    constructor
    · intro h p
      rw [get_eq_none_iff, h]
      simp
    · intro h
      apply eq_nil_iff_forall_not_mem.mpr
      rintro ⟨k, v⟩ he
      have hk := (get_eq_none_iff t).mp (h k) v
      rw [t.canonical _ he] at hk
      exact hk he
  mem_all t p v := by
    rw [get_eq_some_iff]
    constructor
    · intro h
      have hp : p.masked = p := t.canonical _ h
      exact ⟨hp, hp.symm ▸ h⟩
    · rintro ⟨hp, h⟩
      rwa [hp] at h
  nodup_all t := t.nodup
  mem_supernets t q p v := by
    rw [get_eq_some_iff]
    simp only [PrefixTable.supernets, mem_insertionSort, mem_filter]
    constructor
    · rintro ⟨h, hc⟩
      have hp : p.masked = p := t.canonical _ h
      exact ⟨hp, hp.symm ▸ h, hc⟩
    · rintro ⟨hp, h, hc⟩
      rw [hp] at h
      exact ⟨h, hc⟩
  supernets_longest_first t q := by
    -- Sorted by length, and no two of the entries have the same length.
    let found := t.entries.filter (fun e => e.1.covers q)
    have hsorted : (found.insertionSort Longer).Pairwise Longer :=
      pairwise_insertionSort Longer found
    have hperm : (found.insertionSort Longer).Perm found := perm_insertionSort Longer found
    have hnodup : ((found.insertionSort Longer).map Prod.fst).Nodup :=
      ((hperm.map Prod.fst).nodup_iff).mpr (t.nodup.sublist (filter_sublist.map _))
    have hdistinct : (found.insertionSort Longer).Pairwise (fun a b => a.1 ≠ b.1) :=
      pairwise_map.mp hnodup
    refine (hsorted.and hdistinct).imp_of_mem ?_
    rintro a b ha hb ⟨hle, hne⟩
    obtain ⟨ha, hac⟩ := mem_filter.mp (hperm.mem_iff.mp ha)
    obtain ⟨hb, hbc⟩ := mem_filter.mp (hperm.mem_iff.mp hb)
    refine Nat.lt_of_le_of_ne hle ?_
    intro hbits
    apply hne
    rw [← t.canonical a ha, ← t.canonical b hb]
    exact Prefix.masked_eq_of_covers hac hbc hbits.symm

end ListTable

end Netip

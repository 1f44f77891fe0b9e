import Mathlib.Data.List.Nodup
import Mathlib.Data.List.Pairwise
import Mathlib.Data.List.Perm.Basic

/-!
# A ledger of batches

Items are collected in a buffer.  The buffer is taken out as a whole, as a batch,
and a batch that is out stays out, is lost, or is put back in front of the buffer,
where what exceeds a bound is lost.

`Ledger.Sound` says that every item is in one place only and that the items of a
batch stay together and in their order, whatever happens to it later.  Every
operation keeps it.
-/

namespace Batch

open List

/-- The buffer, the batches that are out, the lost items; the batches ever taken
and all items. -/
structure Ledger (α : Type*) where
  pending : List α
  out : List (List α)
  lost : List α
  taken : List (List α)
  all : List α

variable {α : Type*} [DecidableEq α]

namespace Ledger

/-- One of the two lists has no item of the batch. -/
def Apart (batch l l' : List α) : Prop :=
  batch.Disjoint l ∨ batch.Disjoint l'

/-- Each item is in one place, and the items of a batch are together and in
order. -/
structure Sound (g : Ledger α) : Prop where
  places : (g.pending ++ g.out.flatten ++ g.lost).Perm g.all
  distinct : g.all.Nodup
  known : ∀ batch ∈ g.taken, batch ⊆ g.all
  ordered : ∀ batch ∈ g.taken, ∀ l ∈ g.pending :: g.out, (l.filter (· ∈ batch)).Sublist batch
  apart : ∀ batch ∈ g.taken, (g.pending :: g.out).Pairwise (Apart batch)

omit [DecidableEq α] in
theorem Apart.symm {batch l l' : List α} (h : Apart batch l l') : Apart batch l' l :=
  Or.symm h

theorem filter_eq_nil_of_disjoint {batch l : List α} (h : batch.Disjoint l) :
    l.filter (· ∈ batch) = [] := by
  rw [filter_eq_nil_iff]
  intro x hx hmem
  exact h (of_decide_eq_true hmem) hx

variable {g : Ledger α}

/-- The buffer has no item of a batch that is out. -/
theorem Sound.disjoint_out (h : g.Sound) {l : List α} (hl : l ∈ g.out) : g.pending.Disjoint l := by
  have hnd := h.places.nodup_iff.mpr h.distinct
  rw [append_assoc, nodup_append'] at hnd
  intro x hx hxl
  exact hnd.2.2 hx (mem_append_left _ (mem_flatten_of_mem hl hxl))

/-- A new item comes into the buffer. -/
theorem Sound.push (h : g.Sound) {x : α} (hx : x ∉ g.all) :
    Sound { g with pending := g.pending ++ [x], all := g.all ++ [x] } := by
  have hnew : ∀ batch ∈ g.taken, x ∉ batch := fun batch hb hmem => hx (h.known batch hb hmem)
  refine ⟨?_, ?_, ?_, ?_, ?_⟩
  · rw [perm_iff_count]
    intro y
    have hcount := perm_iff_count.mp h.places y
    simp only [count_append] at hcount ⊢
    omega
  · refine h.distinct.append (nodup_singleton x) ?_
    intro y hy hyx
    exact hx (mem_singleton.mp hyx ▸ hy)
  · intro batch hb
    exact subset_append_of_subset_left _ (h.known batch hb)
  · intro batch hb l hl
    rcases mem_cons.mp hl with rfl | hl
    · rw [filter_append, filter_cons_of_neg (by simp [hnew batch hb]), filter_nil, append_nil]
      exact h.ordered batch hb _ mem_cons_self
    · exact h.ordered batch hb l (mem_cons_of_mem _ hl)
  · intro batch hb
    obtain ⟨hpending, hout⟩ := pairwise_cons.mp (h.apart batch hb)
    refine pairwise_cons.mpr ⟨fun l hl => ?_, hout⟩
    refine (hpending l hl).imp_left fun hdisj => ?_
    exact disjoint_append_right.mpr
      ⟨hdisj, disjoint_singleton.mpr (hnew batch hb)⟩

/-- The order of the batches that are out does not matter. -/
theorem Sound.reorder (h : g.Sound) {out : List (List α)} (hperm : g.out.Perm out) :
    Sound { g with out := out } where
  places := (((hperm.flatten.append_left _).append_right _).symm).trans h.places
  distinct := h.distinct
  known := h.known
  ordered batch hb l hl := h.ordered batch hb l ((hperm.cons g.pending).mem_iff.mpr hl)
  apart batch hb :=
    ((hperm.cons g.pending).pairwise_iff (fun hapart => hapart.symm)).mp (h.apart batch hb)

/-- The buffer is taken out. -/
theorem Sound.take (h : g.Sound) :
    Sound { g with
            pending := []
            out := g.pending :: g.out
            taken := g.taken ++ [g.pending] } := by
  refine ⟨?_, h.distinct, ?_, ?_, ?_⟩
  · simpa using h.places
  · refine forall_mem_append.mpr ⟨h.known, forall_mem_singleton.mpr ?_⟩
    intro x hx
    exact h.places.mem_iff.mp (mem_append_left _ (mem_append_left _ hx))
  · intro batch hb l hl
    rcases mem_cons.mp hl with rfl | hl
    · exact nil_sublist _
    · rcases mem_append.mp hb with hb | hb
      · exact h.ordered batch hb l hl
      · rw [mem_singleton.mp hb]
        rcases mem_cons.mp hl with rfl | hl
        · exact filter_sublist
        · rw [filter_eq_nil_of_disjoint (h.disjoint_out hl)]
          exact nil_sublist _
  · intro batch hb
    refine pairwise_cons.mpr ⟨fun l _ => .inl (disjoint_nil_right _), ?_⟩
    rcases mem_append.mp hb with hb | hb
    · exact h.apart batch hb
    · rw [mem_singleton.mp hb]
      refine pairwise_cons.mpr ⟨fun l hl => .inr (h.disjoint_out hl), ?_⟩
      exact pairwise_of_forall_mem_list (fun l hl _ _ => .inl (h.disjoint_out hl))

variable {batch : List α} {rest : List (List α)}

/-- A batch is lost. -/
theorem Sound.lose (h : g.Sound) (hout : g.out = batch :: rest) :
    Sound { g with out := rest, lost := g.lost ++ batch } := by
  have hsub : (g.pending :: rest).Sublist (g.pending :: g.out) := by
    rw [hout]
    exact (sublist_cons_self batch rest).cons_cons _
  refine ⟨?_, h.distinct, h.known, ?_, ?_⟩
  · rw [perm_iff_count]
    intro y
    have hcount := perm_iff_count.mp h.places y
    rw [hout] at hcount
    simp only [count_append, flatten_cons] at hcount ⊢
    omega
  · intro b hb l hl
    exact h.ordered b hb l (hsub.mem hl)
  · intro b hb
    exact (h.apart b hb).sublist hsub

/-- A batch is put back in front of the buffer, and the end of it is cut off. -/
theorem Sound.putBack (h : g.Sound) (hout : g.out = batch :: rest) (n : Nat) :
    Sound { g with
            pending := (batch ++ g.pending).take n
            out := rest
            lost := g.lost ++ (batch ++ g.pending).drop n } := by
  have hpairs : ∀ b ∈ g.taken, Apart b g.pending batch ∧
      ∀ l ∈ rest, Apart b g.pending l ∧ Apart b batch l := by
    intro b hb
    have hapart := h.apart b hb
    rw [hout, pairwise_cons, pairwise_cons] at hapart
    exact ⟨hapart.1 batch mem_cons_self, fun l hl =>
      ⟨hapart.1 l (mem_cons_of_mem _ hl), hapart.2.1 l hl⟩⟩
  refine ⟨?_, h.distinct, h.known, ?_, ?_⟩
  · rw [perm_iff_count]
    intro y
    have hcount := perm_iff_count.mp h.places y
    have hcut : ((batch ++ g.pending).take n ++ (batch ++ g.pending).drop n).count y =
        (batch ++ g.pending).count y := by rw [take_append_drop]
    rw [hout] at hcount
    simp only [count_append, flatten_cons] at hcount hcut ⊢
    omega
  · intro b hb l hl
    have hordered := h.ordered b hb
    rw [hout] at hordered
    rcases mem_cons.mp hl with rfl | hl
    · refine ((take_sublist n _).filter _).trans ?_
      rw [filter_append]
      rcases (hpairs b hb).1 with hdisj | hdisj
      · rw [filter_eq_nil_of_disjoint hdisj, append_nil]
        exact hordered batch (by simp)
      · rw [filter_eq_nil_of_disjoint hdisj, nil_append]
        exact hordered g.pending (by simp)
    · exact hordered l (by simp [hl])
  · intro b hb
    have hapart := h.apart b hb
    rw [hout, pairwise_cons, pairwise_cons] at hapart
    refine pairwise_cons.mpr ⟨fun l hl => ?_, hapart.2.2⟩
    obtain ⟨hpending, hbatch⟩ := (hpairs b hb).2 l hl
    rcases hpending with hpending | hl'
    · rcases hbatch with hbatch | hl'
      · refine .inl fun x hx hmem => ?_
        rcases mem_append.mp (mem_of_mem_take hmem) with hmem | hmem
        · exact hbatch hx hmem
        · exact hpending hx hmem
      · exact .inr hl'
    · exact .inr hl'

end Ledger

end Batch

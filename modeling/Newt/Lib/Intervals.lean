import Mathlib.Algebra.Order.Group.Int
import Mathlib.Data.List.Forall2
import Mathlib.Data.List.Perm.Basic
import Mathlib.Logic.Relation
import Mathlib.Tactic.Common

/-!
# Connected components of a list, and the sweep that finds them for intervals

The members of a list are linked if a chain of related members leads from one to the
other.  `Components` says that a list of lists is the list cut into its connected
components; `Components.unique` says that they are determined up to order.

`sweep` goes through a list of intervals sorted by their starts with the latest stop
seen so far, and begins a new run where an interval starts more than `gap` after it.
`components_sweep` is its correctness: the runs are the components of the relation
that two intervals are at most `gap` apart, whatever their overlaps and nestings.

`flatMap_filter_perm` puts a list together again that was grouped by keys.
-/

namespace Intervals

open List Relation.ReflTransGen

section Components

variable {α : Type*} {R : α → α → Prop} {l l' : List α}

/-- A chain of related members leads from one to the other. -/
def Linked (R : α → α → Prop) (l : List α) : α → α → Prop :=
  Relation.ReflTransGen (fun a b => a ∈ l ∧ b ∈ l ∧ R a b)

theorem Linked.symm (hR : ∀ a b, R a b → R b a) {a b : α} (h : Linked R l a b) :
    Linked R l b a := by
  induction h with
  | refl => exact refl
  | tail _ hstep ih => exact ih.head ⟨hstep.2.1, hstep.1, hR _ _ hstep.2.2⟩

theorem Linked.congr (hl : ∀ a, a ∈ l ↔ a ∈ l') : Linked R l = Linked R l' := by
  unfold Linked
  simp only [hl]

/-- A set that no step leaves holds whatever is linked to one of its elements. -/
theorem Linked.mem_of_closed {P : α → Prop} {a b : α} (h : Linked R l a b)
    (hstep : ∀ x y, x ∈ l → y ∈ l → R x y → P x → P y) (ha : P a) : P b := by
  induction h with
  | refl => exact ha
  | tail _ hxy ih => exact hstep _ _ hxy.1 hxy.2.1 hxy.2.2 ih

/-- Lists whose elements are in one class of `E` each, and no two in the same one. -/
structure Classes (E : α → α → Prop) (cs : List (List α)) : Prop where
  nonempty : ∀ c ∈ cs, c ≠ []
  inside : ∀ c ∈ cs, ∀ a ∈ c, ∀ b ∈ c, E a b
  apart : cs.Pairwise (fun c d => ∀ a ∈ c, ∀ b ∈ d, ¬ E a b)

/-- A list cut into its connected components. -/
structure Components (R : α → α → Prop) (l : List α) (cs : List (List α)) : Prop
    extends Classes (Linked R l) cs where
  perm : cs.flatten.Perm l

section Classes

variable {E : α → α → Prop} {cs ds : List (List α)} {c : List α}

theorem Classes.tail (h : Classes E (c :: cs)) : Classes E cs where
  nonempty := fun d hd => h.nonempty d (mem_cons_of_mem _ hd)
  inside := fun d hd => h.inside d (mem_cons_of_mem _ hd)
  apart := (pairwise_cons.mp h.apart).2

theorem Classes.perm (hsymm : ∀ a b, E a b → E b a) (h : Classes E cs) (hp : cs.Perm ds) :
    Classes E ds where
  nonempty := fun d hd => h.nonempty d (hp.mem_iff.mpr hd)
  inside := fun d hd => h.inside d (hp.mem_iff.mpr hd)
  apart := by
    refine h.apart.perm hp ?_
    intro c d hcd a ha b hb hab
    exact hcd b hb a ha (hsymm a b hab)

variable [DecidableEq α]

/-- An element of the first class occurs in the other ones not at all. -/
theorem Classes.count_head (h : Classes E (c :: cs)) {a b : α} (ha : a ∈ c) (hab : E a b) :
    (c :: cs).flatten.count b = c.count b := by
  have hzero : cs.flatten.count b = 0 := by
    refine count_eq_zero_of_not_mem (fun hb => ?_)
    obtain ⟨d, hd, hb⟩ := mem_flatten.mp hb
    exact (pairwise_cons.mp h.apart).1 d hd a ha b hb hab
  rw [flatten_cons, count_append, hzero, Nat.add_zero]

/-- Two classes with an element in common are the same up to order. -/
theorem Classes.head_perm (h : Classes E (c :: cs)) {d : List α} (hd : Classes E (d :: ds))
    (hp : (c :: cs).flatten.Perm (d :: ds).flatten) {a : α} (hac : a ∈ c) (had : a ∈ d) :
    c.Perm d := by
  refine perm_iff_count.mpr (fun b => ?_)
  by_cases hab : E a b
  · rw [← h.count_head hac hab, ← hd.count_head had hab]
    exact hp.count_eq b
  · have hc : b ∉ c := fun hb => hab (h.inside c mem_cons_self a hac b hb)
    have hd : b ∉ d := fun hb => hab (hd.inside d mem_cons_self a had b hb)
    rw [count_eq_zero_of_not_mem hc, count_eq_zero_of_not_mem hd]

/-- The classes of a list are determined up to order. -/
theorem Classes.unique (hsymm : ∀ a b, E a b → E b a) (h : Classes E cs) {cs' : List (List α)}
    (h' : Classes E cs') (hp : cs.flatten.Perm cs'.flatten) :
    ∃ ds, ds.Perm cs' ∧ List.Forall₂ List.Perm cs ds := by
  induction cs generalizing cs' with
  | nil =>
    have hnil : cs' = [] := by
      refine eq_nil_iff_forall_not_mem.mpr (fun d hd => h'.nonempty d hd ?_)
      exact flatten_eq_nil_iff.mp hp.symm.eq_nil d hd
    exact ⟨[], hnil ▸ List.Perm.nil, List.Forall₂.nil⟩
  | cons c cs ih =>
    obtain ⟨a, hac⟩ := exists_mem_of_ne_nil c (h.nonempty c mem_cons_self)
    have hmem : a ∈ cs'.flatten :=
      hp.mem_iff.mp (mem_flatten.mpr ⟨c, mem_cons_self, hac⟩)
    obtain ⟨d, hd, had⟩ := mem_flatten.mp hmem
    obtain ⟨pre, post, rfl⟩ := append_of_mem hd
    have hmiddle : (pre ++ d :: post).Perm (d :: (pre ++ post)) := perm_middle
    have hd' := h'.perm hsymm hmiddle
    have hp' := hp.trans hmiddle.flatten
    have hcd := h.head_perm hd' hp' hac had
    have hrest : cs.flatten.Perm (pre ++ post).flatten := by
      rw [flatten_cons, flatten_cons] at hp'
      exact (perm_append_left_iff d).mp ((hcd.symm.append_right _).trans hp')
    obtain ⟨ds, hds, hforall⟩ := ih h.tail hd'.tail hrest
    exact ⟨d :: ds, (hds.cons d).trans hmiddle.symm, List.Forall₂.cons hcd hforall⟩

/-- **The components of a list are determined up to order.** -/
theorem Components.unique (hR : ∀ a b, R a b → R b a) (h : Components R l cs)
    {cs' : List (List α)} (h' : Components R l' cs') (hl : l.Perm l') :
    ∃ ds, ds.Perm cs' ∧ List.Forall₂ List.Perm cs ds := by
  have hlinked : Linked R l' = Linked R l := Linked.congr (fun a => hl.mem_iff.symm)
  have hclasses := h'.toClasses
  rw [hlinked] at hclasses
  exact h.toClasses.unique (fun _ _ => Linked.symm hR) hclasses
    (h.perm.trans (hl.trans h'.perm.symm))

end Classes

/-- Lists between which nothing is related are not linked either. -/
theorem apart_of_pairwise {cs : List (List α)} (hR : ∀ a b, R a b → R b a)
    (hrefl : ∀ a ∈ l, R a a) (hl : ∀ a, a ∈ cs.flatten ↔ a ∈ l)
    (h : cs.Pairwise (fun c d => ∀ a ∈ c, ∀ b ∈ d, ¬ R a b)) :
    cs.Pairwise (fun c d => ∀ a ∈ c, ∀ b ∈ d, ¬ Linked R l a b) := by
  -- related members are in one list, so that no step leaves a list
  have hsame : ∀ c ∈ cs, ∀ d ∈ cs, ∀ a ∈ c, ∀ b ∈ d, R a b → c = d := by
    intro c hc d hd
    refine List.Pairwise.forall_of_forall_of_flip
      (R := fun c d => ∀ a ∈ c, ∀ b ∈ d, R a b → c = d) ?_ ?_ ?_ hc hd
    · exact fun c _ a _ b _ _ => rfl
    · exact h.imp fun hcd a ha b hb hab => absurd hab (hcd a ha b hb)
    · exact h.imp fun hcd a ha b hb hab => absurd (hR a b hab) (hcd b hb a ha)
  refine h.imp_of_mem fun {c d} hc hd hcd a ha b hb hab => ?_
  have hclosed : ∀ x y, x ∈ l → y ∈ l → R x y → x ∈ c → y ∈ c := by
    intro x y _ hy hxy hx
    obtain ⟨e, he, hye⟩ := mem_flatten.mp ((hl y).mpr hy)
    rw [hsame c hc e he x hx y hye hxy]
    exact hye
  have hbl : b ∈ l := (hl b).mp (mem_flatten.mpr ⟨d, hd, hb⟩)
  exact hcd b (hab.mem_of_closed hclosed ha) b hb (hrefl b hbl)

end Components

section Sweep

variable {α : Type*} (start stop : α → Int) (gap : Int)

/-- The runs from the current one on, which reaches to `reach`. -/
def sweepFrom (reach : Int) (cur : List α) : List α → List (List α)
  | [] => [cur]
  | x :: xs =>
    if start x - reach ≤ gap then sweepFrom (max reach (stop x)) (cur ++ [x]) xs
    else cur :: sweepFrom (stop x) [x] xs

def sweep : List α → List (List α)
  | [] => []
  | x :: xs => sweepFrom start stop gap (stop x) [x] xs

/-- Neither interval starts more than `gap` after the other has stopped. -/
def Near (a b : α) : Prop :=
  start a - stop b ≤ gap ∧ start b - stop a ≤ gap

theorem Near.symm (a b : α) (h : Near start stop gap a b) : Near start stop gap b a :=
  ⟨h.2, h.1⟩

variable {start stop gap} {reach : Int} {cur xs l : List α} {x : α}

theorem flatten_sweepFrom : (sweepFrom start stop gap reach cur xs).flatten = cur ++ xs := by
  induction xs generalizing reach cur with
  | nil => simp [sweepFrom]
  | cons x xs ih =>
    unfold sweepFrom
    split
    · rw [ih, append_assoc, singleton_append]
    · rw [flatten_cons, ih, singleton_append]

/-- What the sweep knows of the current run: it is linked, one of its intervals stops last,
and none starts after the intervals that are left. -/
structure Reaches (start stop : α → Int) (gap : Int) (l : List α) (reach : Int)
    (cur xs : List α) : Prop where
  mem : ∀ a ∈ cur ++ xs, a ∈ l
  sorted : xs.Pairwise (fun a b => start a ≤ start b)
  last : ∃ a ∈ cur, stop a = reach
  le : ∀ a ∈ cur, stop a ≤ reach
  before : ∀ a ∈ cur, ∀ b ∈ xs, start a ≤ start b
  linked : ∀ a ∈ cur, ∀ b ∈ cur, Linked (Near start stop gap) l a b

theorem reaches_singleton (hmem : ∀ a ∈ x :: xs, a ∈ l)
    (hsorted : (x :: xs).Pairwise (fun a b => start a ≤ start b)) :
    Reaches start stop gap l (stop x) [x] xs where
  mem := hmem
  sorted := (pairwise_cons.mp hsorted).2
  last := ⟨x, mem_singleton_self x, rfl⟩
  le := forall_mem_singleton.mpr (le_refl _)
  before := forall_mem_singleton.mpr (pairwise_cons.mp hsorted).1
  linked := forall_mem_singleton.mpr (forall_mem_singleton.mpr refl)

section

variable (h : Reaches start stop gap l reach cur (x :: xs))
include h

/-- The next run begins with the next interval. -/
theorem Reaches.next : Reaches start stop gap l (stop x) [x] xs :=
  reaches_singleton (fun a ha => h.mem a (mem_append_right _ ha)) h.sorted

/-- An interval that does not start a new run is linked to the current one. -/
theorem Reaches.extend (hgap : 0 ≤ gap) (hle : ∀ a ∈ l, start a ≤ stop a)
    (hnext : start x - reach ≤ gap) :
    Reaches start stop gap l (max reach (stop x)) (cur ++ [x]) xs := by
  obtain ⟨m, hm, hstop⟩ := h.last
  have hx : x ∈ l := h.mem x (mem_append_right _ mem_cons_self)
  have hbefore := h.before m hm x mem_cons_self
  have hle' := hle x hx
  have hmx : Linked (Near start stop gap) l m x :=
    single ⟨h.mem m (mem_append_left _ hm), hx, by omega, by omega⟩
  have hxm := hmx.symm (Near.symm start stop gap)
  refine ⟨?_, h.next.sorted, ?_, ?_, ?_, ?_⟩
  · rw [append_assoc]
    exact h.mem
  · rcases le_total reach (stop x) with hle | hle
    · exact ⟨x, mem_concat_self, (max_eq_right hle).symm⟩
    · exact ⟨m, mem_append_left _ hm, hstop.trans (max_eq_left hle).symm⟩
  · refine forall_mem_append.mpr ⟨?_, forall_mem_singleton.mpr (le_max_right _ _)⟩
    exact fun a ha => (h.le a ha).trans (le_max_left _ _)
  · refine forall_mem_append.mpr ⟨?_, h.next.before⟩
    exact fun a ha b hb => h.before a ha b (mem_cons_of_mem _ hb)
  · intro a ha b hb
    rcases mem_append.mp ha with ha | ha <;> rcases mem_append.mp hb with hb | hb
    · exact h.linked a ha b hb
    · rw [mem_singleton.mp hb]
      exact (h.linked a ha m hm).trans hmx
    · rw [mem_singleton.mp ha]
      exact hxm.trans (h.linked m hm b hb)
    · rw [mem_singleton.mp ha, mem_singleton.mp hb]
      exact refl

end

section

variable (hgap : 0 ≤ gap) (hle : ∀ a ∈ l, start a ≤ stop a)
include hgap hle

/-- Each run has been the current one. -/
theorem reaches_of_mem_sweepFrom (h : Reaches start stop gap l reach cur xs) {c : List α}
    (hc : c ∈ sweepFrom start stop gap reach cur xs) :
    ∃ reach xs, Reaches start stop gap l reach c xs := by
  induction xs generalizing reach cur with
  | nil =>
    obtain rfl := mem_singleton.mp hc
    exact ⟨reach, [], h⟩
  | cons x xs ih =>
    unfold sweepFrom at hc
    split at hc
    · next hnext => exact ih (h.extend hgap hle hnext) hc
    · rcases mem_cons.mp hc with rfl | hc
      · exact ⟨reach, x :: xs, h⟩
      · exact ih h.next hc

/-- The intervals of a later run start more than `gap` after those of an earlier one. -/
theorem apart_sweepFrom (h : Reaches start stop gap l reach cur xs) :
    (sweepFrom start stop gap reach cur xs).Pairwise
      (fun c d => ∀ a ∈ c, ∀ b ∈ d, gap < start b - stop a) := by
  induction xs generalizing reach cur with
  | nil => exact pairwise_singleton _ _
  | cons x xs ih =>
    unfold sweepFrom
    split
    · next hnext => exact ih (h.extend hgap hle hnext)
    · next hfar =>
      refine pairwise_cons.mpr ⟨?_, ih h.next⟩
      intro d hd a ha b hb
      have hmem : b ∈ [x] ++ xs := by
        rw [← flatten_sweepFrom]
        exact mem_flatten.mpr ⟨d, hd, hb⟩
      have hstart : start x ≤ start b := by
        rcases mem_append.mp hmem with hb | hb
        · rw [mem_singleton.mp hb]
        · exact h.next.before x mem_cons_self b hb
      have hstop := h.le a ha
      omega

/-- **The sweep finds the components** of intervals that are sorted by their starts. -/
theorem components_sweep (hsorted : l.Pairwise (fun a b => start a ≤ start b)) :
    Components (Near start stop gap) l (sweep start stop gap l) := by
  cases l with
  | nil => exact ⟨⟨by simp [sweep], by simp [sweep], by simp [sweep]⟩, by simp [sweep]⟩
  | cons x xs =>
    have hflat : (sweep start stop gap (x :: xs)).flatten = x :: xs := flatten_sweepFrom
    have hreach : Reaches start stop gap (x :: xs) (stop x) [x] xs :=
      reaches_singleton (fun _ ha => ha) hsorted
    refine ⟨⟨?_, ?_, ?_⟩, List.Perm.of_eq hflat⟩
    · intro c hc
      obtain ⟨_, _, h⟩ := reaches_of_mem_sweepFrom hgap hle hreach hc
      obtain ⟨a, ha, -⟩ := h.last
      exact ne_nil_of_mem ha
    · intro c hc
      obtain ⟨_, _, h⟩ := reaches_of_mem_sweepFrom hgap hle hreach hc
      exact h.linked
    · refine apart_of_pairwise (Near.symm start stop gap) ?_ (fun a => by rw [hflat]) ?_
      · intro a ha
        have := hle a ha
        exact ⟨by omega, by omega⟩
      · refine (apart_sweepFrom hgap hle hreach).imp ?_
        intro c d hcd a ha b hb hnear
        have hfar := hcd a ha b hb
        have hclose := hnear.2
        omega

end

end Sweep

section Group

variable {α κ : Type*} [DecidableEq κ]

/-- A list grouped by keys is a rearrangement of the list. -/
theorem flatMap_filter_perm (key : α → κ) {keys : List κ} (hnd : keys.Nodup) (l : List α)
    (hl : ∀ a ∈ l, key a ∈ keys) :
    (keys.flatMap (fun k => l.filter (fun a => key a = k))).Perm l := by
  induction keys generalizing l with
  | nil =>
    have hnil : l = [] := eq_nil_iff_forall_not_mem.mpr (fun a ha => nomatch hl a ha)
    rw [hnil]
    rfl
  | cons k keys ih =>
    obtain ⟨hk, hnd⟩ := nodup_cons.mp hnd
    have hrest : ∀ a ∈ l.filter (fun a => !decide (key a = k)), key a ∈ keys := by
      intro a ha
      obtain ⟨hal, hne⟩ := mem_filter.mp ha
      exact (mem_cons.mp (hl a hal)).resolve_left (by simpa using hne)
    have hsame : ∀ k' ∈ keys,
        (l.filter (fun a => !decide (key a = k))).filter (fun a => key a = k') =
        l.filter (fun a => key a = k') := by
      intro k' hk'
      rw [filter_filter]
      refine filter_congr (fun a _ => ?_)
      by_cases ha : key a = k'
      · have hne : ¬ key a = k := fun heq => hk (heq ▸ ha ▸ hk')
        simp [ha, ha ▸ hne]
      · simp [ha]
    have hmap : keys.flatMap (fun k' => l.filter (fun a => key a = k')) =
        keys.flatMap (fun k' =>
          (l.filter (fun a => !decide (key a = k))).filter (fun a => key a = k')) :=
      flatMap_congr (fun k' hk' => (hsame k' hk').symm)
    rw [flatMap_cons, hmap]
    exact ((ih hnd _ hrest).append_left _).trans
      (filter_append_perm (fun a => key a = k) l)

end Group

end Intervals

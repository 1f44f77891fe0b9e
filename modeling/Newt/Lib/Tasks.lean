import Mathlib.Data.List.Basic
import Mathlib.Data.List.Perm.Basic

/-!
# A pool of tasks

Concurrent calls are a list in which each call stands at its place; a step sets
one element.  What the calls hold together, how many of them are at a place and the
`total` of a quantity then change by what the one call holds before and after.
-/

namespace Tasks

open List

variable {α β : Type*} {l : List α} {i : Nat} {a b : α}

/-- The tasks before and after one of them moves. -/
theorem exists_set_eq (h : l[i]? = some a) (b : α) :
    ∃ l₁ l₂, l = l₁ ++ a :: l₂ ∧ l.set i b = l₁ ++ b :: l₂ := by
  obtain ⟨hi, rfl⟩ := List.getElem?_eq_some_iff.mp h
  obtain ⟨l₁, l₂, hl, -, hset⟩ := exists_of_set hi
  exact ⟨l₁, l₂, hl, hset⟩

variable (f : α → Option β)

theorem filterMap_cons_toList (a : α) (l : List α) :
    (a :: l).filterMap f = (f a).toList ++ l.filterMap f := by cases hf : f a <;> simp [hf]

/-- **What the tasks hold**: one task exchanges what it holds. -/
theorem filterMap_set_perm (h : l[i]? = some a) :
    ((f a).toList ++ (l.set i b).filterMap f).Perm ((f b).toList ++ l.filterMap f) := by
  obtain ⟨l₁, l₂, rfl, hset⟩ := exists_set_eq h b
  rw [hset, filterMap_append, filterMap_append, filterMap_cons_toList, filterMap_cons_toList]
  calc ((f a).toList ++ (l₁.filterMap f ++ ((f b).toList ++ l₂.filterMap f))).Perm
        (l₁.filterMap f ++ ((f a).toList ++ ((f b).toList ++ l₂.filterMap f))) :=
        perm_append_comm_assoc _ _ _
    _ |>.Perm (l₁.filterMap f ++ ((f b).toList ++ ((f a).toList ++ l₂.filterMap f))) :=
        (perm_append_comm_assoc _ _ _).append_left _
    _ |>.Perm ((f b).toList ++ (l₁.filterMap f ++ ((f a).toList ++ l₂.filterMap f))) :=
        perm_append_comm_assoc _ _ _

theorem count_filterMap_set [BEq β] [LawfulBEq β] (h : l[i]? = some a) (b : α) (y : β) :
    ((l.set i b).filterMap f).count y + (f a).toList.count y =
      (l.filterMap f).count y + (f b).toList.count y := by
  have hcount := perm_iff_count.mp (filterMap_set_perm (b := b) f h) y
  rw [count_append, count_append] at hcount
  omega

/-- A task that holds the same as before changes nothing. -/
theorem filterMap_set_of_eq (h : l[i]? = some a) (hf : f b = f a) :
    (l.set i b).filterMap f = l.filterMap f := by
  obtain ⟨l₁, l₂, rfl, hset⟩ := exists_set_eq h b
  rw [hset, filterMap_append, filterMap_append, filterMap_cons_toList, filterMap_cons_toList, hf]

theorem map_set_of_eq (f : α → β) (h : l[i]? = some a) (hf : f b = f a) :
    (l.set i b).map f = l.map f := by
  rw [← filterMap_eq_map]
  exact filterMap_set_of_eq (some ∘ f) h (congrArg some hf)

/-- The only task that holds something exchanges it. -/
theorem filterMap_set_of_singleton {p : β} (hl : l.filterMap f = [p]) (h : l[i]? = some a)
    (hf : f a = some p) : (l.set i b).filterMap f = (f b).toList := by
  have hperm := filterMap_set_perm (b := b) f h
  rw [hl, hf] at hperm
  have hrest : ((l.set i b).filterMap f).Perm (f b).toList :=
    (hperm.trans perm_append_comm).cons_inv
  cases hb : f b with
  | none =>
    rw [hb] at hrest
    exact hrest.eq_nil
  | some q =>
    rw [hb] at hrest
    exact perm_singleton.mp hrest

theorem forall_mem_set {P : α → Prop} (h : ∀ x ∈ l, P x) (hb : P b) : ∀ x ∈ l.set i b, P x := by
  intro x hx
  rcases mem_or_eq_of_mem_set hx with hx | rfl
  · exact h x hx
  · exact hb

/-- Every task but the one that moves is still there. -/
theorem mem_set_of_mem (h : l[i]? = some a) {x : α} (hx : x ∈ l) : x = a ∨ x ∈ l.set i b := by
  obtain ⟨l₁, l₂, rfl, hset⟩ := exists_set_eq h b
  rw [mem_append, mem_cons] at hx
  rw [hset, mem_append, mem_cons]
  rcases hx with hx | rfl | hx
  · exact .inr (.inl hx)
  · exact .inl rfl
  · exact .inr (.inr (.inr hx))

/-- **How many tasks are at a place**: one task moves. -/
theorem countP_set_add (p : α → Bool) (h : l[i]? = some a) :
    (l.set i b).countP p + (p a).toNat = l.countP p + (p b).toNat := by
  obtain ⟨l₁, l₂, rfl, hset⟩ := exists_set_eq h b
  rw [hset, countP_append, countP_append, countP_cons, countP_cons]
  cases p a <;> cases p b <;> simp <;> omega

/-- If at most one task is at a place, two that are there are the same. -/
theorem eq_of_countP_le_one {p : α → Bool} (h : l.countP p ≤ 1) {x y : α} (hx : x ∈ l)
    (hy : y ∈ l) (hpx : p x = true) (hpy : p y = true) : x = y := by
  have hx' : x ∈ l.filter p := mem_filter.mpr ⟨hx, hpx⟩
  have hy' : y ∈ l.filter p := mem_filter.mpr ⟨hy, hpy⟩
  rw [countP_eq_length_filter] at h
  cases hl : l.filter p with
  | nil =>
    rw [hl] at hx'
    cases hx'
  | cons z rest =>
    rw [hl, length_cons] at h
    obtain rfl : rest = [] := eq_nil_of_length_eq_zero (by omega)
    rw [hl] at hx' hy'
    rw [mem_singleton.mp hx', mem_singleton.mp hy']

/-- A task that is at one of the further places only makes them the more. -/
theorem countP_lt_countP {p q : α → Bool} (hpq : ∀ x, p x = true → q x = true)
    (h : l[i]? = some a) (hp : p a = false) (hq : q a = true) : l.countP p < l.countP q := by
  obtain ⟨l₁, l₂, rfl⟩ := append_of_mem (mem_of_getElem? h)
  have h₁ : l₁.countP p ≤ l₁.countP q := countP_mono_left (fun x _ => hpq x)
  have h₂ : l₂.countP p ≤ l₂.countP q := countP_mono_left (fun x _ => hpq x)
  rw [countP_append, countP_append, countP_cons, countP_cons, hp, hq]
  simp only [Bool.false_eq_true, if_false, if_true]
  omega

/-- A quantity of all tasks together. -/
def total (f : α → Int) : List α → Int
  | [] => 0
  | a :: l => f a + total f l

theorem total_append (f : α → Int) (l l' : List α) :
    total f (l ++ l') = total f l + total f l' := by
  induction l with
  | nil => exact (Int.zero_add _).symm
  | cons a l ih =>
    rw [cons_append, total, total, ih]
    omega

/-- One task changes. -/
theorem total_set (f : α → Int) (h : l[i]? = some a) :
    total f (l.set i b) + f a = total f l + f b := by
  obtain ⟨l₁, l₂, rfl, hset⟩ := exists_set_eq h b
  rw [hset, total_append, total_append, total, total]
  omega

end Tasks

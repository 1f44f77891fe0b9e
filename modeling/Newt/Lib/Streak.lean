import Mathlib.Tactic.Common

/-!
# Streaks

The number of times in a row, up to a moment, that something was the case: `streak` for
moments that are numbered, `latest` for a history with the last one first.
-/

namespace Streak

/-- How many of the moments just before `n` satisfy `p`. -/
def streak (p : Nat → Bool) : Nat → Nat
  | 0 => 0
  | n + 1 => if p n then streak p n + 1 else 0

variable {p : Nat → Bool} {n k : Nat}

theorem streak_succ_of_true (h : p n = true) : streak p (n + 1) = streak p n + 1 := by
  rw [streak, if_pos h]

theorem streak_succ_of_false (h : p n = false) : streak p (n + 1) = 0 := by
  rw [streak, h]
  rfl

/-- **What a streak says of the past**: it has `k` moments iff the last `k` are there and
satisfy `p`. -/
theorem le_streak_iff : k ≤ streak p n ↔ k ≤ n ∧ ∀ j, j < n → n ≤ j + k → p j = true := by
  induction n generalizing k with
  | zero =>
    constructor
    · exact fun h => ⟨h, fun j hj => absurd hj (Nat.not_lt_zero j)⟩
    · exact fun h => h.1
  | succ n ih =>
    cases k with
    | zero => exact ⟨fun _ => ⟨Nat.zero_le _, fun j hj hk => by omega⟩, fun _ => Nat.zero_le _⟩
    | succ k =>
      cases hp : p n with
      | false =>
        rw [streak_succ_of_false hp]
        constructor
        · exact fun h => absurd h (Nat.not_succ_le_zero k)
        · rintro ⟨-, hall⟩
          rw [hall n (Nat.lt_succ_self n) (by omega)] at hp
          cases hp
      | true =>
        rw [streak_succ_of_true hp, Nat.succ_le_succ_iff, ih]
        constructor
        · rintro ⟨hk, hall⟩
          refine ⟨Nat.succ_le_succ hk, fun j hj hjk => ?_⟩
          rcases Nat.lt_succ_iff_lt_or_eq.mp hj with hj | rfl
          · exact hall j hj (by omega)
          · exact hp
        · rintro ⟨hk, hall⟩
          exact ⟨Nat.succ_le_succ_iff.mp hk, fun j hj hjk => hall j (by omega) (by omega)⟩

/-- The moment `n` makes a streak of `k + 1` exactly if `k` moments before it begins a
stretch that nothing precedes. -/
theorem streak_eq_iff : streak p n = k ∧ p n = true ↔
    ∃ a, n = a + k ∧ (∀ j, a ≤ j → j ≤ n → p j = true) ∧ ∀ b, a = b + 1 → p b = false := by
  constructor
  · rintro ⟨heq, hn⟩
    obtain ⟨hk, hall⟩ := le_streak_iff.mp (Nat.le_of_eq heq.symm)
    refine ⟨n - k, by omega, fun j hj hjn => ?_, fun b hb => ?_⟩
    · rcases Nat.lt_or_eq_of_le hjn with hjn | rfl
      · exact hall j hjn (by omega)
      · exact hn
    · -- else the streak would be longer
      by_contra hpb
      have hlonger : k + 1 ≤ streak p n := by
        refine le_streak_iff.mpr ⟨by omega, fun j hj hjk => ?_⟩
        rcases Nat.lt_or_ge j (n - k) with hlt | hge
        · obtain rfl : j = b := by omega
          exact Bool.not_eq_false _ ▸ hpb
        · exact hall j hj (by omega)
      omega
  · rintro ⟨a, rfl, hall, hbefore⟩
    refine ⟨?_, hall (a + k) (Nat.le_add_right a k) (Nat.le_refl _)⟩
    have hle : k ≤ streak p (a + k) :=
      le_streak_iff.mpr ⟨Nat.le_add_left k a, fun j hj hjk => hall j (by omega) (Nat.le_of_lt hj)⟩
    have hnot : ¬ k + 1 ≤ streak p (a + k) := by
      intro hlonger
      obtain ⟨hk, hall'⟩ := le_streak_iff.mp hlonger
      obtain ⟨b, rfl⟩ : ∃ b, a = b + 1 := ⟨a - 1, by omega⟩
      have hpb := hall' b (by omega) (by omega)
      rw [hbefore b rfl] at hpb
      cases hpb
    omega

section History

variable {α : Type*} [DecidableEq α]

/-- How many of the last outcomes are `a`. -/
def latest (a : α) : List α → Nat
  | [] => 0
  | x :: history => if x = a then latest a history + 1 else 0

variable {a x : α} {history : List α}

theorem latest_cons_self (a : α) (history : List α) :
    latest a (a :: history) = latest a history + 1 :=
  if_pos rfl

theorem latest_cons_of_ne (h : x ≠ a) : latest a (x :: history) = 0 :=
  if_neg h

/-- The last `n` outcomes are all `a`. -/
def Ends (n : Nat) (a : α) (history : List α) : Prop :=
  history.take n = List.replicate n a

instance (n : Nat) (a : α) (history : List α) : Decidable (Ends n a history) :=
  inferInstanceAs (Decidable (history.take n = List.replicate n a))

theorem ends_iff : Ends n a history ↔ n ≤ latest a history := by
  induction history generalizing n with
  | nil =>
    unfold Ends
    cases n with
    | zero => simp
    | succ n => simp [latest, List.replicate_succ]
  | cons x history ih =>
    unfold Ends at ih ⊢
    cases n with
    | zero => simp
    | succ n =>
      rw [List.take_succ_cons, List.replicate_succ, List.cons.injEq, ih]
      by_cases hx : x = a
      · subst hx
        simp [latest_cons_self]
      · simp [latest_cons_of_ne hx, hx]

end History

end Streak

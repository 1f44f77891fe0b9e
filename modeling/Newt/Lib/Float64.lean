import Mathlib.Algebra.Order.Ring.Int
import Mathlib.Data.Nat.Log

/-!
# Integers as 64-bit floating-point numbers

A `float64` has a significand of 53 bits.  An integer that needs more is rounded to
the nearest one that does not, to the even one of two that are as near.
-/

namespace Float64

/-- The number next to a natural number with a significand of 53 bits. -/
def round (n : Nat) : Nat :=
  let ulp := 2 ^ (n.log2 - 52)
  let q := n / ulp
  let r := n % ulp
  if ulp < 2 * r ∨ 2 * r = ulp ∧ q % 2 = 1 then (q + 1) * ulp else q * ulp

/-- The conversion `float64(x)` of an integer. -/
def ofInt : Int → Int
  | .ofNat n => round n
  | .negSucc n => -round (n + 1)

theorem round_pos {n : Nat} (h : 0 < n) : 0 < round n := by
  have hulp : 0 < 2 ^ (n.log2 - 52) := Nat.pow_pos (by decide)
  have hle : 2 ^ (n.log2 - 52) ≤ n :=
    (Nat.pow_le_pow_right (by decide) (Nat.sub_le _ _)).trans (Nat.log2_self_le h.ne')
  have hq : 0 < n / 2 ^ (n.log2 - 52) := Nat.div_pos hle hulp
  unfold round
  dsimp only
  split
  · exact Nat.mul_pos (Nat.succ_pos _) hulp
  · exact Nat.mul_pos hq hulp

theorem ofInt_nonneg {x : Int} (h : 0 ≤ x) : 0 ≤ ofInt x := by
  cases x with
  | ofNat n => exact Int.natCast_nonneg _
  | negSucc n => exact absurd h (Int.not_le.mpr (Int.negSucc_lt_zero n))

theorem ofInt_neg {x : Int} (h : x < 0) : ofInt x < 0 := by
  cases x with
  | ofNat n => exact absurd h (Int.not_lt.mpr (Int.natCast_nonneg n))
  | negSucc n =>
    have hpos : 0 < round (n + 1) := round_pos (Nat.succ_pos n)
    show -(round (n + 1) : Int) < 0
    omega

example : ofInt (2 ^ 53 + 1) = 2 ^ 53 ∧ ofInt (2 ^ 53 + 3) = 2 ^ 53 + 4 ∧ ofInt (-7) = -7 := by
  decide

end Float64

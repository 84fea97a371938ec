import Mathlib.Data.Nat.Basic
import Nock.Rounding

/-!
# Bounds on rounded quotients

A rounded quotient is off by a half at most (`halfEven_bounds`). It depends on the quotient only, and it is not
above a whole number that the quotient is not above.
-/

namespace Nock.Rounding

variable {n d b c : Nat}

theorem halfEven_bounds (n : Nat) (hd : 0 < d) :
    2 * (halfEven n d * d) ≤ 2 * n + d ∧ 2 * n ≤ 2 * (halfEven n d * d) + d := by
  have hdiv : n / d * d + n % d = n := Nat.div_add_mod' n d
  have hmod : n % d < d := Nat.mod_lt n hd
  have hsucc : (n / d + 1) * d = n / d * d + d := Nat.succ_mul _ _
  unfold halfEven
  dsimp only
  split
  · omega
  · split
    · omega
    · split <;> omega

theorem halfEven_mul_le (n : Nat) (hd : 0 < d) : halfEven n d * d ≤ 2 * n := by
  rcases Nat.eq_zero_or_pos (halfEven n d) with h | h
  · rw [h, Nat.zero_mul]
    exact Nat.zero_le _
  · have hle : d ≤ halfEven n d * d := Nat.le_mul_of_pos_left d h
    have := (halfEven_bounds n hd).1
    omega

theorem halfEven_mul_right (hc : 0 < c) (n d : Nat) :
    halfEven (n * c) (d * c) = halfEven n d := by
  unfold halfEven
  rw [Nat.mul_div_mul_right n d hc, Nat.mul_mod_mul_right]
  have h : ∀ x y : Nat, x * c < y * c ↔ x < y := fun x y => Nat.mul_lt_mul_right hc
  simp only [← Nat.mul_assoc, h]

/-- An even whole number behind the quotient is not rounded, and turns no half to its other neighbour. -/
theorem halfEven_add_even (hd : 0 < d) (n k : Nat) : halfEven (n + 2 * k * d) d = halfEven n d + 2 * k := by
  unfold halfEven
  rw [Nat.add_mul_div_right _ _ hd, Nat.add_mul_mod_self_right]
  dsimp only
  split
  · rfl
  · split
    · omega
    · split <;> split <;> omega

theorem halfEven_le (hd : 0 < d) (h : n ≤ b * d) : halfEven n d ≤ b := by
  by_contra hlt
  have hle : (b + 1) * d ≤ halfEven n d * d := Nat.mul_le_mul_right d (by omega)
  have hsucc : (b + 1) * d = b * d + d := Nat.succ_mul _ _
  have hb := (halfEven_bounds n hd).1
  have heq : n = b * d := by omega
  rw [heq, halfEven_mul b d hd] at hlt
  exact hlt le_rfl

end Nock.Rounding

/-!
# Rounding

Whole numbers near a quotient and a square root.
-/

namespace Nock.Rounding

/-- The whole number nearest to `num / den`, a half going to the even neighbour. -/
def halfEven (num den : Nat) : Nat :=
  let q := num / den
  let r := num % den
  if 2 * r < den then q
  else if den < 2 * r then q + 1
  else if q % 2 = 0 then q else q + 1

/-- The largest number whose square is at most `n`. -/
def floorSqrt (n : Nat) : Nat :=
  if n = 0 then 0
  else
    let r := 2 * floorSqrt (n / 4)
    if (r + 1) * (r + 1) ≤ n then r + 1 else r
termination_by n
decreasing_by omega

/-- A whole quotient is not rounded. -/
theorem halfEven_mul (q den : Nat) (h : 0 < den) : halfEven (q * den) den = q := by
  simp [halfEven, Nat.mul_div_cancel _ h, h]

theorem floorSqrt_mul_self_le (n : Nat) : floorSqrt n * floorSqrt n ≤ n := by
  fun_induction floorSqrt n with
  | case1 => simp
  | case2 n _ r hr _ => exact hr
  | case3 n _ r _ ih =>
    have : r * r = 4 * (floorSqrt (n / 4) * floorSqrt (n / 4)) := Nat.mul_mul_mul_comm 2 _ 2 _
    omega

theorem lt_succ_floorSqrt_mul_self (n : Nat) : n < (floorSqrt n + 1) * (floorSqrt n + 1) := by
  fun_induction floorSqrt n with
  | case1 => simp
  | case2 n _ r _ ih =>
    have : (r + 1 + 1) * (r + 1 + 1) = 4 * ((floorSqrt (n / 4) + 1) * (floorSqrt (n / 4) + 1)) :=
      Nat.mul_mul_mul_comm 2 (floorSqrt (n / 4) + 1) 2 (floorSqrt (n / 4) + 1)
    omega
  | case3 n _ r hr ih => omega

end Nock.Rounding

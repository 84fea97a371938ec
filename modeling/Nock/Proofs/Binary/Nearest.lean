import Mathlib.Data.Nat.Size
import Nock.Proofs.Binary.Quotient

/-!
# Rounding sums to the double format

A sum is rounded to a multiple of the step around it that is off by half a step at most (`Nearest`). From this
alone it follows that values of the format are kept, that no other value is nearer (`Nearest.le_of_isDouble`),
and that a power of two which divides a number divides the rounded number (`Nearest.dvd`).
-/

namespace Nock.Binary

open Rounding

/-- `r` is a multiple of the step around `a`, and off from `a` by half a step at most. -/
structure Nearest (a r : Int) : Prop where
  step_dvd : 2 ^ stepLog a.natAbs ∣ r
  close : 2 * (r - a).natAbs ≤ 2 ^ stepLog a.natAbs

variable {a i r : Int} {m : Nat}

namespace Nearest

theorem eq_of_dvd (h : Nearest a r) (ha : 2 ^ stepLog a.natAbs ∣ a) : r = a := by
  have hpos := Nat.two_pow_pos (stepLog a.natAbs)
  have hclose := h.close
  exact eq_of_two_pow_dvd h.step_dvd ha (by omega)

/-- Rounding keeps the powers of two that divide a number. -/
theorem dvd (h : Nearest a r) (ha : 2 ^ m ∣ a) : 2 ^ m ∣ r := by
  rcases Nat.le_total m (stepLog a.natAbs) with hm | hm
  · exact (pow_dvd_pow 2 hm).trans h.step_dvd
  · rwa [h.eq_of_dvd ((pow_dvd_pow 2 hm).trans ha)]

theorem le_of_dvd (h : Nearest a r) (hi : 2 ^ stepLog a.natAbs ∣ i) : (r - a).natAbs ≤ (i - a).natAbs := by
  by_contra hlt
  have hclose := h.close
  have : r = i := eq_of_two_pow_dvd h.step_dvd hi (by omega)
  subst this
  omega

/-- No value of the format is nearer. -/
theorem le_of_isDouble (h : Nearest a r) (hi : IsDouble i) : (r - a).natAbs ≤ (i - a).natAbs := by
  rcases Nat.lt_or_ge (stepLog i.natAbs) (stepLog a.natAbs) with hlt | hge
  · -- the least multiple of the size of `a` lies between `i` and `a`, or nearer than `i`
    have hupper : i.natAbs < 2 ^ (stepLog a.natAbs + 52) :=
      (lt_two_pow_stepLog _).trans_le (Nat.pow_le_pow_right Nat.two_pos (by omega))
    have hlower : 2 ^ (stepLog a.natAbs + 52) ≤ a.natAbs := two_pow_stepLog_le (by omega)
    generalize hp : 2 ^ (stepLog a.natAbs + 52) = p at hupper hlower
    have hdvd : (2 : Int) ^ stepLog a.natAbs ∣ p := by
      rw [← hp, ← two_pow_dvd_natAbs, Int.natAbs_natCast]
      exact pow_dvd_pow 2 (by omega)
    rcases Int.le_total 0 a with ha | ha
    · exact (h.le_of_dvd hdvd).trans (by omega)
    · exact (h.le_of_dvd (Int.dvd_neg.2 hdvd)).trans (by omega)
  · exact h.le_of_dvd ((pow_dvd_pow 2 hge).trans hi)

theorem isDouble (h : Nearest a r) : IsDouble r := by
  refine isDouble_of_dvd h.step_dvd ?_
  by_contra hlt
  obtain ⟨k, hk⟩ := two_pow_dvd_natAbs.2 h.step_dvd
  have hpow : 2 ^ (stepLog a.natAbs + 53) = 2 ^ stepLog a.natAbs * 2 ^ 53 := Nat.pow_add ..
  have hle : 2 ^ stepLog a.natAbs * (2 ^ 53 + 1) ≤ 2 ^ stepLog a.natAbs * k := by
    refine Nat.mul_le_mul_left _ (Nat.lt_of_mul_lt_mul_left (a := 2 ^ stepLog a.natAbs) ?_)
    omega
  have hclose := h.close
  have hupper := lt_two_pow_stepLog a.natAbs
  rw [Nat.mul_succ] at hle
  omega

end Nearest

theorem exists_roundSteps? (h : stepLog a.natAbs ≤ 2044) : ∃ r, roundSteps? a = some r ∧ Nearest a r := by
  refine ⟨signed (a < 0) (nearestSteps a.natAbs unit), ?_, ?_, ?_⟩
  · unfold roundSteps? ofSteps
    rw [Nat.one_mul]
    exact steps?_ofQuotient _ unit_pos (by rwa [Nat.mul_div_cancel _ unit_pos])
  · rw [← two_pow_dvd_natAbs, natAbs_signed, nearestSteps_unit]
    exact Nat.dvd_mul_left ..
  · have hbounds := halfEven_bounds a.natAbs (Nat.two_pow_pos (stepLog a.natAbs))
    rw [nearestSteps_unit]
    generalize halfEven a.natAbs (2 ^ stepLog a.natAbs) * 2 ^ stepLog a.natAbs = size at hbounds
    by_cases ha : a < 0
    · have hsigned : signed (decide (a < 0)) size = -(size : Int) := if_pos (decide_eq_true ha)
      omega
    · have hsigned : signed (decide (a < 0)) size = size := if_neg fun h => ha (of_decide_eq_true h)
      omega

end Nock.Binary

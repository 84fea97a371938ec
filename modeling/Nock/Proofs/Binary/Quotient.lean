import Mathlib.Tactic.Linarith
import Mathlib.Tactic.Ring
import Nock.Binary.Sum
import Nock.Proofs.Rounding

/-!
# Quotients in the double format

Sizes are counted in least steps. Between two powers of two the values of the format are the multiples of
`2 ^ stepLog`, and `Binary.ofQuotient` takes one beside its quotient (`steps?_ofQuotient`), unless that is too
large: the greatest exponent of a step is 2045, and rounding up may raise it by one. So a quotient or a root
that is not very large is a finite value of the format (`proper_ofQuotient`, `isFinite_sqrtQuotient`), and it
is at most doubled.
-/

namespace Nock.Binary

open Rounding

/-- The values of the format around `a` are the multiples of two to this power. -/
def stepLog (a : Nat) : Nat := a.log2 - 52

section
variable {a e k num den : Nat}

theorem lt_two_pow_stepLog (a : Nat) : a < 2 ^ (stepLog a + 53) := by
  refine Nat.lt_of_lt_of_le Nat.lt_log2_self (Nat.pow_le_pow_right Nat.two_pos ?_)
  unfold stepLog
  omega

theorem two_pow_stepLog_le (h : 0 < stepLog a) : 2 ^ (stepLog a + 52) ≤ a := by
  unfold stepLog at h ⊢
  rw [Nat.sub_add_cancel (by omega)]
  refine Nat.log2_self_le ?_
  rintro rfl
  simp at h

theorem stepLog_le (h : a < 2 ^ (e + 53)) : stepLog a ≤ e := by
  by_contra hlt
  have hle := two_pow_stepLog_le (a := a) (by omega)
  have : 2 ^ (e + 53) ≤ 2 ^ (stepLog a + 52) := Nat.pow_le_pow_right Nat.two_pos (by omega)
  omega

theorem stepLog_eq (h : a < 2 ^ (e + 53)) (h' : e = 0 ∨ 2 ^ (e + 52) ≤ a) : stepLog a = e := by
  have hle := stepLog_le h
  have hlt := lt_two_pow_stepLog a
  by_contra hne
  rcases h' with rfl | h'
  · omega
  · have : 2 ^ (stepLog a + 53) ≤ 2 ^ (e + 52) := Nat.pow_le_pow_right Nat.two_pos (by omega)
    omega

theorem unit_eq (h : k = 1074) : unit = 2 ^ k := by
  unfold unit
  generalize 1074 = n at h
  subst h
  rfl

theorem unit_pos : 0 < unit := by
  obtain ⟨k, hk⟩ : ∃ k, k = 1074 := ⟨_, rfl⟩
  rw [unit_eq hk]
  exact Nat.two_pow_pos k

theorem two_pow_eq_mul_unit (h : e = k + 1074) : 2 ^ e = 2 ^ k * unit := by
  rw [unit_eq (k := e - k) (by omega), ← Nat.pow_add]
  congr 1
  omega

theorem stepLog_le_of_lt_mul_unit (h : a < 2 ^ k * unit) : stepLog a ≤ k + 1021 := by
  refine stepLog_le ?_
  rwa [two_pow_eq_mul_unit (e := k + 1021 + 53) (k := k) rfl]

/-- Scaling to steps of a given exponent only takes a common factor out. -/
theorem exists_descale (num den e : Nat) : ∃ n d c, descale num den ((e : Int) - 1074) = (n, d) ∧
    0 < c ∧ n * c = num * unit ∧ d * c = den * 2 ^ e := by
  rcases Nat.lt_or_ge e 1074 with h | h
  · obtain ⟨k, hk⟩ := Nat.exists_eq_add_of_lt h
    have hq : (e : Int) - 1074 = .negSucc k := by omega
    have hunit : unit = 2 ^ (k + 1) * 2 ^ e := by
      rw [← Nat.pow_add]
      exact unit_eq (by omega)
    refine ⟨num * 2 ^ (k + 1), den, 2 ^ e, by rw [hq]; rfl, Nat.two_pow_pos e, ?_, rfl⟩
    rw [hunit, Nat.mul_assoc]
  · obtain ⟨k, hk⟩ := Nat.exists_eq_add_of_le h
    have hq : (e : Int) - 1074 = .ofNat k := by
      rw [hk]
      simp
    refine ⟨num, den * 2 ^ k, unit, by rw [hq]; rfl, unit_pos, rfl, ?_⟩
    rw [Nat.mul_assoc, ← two_pow_eq_mul_unit (hk.trans (Nat.add_comm ..))]

theorem div_lt_two_pow (hd : 0 < den) (h : num.log2 + 1075 ≤ k + den.log2) :
    num * unit / den < 2 ^ k := by
  rw [Nat.div_lt_iff_lt_mul hd]
  have hden : 2 ^ den.log2 ≤ den := Nat.log2_self_le hd.ne'
  calc num * unit < 2 ^ (num.log2 + 1) * unit := Nat.mul_lt_mul_of_pos_right Nat.lt_log2_self unit_pos
    _ = 2 ^ (num.log2 + 1 + 1074) := (two_pow_eq_mul_unit rfl).symm
    _ ≤ 2 ^ (k + den.log2) := Nat.pow_le_pow_right Nat.two_pos h
    _ = 2 ^ k * 2 ^ den.log2 := Nat.pow_add ..
    _ ≤ 2 ^ k * den := Nat.mul_le_mul_left _ hden

theorem two_pow_le_div (hnum : num ≠ 0) (hd : 0 < den) (h : k + den.log2 + 1 ≤ num.log2 + 1074) :
    2 ^ k ≤ num * unit / den := by
  rw [Nat.le_div_iff_mul_le hd]
  calc 2 ^ k * den ≤ 2 ^ k * 2 ^ (den.log2 + 1) := Nat.mul_le_mul_left _ Nat.lt_log2_self.le
    _ = 2 ^ (k + (den.log2 + 1)) := (Nat.pow_add ..).symm
    _ ≤ 2 ^ (num.log2 + 1074) := Nat.pow_le_pow_right Nat.two_pos h
    _ = 2 ^ num.log2 * unit := two_pow_eq_mul_unit rfl
    _ ≤ num * unit := Nat.mul_le_mul_right _ (Nat.log2_self_le hnum)

/-- The exponent that is found is that of the values around the quotient. -/
theorem stepExponent_double (hnum : num ≠ 0) (hd : 0 < den) :
    stepExponent .double num den = (stepLog (num * unit / den) : Int) - 1074 := by
  obtain ⟨g, hg⟩ : ∃ g, g = num.log2 + 1021 - den.log2 := ⟨_, rfl⟩
  have hguess : max Format.double.least ((num.log2 : Int) - den.log2 - Format.double.precision) =
      (g : Int) - 1074 := by
    simp only [Format.double]
    omega
  have hupper : num * unit / den < 2 ^ (g + 1 + 53) := div_lt_two_pow hd (by omega)
  have hlower : g = 0 ∨ 2 ^ (g + 52) ≤ num * unit / den := by
    rcases Nat.eq_zero_or_pos g with h | h
    · exact .inl h
    · exact .inr (two_pow_le_div hnum hd (by omega))
  obtain ⟨n, d, c, hscale, hc, hn, hden⟩ := exists_descale num den g
  have htest : d * Nat.pow 2 Format.double.precision ≤ n ↔ 2 ^ (g + 53) ≤ num * unit / den := by
    rw [Nat.le_div_iff_mul_le hd, ← hn, ← Nat.mul_le_mul_right_iff hc, Nat.mul_right_comm, hden,
      Nat.mul_assoc, Nat.mul_comm, Nat.pow_add]
    rfl
  unfold stepExponent
  simp only [hguess, hscale]
  split
  · rename_i h
    rw [stepLog_eq hupper (.inr (htest.1 h))]
    omega
  · rename_i h
    rw [stepLog_eq (Nat.lt_of_not_le fun hle => h (htest.2 hle)) hlower]

theorem stepExponent_double_zero (hd : 0 < den) :
    stepExponent .double 0 den = ((1021 - den.log2 : Nat) : Int) - 1074 := by
  have hguess : max Format.double.least (((0 : Nat).log2 : Int) - den.log2 - Format.double.precision) =
      ((1021 - den.log2 : Nat) : Int) - 1074 := by
    rw [Nat.log2_zero]
    simp only [Format.double]
    omega
  obtain ⟨n, d, c, hscale, hc, hn, hden⟩ := exists_descale 0 den (1021 - den.log2)
  unfold stepExponent
  simp only [hguess, hscale]
  refine if_neg fun hle => ?_
  have hle := Nat.mul_le_mul_right c hle
  rw [hn, Nat.zero_mul, Nat.mul_right_comm, hden] at hle
  have : 0 < den * 2 ^ (1021 - den.log2) * Nat.pow 2 Format.double.precision :=
    Nat.mul_pos (Nat.mul_pos hd (Nat.two_pow_pos _)) (Nat.two_pow_pos _)
  omega

def signed (negative : Bool) (size : Nat) : Int := if negative then -(size : Int) else size

theorem natAbs_signed (negative : Bool) (size : Nat) : (signed negative size).natAbs = size := by
  cases negative <;> simp [signed]

theorem steps?_finite (negative : Bool) (m e : Nat) :
    (finite negative m ((e : Int) - 1074)).steps? = some (signed negative (m * 2 ^ e)) := by
  have he : ((e : Int) - 1074 + 1074).toNat = e := by omega
  dsimp only [steps?]
  rw [he]
  rfl

theorem steps?_ofQuotient_of_stepExponent (negative : Bool) (he : e ≤ 2044)
    (h : stepExponent .double num den = (e : Int) - 1074) :
    (ofQuotient .double negative num den).steps? =
      some (signed negative (halfEven (num * unit) (den * 2 ^ e) * 2 ^ e)) := by
  obtain ⟨n, d, c, hscale, hc, hn, hden⟩ := exists_descale num den e
  rw [← hn, ← hden, halfEven_mul_right hc, ofQuotient, h]
  simp only [hscale]
  generalize halfEven _ _ = m
  have hgreatest : Format.double.greatest = 971 := rfl
  by_cases hm : m = Nat.pow 2 Format.double.precision
  · -- rounded up to a power of two, the number has one digit more
    have hnext : (e : Int) - 1074 + 1 = ((e + 1 : Nat) : Int) - 1074 := by omega
    have hdigits : Nat.pow 2 Format.double.precision = Nat.pow 2 (Format.double.precision - 1) * 2 := rfl
    have hsize : m * 2 ^ e = Nat.pow 2 (Format.double.precision - 1) * 2 ^ (e + 1) := by
      rw [hm, hdigits, Nat.pow_add_one', Nat.mul_assoc]
    rw [if_pos hm, hsize, ← steps?_finite, ← hnext]
    dsimp only
    rw [if_neg (by omega)]
  · rw [if_neg hm, ← steps?_finite]
    dsimp only
    rw [if_neg (by omega)]

/-- The quotient in least steps, rounded to a value of the format. -/
def nearestSteps (num den : Nat) : Nat :=
  halfEven (num * unit) (den * 2 ^ stepLog (num * unit / den)) * 2 ^ stepLog (num * unit / den)

theorem nearestSteps_mul_le (num : Nat) (hd : 0 < den) : nearestSteps num den * den ≤ 2 * (num * unit) := by
  rw [nearestSteps, Nat.mul_assoc, Nat.mul_comm (2 ^ _) den]
  exact halfEven_mul_le _ (Nat.mul_pos hd (Nat.two_pow_pos _))

theorem steps?_ofQuotient (negative : Bool) (hd : 0 < den) (h : stepLog (num * unit / den) ≤ 2044) :
    (ofQuotient .double negative num den).steps? = some (signed negative (nearestSteps num den)) := by
  by_cases hnum : num = 0
  · subst hnum
    have hzero : ∀ e, halfEven (0 * unit) (den * 2 ^ e) * 2 ^ e = 0 * 2 ^ e := fun e => by
      have hpos : 0 < den * 2 ^ e := Nat.mul_pos hd (Nat.two_pow_pos e)
      rw [Nat.le_zero.1 (halfEven_le hpos (by simp))]
    rw [steps?_ofQuotient_of_stepExponent negative (by omega) (stepExponent_double_zero hd)]
    rw [nearestSteps, hzero, hzero, Nat.zero_mul, Nat.zero_mul]
  · exact steps?_ofQuotient_of_stepExponent negative h (stepExponent_double hnum hd)

theorem nearestSteps_unit (a : Nat) : nearestSteps a unit = halfEven a (2 ^ stepLog a) * 2 ^ stepLog a := by
  rw [nearestSteps, Nat.mul_div_cancel a unit_pos, Nat.mul_comm unit, halfEven_mul_right unit_pos]

end

/-- The number is a value of the format, or would be one if exponents had no bound. -/
def IsDouble (i : Int) : Prop := 2 ^ stepLog i.natAbs ∣ i

section
variable {a i : Int} {e m : Nat}

theorem two_pow_dvd_natAbs : 2 ^ m ∣ i.natAbs ↔ (2 : Int) ^ m ∣ i := by
  rw [← Int.natCast_dvd, Int.natCast_pow]
  rfl

theorem eq_of_two_pow_dvd (ha : (2 : Int) ^ m ∣ a) (hi : 2 ^ m ∣ i) (h : (a - i).natAbs < 2 ^ m) : a = i := by
  have hdvd := two_pow_dvd_natAbs.2 (Int.dvd_sub ha hi)
  have := Nat.eq_zero_of_dvd_of_lt hdvd h
  omega

theorem isDouble_of_dvd (h : 2 ^ e ∣ i) (hle : i.natAbs ≤ 2 ^ (e + 53)) : IsDouble i := by
  rcases hle.lt_or_eq with hlt | heq
  · exact (pow_dvd_pow 2 (stepLog_le hlt)).trans h
  · have hlog : stepLog i.natAbs ≤ e + 53 := by
      rw [heq]
      exact stepLog_le (Nat.pow_lt_pow_right Nat.one_lt_two (by omega))
    rw [IsDouble, ← two_pow_dvd_natAbs]
    exact (pow_dvd_pow 2 hlog).trans (dvd_of_eq heq.symm)

theorem isDouble_nearestSteps (num : Nat) {den : Nat} (hd : 0 < den) : IsDouble (nearestSteps num den) := by
  have hupper := lt_two_pow_stepLog (num * unit / den)
  generalize he : stepLog (num * unit / den) = e at hupper
  have hle : num * unit ≤ 2 ^ 53 * (den * 2 ^ e) := by
    rw [Nat.div_lt_iff_lt_mul hd, Nat.pow_add] at hupper
    linarith
  have hround : halfEven (num * unit) (den * 2 ^ e) ≤ 2 ^ 53 :=
    halfEven_le (Nat.mul_pos hd (Nat.two_pow_pos e)) hle
  refine isDouble_of_dvd (e := e) ?_ ?_
  · rw [← two_pow_dvd_natAbs, Int.natAbs_natCast, nearestSteps, he]
    exact Nat.dvd_mul_left ..
  · rw [Int.natAbs_natCast, nearestSteps, he, Nat.pow_add, Nat.mul_comm (2 ^ e)]
    exact Nat.mul_le_mul_right _ hround

theorem isDouble_signed (negative : Bool) {size : Nat} (h : IsDouble size) : IsDouble (signed negative size) := by
  unfold IsDouble at h ⊢
  rw [natAbs_signed]
  cases negative
  · exact h
  · exact Int.dvd_neg.2 h

/-- The number of least steps of a finite value. -/
def value (t : Binary) : Int := t.steps?.getD 0

/-- A finite value of the double format. -/
structure Proper (t : Binary) : Prop where
  steps_eq : t.steps? = some t.value
  isDouble : IsDouble t.value

theorem value_of_steps? {t : Binary} (h : t.steps? = some i) : t.value = i := by
  rw [value, h]
  rfl

theorem isFinite_of_steps? {t : Binary} (h : t.steps? = some i) : t.isFinite = true := by
  cases t with
  | finite => rfl
  | infinite | nan => cases h

section
variable {num den : Nat} (negative : Bool) (hd : 0 < den) (h : stepLog (num * unit / den) ≤ 2044)
include hd h

theorem value_ofQuotient :
    (ofQuotient .double negative num den).value = signed negative (nearestSteps num den) :=
  value_of_steps? (steps?_ofQuotient negative hd h)

theorem proper_ofQuotient : Proper (ofQuotient .double negative num den) where
  steps_eq := by rw [value_ofQuotient negative hd h, steps?_ofQuotient negative hd h]
  isDouble := by
    rw [value_ofQuotient negative hd h]
    exact isDouble_signed negative (isDouble_nearestSteps num hd)

theorem value_ofQuotient_mul_le :
    (ofQuotient .double negative num den).value.natAbs * den ≤ 2 * (num * unit) := by
  rw [value_ofQuotient negative hd h, natAbs_signed]
  exact nearestSteps_mul_le num hd

end

theorem proper_ofInt (h : stepLog (i.natAbs * unit) ≤ 2044) : Proper (ofInt .double i) :=
  proper_ofQuotient _ Nat.one_pos (by rwa [Nat.div_one])

theorem value_ofInt_le (h : stepLog (i.natAbs * unit) ≤ 2044) :
    (ofInt .double i).value.natAbs ≤ 2 * (i.natAbs * unit) := by
  rw [← Nat.mul_one (ofInt .double i).value.natAbs]
  exact value_ofQuotient_mul_le _ Nat.one_pos (by rwa [Nat.div_one])

section
variable {den : Nat} (hd : 0 < den) (h : stepLog (i.natAbs / den) ≤ 2044)
include hd h

theorem proper_ofSteps : Proper (ofSteps i den) :=
  proper_ofQuotient _ (Nat.mul_pos hd unit_pos) (by rwa [Nat.mul_div_mul_right _ _ unit_pos])

theorem value_ofSteps_mul_le : (ofSteps i den).value.natAbs * den ≤ 2 * i.natAbs := by
  have hle : (ofSteps i den).value.natAbs * (den * unit) ≤ 2 * (i.natAbs * unit) :=
    value_ofQuotient_mul_le _ (Nat.mul_pos hd unit_pos) (by rwa [Nat.mul_div_mul_right _ _ unit_pos])
  rw [← Nat.mul_assoc, ← Nat.mul_assoc] at hle
  exact Nat.le_of_mul_le_mul_right hle unit_pos

end

end

section
variable {num den j : Nat}

theorem isFinite_ofQuotient (negative : Bool) (hd : 0 < den) (h : stepLog (num * unit / den) ≤ 2044) :
    (ofQuotient .double negative num den).isFinite = true :=
  isFinite_of_steps? (steps?_ofQuotient negative hd h)

theorem isFinite_sqrtQuotient (hd : 0 < den) (hj : j ≤ 1022) (h : num ≤ 4 ^ j * den) :
    (sqrtQuotient num den).isFinite = true := by
  unfold sqrtQuotient
  split
  · refine isFinite_ofQuotient _ (Nat.mul_pos Nat.one_pos unit_pos) ?_
    simp [stepLog]
  generalize den.log2 + 64 = k
  dsimp only
  generalize hroot : Rounding.floorSqrt (num * Nat.pow 4 k / den) = root
  have hsquare : root * root ≤ 2 ^ (j + k) * 2 ^ (j + k) := by
    calc root * root ≤ num * 4 ^ k / den := hroot ▸ Rounding.floorSqrt_mul_self_le _
      _ ≤ 4 ^ j * den * 4 ^ k / den := Nat.div_le_div_right (Nat.mul_le_mul_right _ h)
      _ = 4 ^ (j + k) := by rw [Nat.mul_right_comm, Nat.mul_div_cancel _ hd, ← Nat.pow_add]
      _ = 2 ^ (j + k) * 2 ^ (j + k) := by rw [← Nat.mul_pow]
  have hle : root ≤ 2 ^ (j + k) := Nat.mul_self_le_mul_self_iff.1 hsquare
  have hpow : 2 ^ (k + 1) * 2 ^ (j + 1) = 4 * 2 ^ (j + k) := by ring
  -- the mark adds less than one place to the root
  have hquotient : ∀ marked, marked < 2 ^ (k + 1) * 2 ^ (j + 1) →
      (ofQuotient .double false marked (Nat.pow 2 (k + 1))).isFinite = true := by
    intro marked hmarked
    have hlt : marked * unit / 2 ^ (k + 1) < 2 ^ (j + 1022 + 53) := by
      rw [two_pow_eq_mul_unit (e := j + 1022 + 53) (k := j + 1) (by omega)]
      refine Nat.div_lt_of_lt_mul ?_
      rw [← Nat.mul_assoc]
      exact Nat.mul_lt_mul_of_pos_right hmarked unit_pos
    exact isFinite_ofQuotient _ (Nat.two_pow_pos _) ((stepLog_le hlt).trans (by omega))
  have hpos := Nat.two_pow_pos (j + k)
  split
  · exact hquotient _ (by omega)
  · exact hquotient _ (by omega)

end

end Nock.Binary

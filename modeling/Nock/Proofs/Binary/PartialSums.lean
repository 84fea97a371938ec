import Nock.Proofs.Binary.Nearest

/-!
# Partial sums do not grow

Adding a number to partial sums leaves what each rounding cuts off, and the last rounded sum. All that comes
behind a partial sum is divisible by the power of two above it (`Below`), because rounding keeps powers of two
and never cuts off more than it was given. Hence the parts cut off are small together (`weight_lt`), and the
last partial sum is not larger than the numbers added so far (`natAbs_top_le`). So no partial sum is too large
unless the numbers are, and the sum is the exact one, rounded once (`sum_eq_ofSteps`).
-/

namespace Nock.Binary

/-- A power of two that is larger than `p` divides `q`. -/
def Below (p q : Int) : Prop := 2 ^ p.natAbs.size ∣ q

/-- The sum of the sizes. -/
def weight (is : List Int) : Nat := is.foldr (fun i s => i.natAbs + s) 0

variable {b m : Nat} {i p q top x y : Int} {is sums errors : List Int}

theorem weight_cons (i : Int) (is : List Int) : weight (i :: is) = i.natAbs + weight is := rfl

theorem total_cons (i : Int) (is : List Int) : total (i :: is) = i + total is := rfl

theorem dvd_weight (h : ∀ i ∈ is, (2 : Int) ^ m ∣ i) : 2 ^ m ∣ weight is := by
  induction is with
  | nil => exact Nat.dvd_zero _
  | cons i is ih =>
    have hi := two_pow_dvd_natAbs.2 (h i List.mem_cons_self)
    exact Nat.dvd_add hi (ih fun j hj => h j (List.mem_cons_of_mem _ hj))

theorem dvd_total (h : ∀ i ∈ is, (2 : Int) ^ m ∣ i) : 2 ^ m ∣ total is := by
  induction is with
  | nil => exact Int.dvd_zero _
  | cons i is ih =>
    exact Int.dvd_add (h i List.mem_cons_self) (ih fun j hj => h j (List.mem_cons_of_mem _ hj))

theorem weight_lt (h : sums.Pairwise Below) (hlt : ∀ p ∈ sums, p.natAbs < 2 ^ b) : weight sums < 2 ^ b := by
  induction sums with
  | nil => exact Nat.two_pow_pos b
  | cons p sums ih =>
    rw [List.pairwise_cons] at h
    have hsize : p.natAbs.size ≤ b := Nat.size_le.2 (hlt p List.mem_cons_self)
    have hp : p.natAbs < 2 ^ p.natAbs.size := Nat.lt_size_self _
    have hrest := ih h.2 fun q hq => hlt q (List.mem_cons_of_mem _ hq)
    have hdvd : 2 ^ p.natAbs.size ∣ weight sums + 2 ^ p.natAbs.size :=
      Nat.dvd_add (dvd_weight h.1) dvd_rfl
    have hle := Nat.le_of_lt_add_of_dvd (Nat.add_lt_add_right hrest _) hdvd (pow_dvd_pow 2 hsize)
    rw [weight_cons]
    omega

/-- The last partial sum is not larger than a power of two that the others, and the sum of all, stay below. -/
theorem natAbs_top_le (h : (errors ++ [top]).Pairwise Below) (hlt : ∀ p ∈ errors, p.natAbs < 2 ^ b)
    (htotal : (total (errors ++ [top])).natAbs ≤ 2 ^ b) : top.natAbs ≤ 2 ^ b := by
  induction errors with
  | nil => simpa [total] using htotal
  | cons p errors ih =>
    rw [List.cons_append, List.pairwise_cons] at h
    rw [List.cons_append, total_cons] at htotal
    refine ih h.2 (fun q hq => hlt q (List.mem_cons_of_mem _ hq)) ?_
    have hsize : p.natAbs.size ≤ b := Nat.size_le.2 (hlt p List.mem_cons_self)
    have hp : p.natAbs < 2 ^ p.natAbs.size := Nat.lt_size_self _
    have hdvd := two_pow_dvd_natAbs.2 (dvd_total h.1)
    exact Nat.le_of_lt_add_of_dvd (by omega) hdvd (pow_dvd_pow 2 hsize)

/-- The partial sums after an addition of `x`: the parts cut off, which are small, and the last rounded sum.
What divides all numbers and is a power of two still divides all of them. -/
structure Leaves (b : Nat) (x : Int) (sums errors : List Int) (top : Int) : Prop where
  below : (errors ++ [top]).Pairwise Below
  lt : ∀ p ∈ errors, p.natAbs < 2 ^ b
  dvd : ∀ m, (2 : Int) ^ m ∣ x → (∀ y ∈ sums, (2 : Int) ^ m ∣ y) → ∀ p ∈ errors ++ [top], (2 : Int) ^ m ∣ p

namespace Leaves

theorem nil : Leaves b x [] [] x where
  below := List.pairwise_singleton ..
  lt := by simp
  dvd m hm _ p hp := by rwa [List.mem_singleton.1 hp]

variable {r : Int}

theorem dvd_of_cons (h : Leaves b r sums errors top) (hr : Nearest (x + y) r) (hx : 2 ^ m ∣ x)
    (hsums : ∀ z ∈ y :: sums, (2 : Int) ^ m ∣ z) :
    (2 : Int) ^ m ∣ x + y - r ∧ ∀ p ∈ errors ++ [top], (2 : Int) ^ m ∣ p := by
  rw [List.forall_mem_cons] at hsums
  have hsum := Int.dvd_add hx hsums.1
  exact ⟨Int.dvd_sub hsum (hr.dvd hsum), h.dvd m (hr.dvd hsum) hsums.2⟩

theorem keep (h : Leaves b r sums errors top) (hr : Nearest (x + y) r) : Leaves b x (y :: sums) errors top where
  below := h.below
  lt := h.lt
  dvd _ hx hsums := (h.dvd_of_cons hr hx hsums).2

theorem cut (h : Leaves b r sums errors top) (hr : Nearest (x + y) r) (hx : IsDouble x)
    (hlog : stepLog (x + y).natAbs ≤ b) (hy : ∀ z ∈ sums, Below y z) :
    Leaves b x (y :: sums) ((x + y - r) :: errors) top where
  below := by
    -- what is cut off is below the sum because it is less than its step, and below the rest because `y` is
    have hcut : (r - (x + y)).natAbs ≤ y.natAbs := (hr.le_of_isDouble hx).trans (by omega)
    have hsmall : (x + y - r).natAbs < 2 ^ stepLog (x + y).natAbs := by
      have hclose := hr.close
      have hpos := Nat.two_pow_pos (stepLog (x + y).natAbs)
      omega
    rw [List.cons_append, List.pairwise_cons]
    refine ⟨h.dvd _ ?_ fun z hz => ?_, h.below⟩
    · exact (pow_dvd_pow 2 (Nat.size_le.2 hsmall)).trans hr.step_dvd
    · have hsize : (x + y - r).natAbs.size ≤ y.natAbs.size := Nat.size_le_size (by omega)
      exact (pow_dvd_pow 2 hsize).trans (hy z hz)
  lt := by
    rw [List.forall_mem_cons]
    have hclose := hr.close
    have hpow : 2 ^ stepLog (x + y).natAbs ≤ 2 ^ b := Nat.pow_le_pow_right Nat.two_pos hlog
    have hpos := Nat.two_pow_pos b
    exact ⟨by omega, h.lt⟩
  dvd _ hx hsums := by
    rw [List.cons_append, List.forall_mem_cons]
    exact h.dvd_of_cons hr hx hsums

end Leaves

theorem addPartial?_cons {r : Int} {rest : List Int} (hr : roundSteps? (x + y) = some r)
    (h : addPartial? r rest = some sums) :
    addPartial? x (y :: rest) = some (if x + y = r then sums else (x + y - r) :: sums) := by
  simp [addPartial?, hr, h]

/-- The numbers may grow by twice what is added, which is far from too large. -/
theorem exists_addPartial? (hb : b ≤ 2044) (hx : IsDouble x) (hsums : sums.Pairwise Below)
    (hbound : x.natAbs + 2 * weight sums < 2 ^ (b + 53)) :
    ∃ errors top, addPartial? x sums = some (errors ++ [top]) ∧ Leaves b x sums errors top := by
  induction sums generalizing x with
  | nil => exact ⟨[], x, rfl, .nil⟩
  | cons y rest ih =>
    rw [List.pairwise_cons] at hsums
    rw [weight_cons] at hbound
    have hlog : stepLog (x + y).natAbs ≤ b := stepLog_le (by omega)
    obtain ⟨r, hr, hnearest⟩ := exists_roundSteps? (hlog.trans hb)
    have hcut : (r - (x + y)).natAbs ≤ (x - (x + y)).natAbs := hnearest.le_of_isDouble hx
    obtain ⟨errors, top, hadd, hleaves⟩ := ih hnearest.isDouble hsums.2 (by omega)
    have hcons := addPartial?_cons hr hadd
    split at hcons
    · exact ⟨errors, top, hcons, hleaves.keep hnearest⟩
    · exact ⟨(x + y - r) :: errors, top, hcons, hleaves.cut hnearest hx hlog hsums.1⟩

/-- The sum of the numbers added so far is exact, and no partial sum is larger than `2 ^ b`. -/
structure Adder.Exact (b : Nat) (a : Adder) (i : Int) : Prop where
  finite : a.special = []
  total_eq : total a.sums = i
  below : a.sums.Pairwise Below
  le : ∀ p ∈ a.sums, p.natAbs ≤ 2 ^ b

theorem total_filter (is : List Int) : total (is.filter (· ≠ 0)) = total is := by
  induction is with
  | nil => rfl
  | cons i is ih =>
    rw [List.filter_cons]
    split <;> simp_all [total_cons]

namespace Adder.Exact

variable {a : Adder} {t : Binary}

theorem weight_lt (h : a.Exact b i) : weight a.sums < 2 ^ (b + 1) := by
  have hpow : 2 ^ (b + 1) = 2 ^ b * 2 := Nat.pow_succ ..
  have hpos := Nat.two_pow_pos b
  refine Binary.weight_lt h.below fun p hp => ?_
  have := h.le p hp
  omega

theorem add (h : a.Exact b i) (hb : b ≤ 2044) (ht : t.steps? = some x) (hx : IsDouble x)
    (hle : x.natAbs ≤ 2 ^ b) (htotal : (x + i).natAbs ≤ 2 ^ b) : ∃ a', a.add t = some a' ∧ a'.Exact b (x + i) := by
  have hweight := h.weight_lt
  have hpow : 2 ^ (b + 53) = 2 ^ b * 2 ^ 53 := Nat.pow_add ..
  have hpow' : 2 ^ (b + 1) = 2 ^ b * 2 := Nat.pow_succ ..
  obtain ⟨errors, top, hadd, hleaves⟩ := exists_addPartial? hb hx h.below (by omega)
  have hsum : total (errors ++ [top]) = x + i := by rw [total_addPartial? hadd, h.total_eq]
  refine ⟨⟨(errors ++ [top]).filter (· ≠ 0), a.special⟩, ?_, h.finite, ?_, ?_, ?_⟩
  · simp [Adder.add, ht, hadd]
  · rw [total_filter, hsum]
  · exact hleaves.below.filter _
  · have htop := natAbs_top_le hleaves.below hleaves.lt (by rwa [hsum])
    intro p hp
    have hmem := (List.mem_filter.1 hp).1
    rw [List.mem_append, List.mem_singleton] at hmem
    rcases hmem with hmem | rfl
    · exact (hleaves.lt p hmem).le
    · exact htop

end Adder.Exact

theorem exists_foldlM_add {a : Adder} {ts : List Binary} (hb : b ≤ 2044) (ha : a.Exact b i)
    (hts : ∀ t ∈ ts, Proper t) (hweight : i.natAbs + weight (ts.map value) ≤ 2 ^ b) :
    ∃ a', ts.foldlM Adder.add a = some a' ∧ a'.Exact b (total (ts.map value) + i) := by
  induction ts generalizing a i with
  | nil =>
    refine ⟨a, rfl, ?_⟩
    rwa [List.map_nil, total, List.foldr_nil, Int.zero_add]
  | cons t ts ih =>
    rw [List.forall_mem_cons] at hts
    rw [List.map_cons, weight_cons] at hweight
    obtain ⟨a', hadd, ha'⟩ := ha.add hb hts.1.steps_eq hts.1.isDouble (by omega) (by omega)
    obtain ⟨a'', hrest, ha''⟩ := ih ha' hts.2 (by omega)
    refine ⟨a'', ?_, ?_⟩
    · rw [List.foldlM_cons, hadd]
      exact hrest
    · rw [List.map_cons, total_cons]
      convert ha'' using 1
      omega

/-- The sum is the exact one, rounded once, unless the numbers are very large together. -/
theorem sum_eq_ofSteps {ts : List Binary} (hb : b ≤ 2044) (hts : ∀ t ∈ ts, Proper t)
    (hweight : weight (ts.map value) ≤ 2 ^ b) : sum ts = .ok (ofSteps (total (ts.map value)) 1) := by
  have hempty : Adder.Exact b {} 0 := ⟨rfl, rfl, .nil, by simp⟩
  obtain ⟨⟨sums, special⟩, hfold, hexact⟩ := exists_foldlM_add hb hempty hts (by simpa using hweight)
  obtain rfl : special = [] := hexact.finite
  have htotal : total sums = total (ts.map value) := hexact.total_eq.trans (Int.add_zero _)
  unfold sum
  rw [hfold]
  simp only [htotal]

theorem weight_perm {is js : List Int} (h : is.Perm js) : weight is = weight js := by
  induction h with
  | nil => rfl
  | cons i _ ih => rw [weight_cons, weight_cons, ih]
  | swap i j is => simp only [weight_cons, Nat.add_left_comm]
  | trans _ _ ih ih' => rw [ih, ih']

theorem total_squares_le (is : List Int) : total (is.map fun i => i * i) ≤ (weight is : Int) * weight is := by
  induction is with
  | nil => rfl
  | cons i is ih =>
    have hcross : 0 ≤ (i.natAbs : Int) * weight is := Int.mul_nonneg (by omega) (by omega)
    rw [List.map_cons, total_cons, weight_cons, ← Int.natAbs_mul_self' i, Int.natCast_add]
    linarith

/-- The squared distances from the mean, times the square of their number, are not large. -/
theorem toNat_squares_le (n : Nat) (is : List Int) :
    (n * total (is.map fun i => i * i) - total is * total is).toNat ≤ n * (weight is * weight is) := by
  have hsquares : (n : Int) * total (is.map fun i => i * i) ≤ n * (weight is * weight is) :=
    Int.mul_le_mul_of_nonneg_left (total_squares_le is) (Int.natCast_nonneg n)
  have hsquare : 0 ≤ total is * total is := mul_self_nonneg _
  rw [Int.toNat_le, Int.natCast_mul, Int.natCast_mul]
  linarith

end Nock.Binary

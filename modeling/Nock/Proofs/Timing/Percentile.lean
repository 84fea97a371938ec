import Mathlib.Algebra.Order.Floor.Div
import Nock.Proofs.Timing.Sample

/-!
# The ranks of percentiles

What stands at some place of the sorted times has that rank among them in any order (`isNthSmallest_of_pairwise`),
and of two times at one rank neither is less (`IsNthSmallest.le`). A percentile is taken at a fraction of the way
to the last time, rounded to the nearest index and a half to the even one. The nearest rank is the fraction of the
number of times, rounded up. The median is one rank behind it if this number is a multiple of four
(`median_rank`), and the time at nineteen twentieths is one rank in front of it for two numbers in five and a few
more (`late_rank`). Index and nearest rank grow alike by twice the denominator (`percentileIndex_add`,
`nearestRank_add`), so the second is checked for the first forty numbers.
-/

namespace Nock

namespace Binary

/-- Neither number is less than the other. -/
def Tied (x y : Binary) : Prop := x.le y = true ∧ y.le x = true

variable {x y : Binary} {a b : Int}

theorem le_self (x : Binary) : x.le x = true := by
  cases x with
  | finite negative m e => simp [le, steps?]
  | infinite negative => cases negative <;> rfl
  | nan => rfl

theorem le_of_steps? (hx : x.steps? = some a) (hy : y.steps? = some b) : x.le y = decide (a ≤ b) := by
  cases x with
  | infinite | nan => cases hx
  | finite =>
    cases y with
    | infinite | nan => cases hy
    | finite => simp only [le, hx, hy]

theorem proper_of_mem_map_ofInt {is : List Int} (h : ∀ i ∈ is, i.natAbs < 2 ^ 64) :
    ∀ t ∈ is.map (ofInt .double), Proper t := by
  refine List.forall_mem_map.2 fun i hi => proper_ofInt ?_
  have hlt : i.natAbs * unit < 2 ^ 64 * unit := Nat.mul_lt_mul_of_pos_right (h i hi) unit_pos
  exact (stepLog_le_of_lt_mul_unit hlt).trans (by decide)

end Binary

namespace Timing

open Binary Rounding

/-- The rank of a fraction of so many times, counted from 1: the least one that this fraction does not exceed. -/
def nearestRank (num den count : Nat) : Nat := num * count ⌈/⌉ den

/-- A time that can stand at rank `k` when the times are sorted: less than `k` times are less, and `k` at least are
not greater. -/
structure IsNthSmallest (k : Nat) (times : List Binary) (t : Binary) : Prop where
  mem : t ∈ times
  count_less : times.countP (fun u => !t.le u) < k
  le_count : k ≤ times.countP fun u => u.le t

/-- All times are finite, unless there is only one. -/
def Comparable (times : List Binary) : Prop := times.length < 2 ∨ ∀ t ∈ times, t.steps? = some t.value

variable {times times' : List Binary} {t u w : Binary} {s : Summary} {num den i k n : Nat}

/-! ### Ranks -/

namespace Comparable

theorem perm (h : Comparable times) (hperm : times.Perm times') : Comparable times' := by
  rcases h with h | h
  · exact .inl (hperm.length_eq ▸ h)
  · exact .inr fun t ht => h t (hperm.mem_iff.2 ht)

theorem le_trans (h : Comparable times) (ht : t ∈ times) (hu : u ∈ times) (hw : w ∈ times)
    (htu : t.le u = true) (huw : u.le w = true) : t.le w = true := by
  rcases h with hlength | hfinite
  · rcases times with _ | ⟨x, _ | ⟨y, times⟩⟩
    · cases ht
    · rw [List.mem_singleton.1 ht, List.mem_singleton.1 hw]
      exact le_self x
    · exact absurd hlength (by simp)
  · rw [le_of_steps? (hfinite t ht) (hfinite u hu), decide_eq_true_iff] at htu
    rw [le_of_steps? (hfinite u hu) (hfinite w hw), decide_eq_true_iff] at huw
    rw [le_of_steps? (hfinite t ht) (hfinite w hw), decide_eq_true_iff]
    exact htu.trans huw

theorem pairwise_mergeSort (h : Comparable times) : (times.mergeSort Binary.le).Pairwise fun t u => t.le u := by
  rcases h with hlength | hfinite
  · rcases times with _ | ⟨t, _ | ⟨u, times⟩⟩
    · simp
    · simp
    · exact absurd hlength (by simp)
  · have hvalue : ∀ t ∈ times, ∀ u ∈ times, t.le u = decide (t.value ≤ u.value) :=
      fun t ht u hu => le_of_steps? (hfinite t ht) (hfinite u hu)
    have hpairwise := @List.pairwise_mergeSort Int (fun a b => a ≤ b)
      (by simpa using fun _ _ _ => Int.le_trans) (by simpa using Int.le_total) (times.map value)
    rw [← List.map_mergeSort hvalue, List.pairwise_map] at hpairwise
    refine hpairwise.imp_of_mem fun ht hu hle => ?_
    rw [hvalue _ (List.mem_mergeSort.1 ht) _ (List.mem_mergeSort.1 hu)]
    exact hle

end Comparable

namespace IsNthSmallest

theorem perm (h : IsNthSmallest k times t) (hperm : times.Perm times') : IsNthSmallest k times' t where
  mem := hperm.mem_iff.1 h.mem
  count_less := hperm.countP_eq _ ▸ h.count_less
  le_count := hperm.countP_eq _ ▸ h.le_count

/-- Of two times at one rank neither is less. -/
theorem le (h : IsNthSmallest k times t) (h' : IsNthSmallest k times u) (hcomp : Comparable times) :
    t.le u = true := by
  by_contra hlt
  have hsub : times.countP (fun x => x.le u) ≤ times.countP fun x => !t.le x := by
    refine List.countP_mono_left fun x hx hxu => ?_
    by_contra htx
    exact hlt (hcomp.le_trans h.mem hx h'.mem (by simpa using htx) hxu)
  have hless := h.count_less
  have hcount := h'.le_count
  omega

end IsNthSmallest

theorem isNthSmallest_between {front back : List Binary} (h : (front ++ t :: back).Pairwise fun t u => t.le u) :
    IsNthSmallest (front.length + 1) (front ++ t :: back) t := by
  obtain ⟨-, htail, hacross⟩ := List.pairwise_append.1 h
  have hfront : front.countP (fun u => u.le t) = front.length :=
    List.countP_eq_length.2 fun u hu => hacross u hu t List.mem_cons_self
  have hback : back.countP (fun u => !t.le u) = 0 :=
    List.countP_eq_zero.2 fun u hu => by simp [(List.pairwise_cons.1 htail).1 u hu]
  have hless : front.countP (fun u => !t.le u) ≤ front.length := List.countP_le_length
  refine ⟨List.mem_append_right front List.mem_cons_self, ?_, ?_⟩
  · rw [List.countP_append, List.countP_cons_of_neg (by simp [le_self]), hback]
    omega
  · have hself : (t :: back).countP (fun u => u.le t) = back.countP (fun u => u.le t) + 1 :=
      List.countP_cons_of_pos (le_self t)
    rw [List.countP_append, hself, hfront]
    omega

theorem isNthSmallest_of_pairwise {sorted : List Binary} (h : sorted.Pairwise fun t u => t.le u)
    (hi : sorted[i]? = some t) : IsNthSmallest (i + 1) sorted t := by
  obtain ⟨hlt, rfl⟩ := List.getElem?_eq_some_iff.1 hi
  have hsplit : sorted.take i ++ sorted[i] :: sorted.drop (i + 1) = sorted := by
    rw [List.getElem_cons_drop, List.take_append_drop]
  have hlength : (sorted.take i).length = i := List.length_take_of_le hlt.le
  have hnth := isNthSmallest_between (hsplit.symm ▸ h)
  rwa [hsplit, hlength] at hnth

theorem isNthSmallest_percentile (h : Comparable times)
    (ht : percentile num den (times.mergeSort Binary.le) = some t) :
    IsNthSmallest (percentileIndex num den (times.length - 1) + 1) times t := by
  rw [percentile, List.length_mergeSort] at ht
  exact (isNthSmallest_of_pairwise h.pairwise_mergeSort ht).perm (List.mergeSort_perm times Binary.le)

/-! ### Indices and nearest ranks -/

theorem percentileIndex_add (num : Nat) (hd : 0 < den) (last k : Nat) :
    percentileIndex num den (last + 2 * den * k) = percentileIndex num den last + 2 * (num * k) := by
  rw [percentileIndex, percentileIndex, ← halfEven_add_even hd]
  congr 1
  ring

theorem nearestRank_add (num : Nat) (hd : 0 < den) (count k : Nat) :
    nearestRank num den (count + 2 * den * k) = nearestRank num den count + 2 * (num * k) := by
  have hmul : num * (count + 2 * den * k) + den - 1 = num * count + den - 1 + den * (2 * (num * k)) := by
    have : num * (count + 2 * den * k) = num * count + den * (2 * (num * k)) := by ring
    omega
  rw [nearestRank, nearestRank, Nat.ceilDiv_eq_add_pred_div, Nat.ceilDiv_eq_add_pred_div, hmul,
    Nat.add_mul_div_left _ _ hd]

theorem median_rank (h : 1 ≤ n) :
    percentileIndex 1 2 (n - 1) + 1 = nearestRank 1 2 n + if 4 ∣ n then 1 else 0 := by
  simp only [percentileIndex, halfEven, nearestRank, Nat.ceilDiv_eq_add_pred_div]
  split_ifs <;> omega

theorem late_rank (h : 1 ≤ n) : percentileIndex 19 20 (n - 1) + 1 =
    nearestRank 19 20 n - if 12 ≤ n % 20 ∨ n % 40 = 31 then 1 else 0 := by
  have hresidues : ∀ r < 40, percentileIndex 19 20 r + 1 =
      nearestRank 19 20 (r + 1) - if 12 ≤ (r + 1) % 20 ∨ (r + 1) % 40 = 31 then 1 else 0 := by decide
  obtain ⟨k, r, hr, rfl⟩ : ∃ k r, r < 40 ∧ n = r + 1 + 2 * 20 * k :=
    ⟨(n - 1) / 40, (n - 1) % 40, Nat.mod_lt _ (by decide), by omega⟩
  have hindex : r + 1 + 2 * 20 * k - 1 = r + 2 * 20 * k := by omega
  have hmod : (r + 1 + 2 * 20 * k) % 20 = (r + 1) % 20 ∧ (r + 1 + 2 * 20 * k) % 40 = (r + 1) % 40 := by omega
  have hrank := hresidues r hr
  rw [hindex, percentileIndex_add 19 (by decide), nearestRank_add 19 (by decide), hmod.1, hmod.2]
  omega

/-! ### Summaries -/

theorem steps?_of_mapM {is : List Int} (h : times.mapM Binary.steps? = some is) :
    ∀ t ∈ times, t.steps? = some t.value := by
  induction times generalizing is with
  | nil => simp
  | cons t times ih =>
    rw [List.mapM_cons] at h
    obtain ⟨i, hi, h⟩ := Option.bind_eq_some_iff.1 h
    obtain ⟨is, his, -⟩ := Option.bind_eq_some_iff.1 h
    exact List.forall_mem_cons.2 ⟨by rw [value_of_steps? hi, hi], ih his⟩

theorem comparable_of_deviation {d : Binary} (h : deviation times = .ok d) : Comparable times := by
  rw [deviation] at h
  dsimp only at h
  split at h
  · next hlength => exact .inl hlength
  · split at h
    · cases h
    · next hsteps => exact .inr (steps?_of_mapM hsteps)

/-- Of one time or more there are both percentiles, and only the mean or the deviation can be missing. -/
theorem exists_ofTimes_eq (hne : times ≠ []) : ∃ median late,
    percentile 1 2 (times.mergeSort Binary.le) = some median ∧
    percentile 19 20 (times.mergeSort Binary.le) = some late ∧
    Summary.ofTimes times = mean (times.mergeSort Binary.le) >>= fun m =>
      deviation (times.mergeSort Binary.le) >>= fun d => .ok ⟨m, d, median, late⟩ := by
  have hsorted : times.mergeSort Binary.le ≠ [] := by
    rw [← List.length_pos_iff, List.length_mergeSort]
    exact List.length_pos_iff.2 hne
  obtain ⟨median, hmedian⟩ := exists_percentile hsorted 1 Nat.two_pos (by decide)
  obtain ⟨late, hlate⟩ := exists_percentile hsorted 19 (by decide : 0 < 20) (by decide)
  refine ⟨median, late, hmedian, hlate, ?_⟩
  rw [Summary.ofTimes, hmedian, hlate]
  rfl

theorem percentiles_of_ofTimes (hne : times ≠ []) (h : Summary.ofTimes times = .ok s) :
    percentile 1 2 (times.mergeSort Binary.le) = some s.median ∧
    percentile 19 20 (times.mergeSort Binary.le) = some s.late ∧ Comparable times := by
  obtain ⟨median, late, hmedian, hlate, heq⟩ := exists_ofTimes_eq hne
  rw [heq] at h
  obtain ⟨m, -, h⟩ := Error.bind_eq_ok.1 h
  obtain ⟨d, hd, h⟩ := Error.bind_eq_ok.1 h
  cases h
  exact ⟨hmedian, hlate, (comparable_of_deviation hd).perm (List.mergeSort_perm times Binary.le)⟩

theorem ranks_of_ofTimes (hne : times ≠ []) (h : Summary.ofTimes times = .ok s) :
    IsNthSmallest (percentileIndex 1 2 (times.length - 1) + 1) times s.median ∧
    IsNthSmallest (percentileIndex 19 20 (times.length - 1) + 1) times s.late := by
  obtain ⟨hmedian, hlate, hcomp⟩ := percentiles_of_ofTimes hne h
  exact ⟨isNthSmallest_percentile hcomp hmedian, isNthSmallest_percentile hcomp hlate⟩

/-- The median of some times is at the nearest rank of one half, counted from 1, or one rank behind it if the number
of times is a multiple of four. The late time is at the nearest rank of nineteen twentieths, or one rank in front
of it if that number leaves 12 or more by 20, or 31 by 40. The order in which the times are given makes no
difference, but for the sign of a zero. The summary of one time or more can only lack the mean or the deviation,
and has both if the times are finite and not very large. -/
theorem percentiles_by_rank (hne : times ≠ []) :
    (∀ s, Summary.ofTimes times = .ok s →
      IsNthSmallest (nearestRank 1 2 times.length + if 4 ∣ times.length then 1 else 0) times s.median ∧
      IsNthSmallest (nearestRank 19 20 times.length -
        if 12 ≤ times.length % 20 ∨ times.length % 40 = 31 then 1 else 0) times s.late ∧
      ∀ times' s', times.Perm times' → Summary.ofTimes times' = .ok s' →
        s.median.Tied s'.median ∧ s.late.Tied s'.late) ∧
    (∀ e, Summary.ofTimes times = .error e →
      mean (times.mergeSort Binary.le) = .error e ∨ deviation (times.mergeSort Binary.le) = .error e) ∧
    ∀ j ≤ 970, (∀ t ∈ times, Proper t) → weight (times.map value) ≤ 2 ^ j * unit →
      ∃ s, Summary.ofTimes times = .ok s := by
  have hlength : 1 ≤ times.length := List.length_pos_iff.2 hne
  refine ⟨fun s hs => ?_, fun e he => ?_, fun j hj hproper hweight => exists_summary hj hne hproper hweight⟩
  · obtain ⟨-, -, hcomp⟩ := percentiles_of_ofTimes hne hs
    obtain ⟨hmedian, hlate⟩ := ranks_of_ofTimes hne hs
    refine ⟨median_rank hlength ▸ hmedian, late_rank hlength ▸ hlate, fun times' s' hperm hs' => ?_⟩
    have hne' : times' ≠ [] := fun hnil => hne (List.perm_nil.1 (hnil ▸ hperm))
    obtain ⟨hmedian', hlate'⟩ := ranks_of_ofTimes hne' hs'
    rw [← hperm.length_eq] at hmedian' hlate'
    have hmedian' := hmedian'.perm hperm.symm
    have hlate' := hlate'.perm hperm.symm
    exact ⟨⟨hmedian.le hmedian' hcomp, hmedian'.le hmedian hcomp⟩, hlate.le hlate' hcomp, hlate'.le hlate hcomp⟩
  · obtain ⟨median, late, -, -, heq⟩ := exists_ofTimes_eq hne
    rw [heq] at he
    rcases Error.bind_eq_error.1 he with hmean | ⟨m, -, he⟩
    · exact .inl hmean
    rcases Error.bind_eq_error.1 he with hdeviation | ⟨d, -, he⟩
    · exact .inr hdeviation
    · cases he

/-- Of four times the median is the third, and the late one the last. -/
theorem percentiles_of_four :
    let times := [3, 1, 4, 2].map (Binary.ofInt .double)
    times ≠ [] ∧ ∃ s, Summary.ofTimes times = .ok s ∧ IsNthSmallest 3 times s.median ∧
      IsNthSmallest 4 times s.late := by
  intro times
  have hne : times ≠ [] := List.cons_ne_nil _ _
  have hproper : ∀ t ∈ times, Proper t := proper_of_mem_map_ofInt (by decide)
  have hweight : weight (times.map value) ≤ 2 ^ 4 * unit := by decide +kernel
  obtain ⟨hranks, -, hexists⟩ := percentiles_by_rank hne
  obtain ⟨s, hs⟩ := hexists 4 (by decide) hproper hweight
  obtain ⟨hmedian, hlate, -⟩ := hranks s hs
  have hmedianRank : nearestRank 1 2 4 + (if 4 ∣ 4 then 1 else 0) = 3 := by decide
  have hlateRank : nearestRank 19 20 4 - (if 12 ≤ 4 % 20 ∨ 4 % 40 = 31 then 1 else 0) = 4 := by decide
  exact ⟨hne, s, hs, hmedianRank ▸ hmedian, hlateRank ▸ hlate⟩

/-- Of the numbers from 1 to 12 the median is the seventh in place of the sixth, and the late one the eleventh in
place of the last. -/
theorem nearest_ranks_missed :
    let times := [1, 2, 3, 4, 5, 6, 7, 8, 9, 10, 11, 12].map (Binary.ofInt .double)
    ∃ s, Summary.ofTimes times = .ok s ∧
      s.median = Binary.ofInt .double 7 ∧ ¬ IsNthSmallest (nearestRank 1 2 times.length) times s.median ∧
      s.late = Binary.ofInt .double 11 ∧ ¬ IsNthSmallest (nearestRank 19 20 times.length) times s.late := by
  intro times
  have hne : times ≠ [] := List.cons_ne_nil _ _
  have hproper : ∀ t ∈ times, Proper t := proper_of_mem_map_ofInt (by decide)
  have hweight : weight (times.map value) ≤ 2 ^ 7 * unit := by decide +kernel
  have hsorted : times.mergeSort Binary.le = times := List.mergeSort_of_pairwise (by decide +kernel)
  obtain ⟨s, hs⟩ := exists_summary (j := 7) (by decide) hne hproper hweight
  obtain ⟨hmedian, hlate, -⟩ := percentiles_of_ofTimes hne hs
  rw [hsorted] at hmedian hlate
  have hseven : percentile 1 2 times = some (Binary.ofInt .double 7) := by decide +kernel
  have heleven : percentile 19 20 times = some (Binary.ofInt .double 11) := by decide +kernel
  have hless : times.countP (fun u => !(Binary.ofInt .double 7).le u) = nearestRank 1 2 times.length := by
    decide +kernel
  have hatMost : times.countP (fun u => u.le (Binary.ofInt .double 11)) < nearestRank 19 20 times.length := by
    decide +kernel
  have hmedian : s.median = Binary.ofInt .double 7 := Option.some.inj (hmedian.symm.trans hseven)
  have hlate : s.late = Binary.ofInt .double 11 := Option.some.inj (hlate.symm.trans heleven)
  refine ⟨s, hs, hmedian, fun h => ?_, hlate, fun h => ?_⟩
  · have hcount := h.count_less
    rw [hmedian, hless] at hcount
    exact lt_irrefl _ hcount
  · have hcount := h.le_count
    rw [hlate] at hcount
    exact absurd hcount hatMost.not_ge

end Timing

end Nock

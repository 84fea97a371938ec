import Nock.Proofs.Binary.PartialSums
import Nock.Timing.Clock
import Nock.Timing.Summary

/-!
# Timing never fails

A clock that goes less than `2 ^ 63` nanoseconds, as one of 64 bits does, gives times that are far from too
large (`Clock.exists_sampleOnto`). So they can be summed up (`exists_mean`), their squared distances have a
finite root (`exists_deviation`), and a percentile is one of them (`exists_percentile`): a sample with a time
in it has a summary (`Clock.exists_summary_of_sample`).
-/

namespace Nock.Timing

open Binary

/-- Equal as functions: at an argument, unfolding would go on to the digits of the unit. -/
theorem milliseconds_eq : milliseconds = fun d =>
    match (Binary.ofInt .double d).steps? with
    | some steps => .ok (.ofSteps steps 1000000)
    | none => .error .tooLarge :=
  rfl

theorem exists_milliseconds {d : Int} (h : d.natAbs < 2 ^ 63) :
    ∃ t, milliseconds d = .ok t ∧ Proper t ∧ t.value.natAbs ≤ 4 * (d.natAbs * unit) := by
  have hnano : d.natAbs * unit < 2 ^ 63 * unit := Nat.mul_lt_mul_of_pos_right h unit_pos
  have hlog : stepLog (d.natAbs * unit) ≤ 2044 := (stepLog_le_of_lt_mul_unit hnano).trans (by decide)
  obtain ⟨s, hs, hsle⟩ : ∃ s, (Binary.ofInt .double d).steps? = some s ∧ s.natAbs ≤ 2 * (d.natAbs * unit) :=
    ⟨_, (proper_ofInt hlog).steps_eq, value_ofInt_le hlog⟩
  have hlt : s.natAbs / 1000000 < 2 ^ 64 * unit := (Nat.div_le_self ..).trans_lt (by linarith)
  have hlog' : stepLog (s.natAbs / 1000000) ≤ 2044 := (stepLog_le_of_lt_mul_unit hlt).trans (by decide)
  have hden : 0 < 1000000 := by decide
  refine ⟨.ofSteps s 1000000, ?_, proper_ofSteps hden hlog', ?_⟩
  · rw [milliseconds_eq]
    simp only [hs]
  · have hle := (Nat.le_mul_of_pos_right _ hden).trans (value_ofSteps_mul_le hden hlog')
    linarith

namespace Clock

/-- How long the next call takes. -/
def duration (c : Clock) : Int := (c.durations[c.timed % c.durations.length]?).getD 0

def tick (c : Clock) : Clock := { c with timed := c.timed + 1 }

/-- How far the clock goes while so many calls are timed. -/
def elapsed (c : Clock) : (count : Nat) → Nat
  | 0 => 0
  | count + 1 => c.duration.natAbs + c.tick.elapsed count

theorem next_of_milliseconds {c : Clock} {t : Binary} (h : milliseconds c.duration = .ok t) :
    c.next = .ok (t, c.tick) := by
  rw [duration] at h
  rw [next, h]
  rfl

theorem exists_sampleOnto (c : Clock) (done : List Binary) {count : Nat} (h : c.elapsed count < 2 ^ 63) :
    ∃ times c', c.sampleOnto done count = .ok (done.reverse ++ times, c') ∧ times.length = count ∧
      (∀ t ∈ times, Proper t) ∧ weight (times.map value) ≤ 4 * (c.elapsed count * unit) := by
  induction count generalizing c done with
  | zero => exact ⟨[], c, by simp [sampleOnto], rfl, by simp, Nat.zero_le _⟩
  | succ count ih =>
    rw [elapsed] at h
    obtain ⟨t, ht, hproper, hle⟩ := exists_milliseconds (d := c.duration) (by omega)
    obtain ⟨times, c', hsample, hlength, htimes, hweight⟩ := ih c.tick (t :: done) (by omega)
    refine ⟨t :: times, c', ?_, by rw [List.length_cons, hlength], ?_, ?_⟩
    · rw [sampleOnto, next_of_milliseconds ht]
      change c.tick.sampleOnto (t :: done) count = _
      rw [hsample, List.reverse_cons, List.append_assoc]
      rfl
    · exact List.forall_mem_cons.2 ⟨hproper, htimes⟩
    · rw [List.map_cons, weight_cons, elapsed, Nat.add_mul]
      linarith

end Clock

theorem exists_mean {times : List Binary} {b : Nat} (hb : b ≤ 2044) (h : ∀ t ∈ times, Proper t)
    (hweight : weight (times.map value) ≤ 2 ^ b) : ∃ m, mean times = .ok m := by
  obtain ⟨sum, hsum⟩ : ∃ sum, Binary.sum times = .ok sum := ⟨_, sum_eq_ofSteps hb h hweight⟩
  rw [mean, hsum]
  cases hsteps : sum.steps? with
  | none => exact ⟨sum, by simp only [hsteps]⟩
  | some steps => exact ⟨.ofSteps steps times.length, by simp only [hsteps]⟩

theorem mapM_steps? {times : List Binary} (h : ∀ t ∈ times, Proper t) :
    times.mapM Binary.steps? = some (times.map value) := by
  induction times with
  | nil => rfl
  | cons t times ih =>
    rw [List.forall_mem_cons] at h
    simp [List.mapM_cons, h.1.steps_eq, ih h.2]

theorem exists_deviation {times : List Binary} {j : Nat} (hj : j ≤ 1022) (h : ∀ t ∈ times, Proper t)
    (hweight : weight (times.map value) ≤ 2 ^ j * unit) : ∃ s, deviation times = .ok s := by
  rw [deviation]
  dsimp only
  by_cases hn : times.length < 2
  · rw [if_pos hn]
    exact ⟨_, rfl⟩
  rw [if_neg hn, mapM_steps? h]
  generalize times.length = n at hn
  generalize times.map value = steps at hweight
  -- one factor of the denominator cancels against the number of times, the other is at least one
  have hpos : 0 < n * (n - 1) := Nat.mul_pos (by omega) (by omega)
  have hle : n * 1 ≤ n * (n - 1) := Nat.mul_le_mul_left n (by omega)
  have hsquares : (n * total (steps.map fun i => i * i) - total steps * total steps).toNat ≤
      4 ^ j * (n * (n - 1) * unit * unit) := by
    calc _ ≤ n * (weight steps * weight steps) := toNat_squares_le n steps
      _ ≤ n * (2 ^ j * unit * (2 ^ j * unit)) := Nat.mul_le_mul_left n (Nat.mul_le_mul hweight hweight)
      _ = 2 ^ j * 2 ^ j * (n * 1 * unit * unit) := by ring
      _ = 4 ^ j * (n * 1 * unit * unit) := by rw [← Nat.mul_pow]
      _ ≤ 4 ^ j * (n * (n - 1) * unit * unit) :=
        Nat.mul_le_mul_left _ (Nat.mul_le_mul_right _ (Nat.mul_le_mul_right _ hle))
  have hden : 0 < n * (n - 1) * unit * unit := Nat.mul_pos (Nat.mul_pos hpos unit_pos) unit_pos
  have hfinite := isFinite_sqrtQuotient hden hj hsquares
  exact ⟨_, if_pos hfinite⟩

theorem exists_percentile {α : Type} {sorted : List α} (hne : sorted ≠ []) (num : Nat) {den : Nat}
    (hd : 0 < den) (h : num ≤ den) : ∃ t, percentile num den sorted = some t := by
  have hle : percentileIndex num den (sorted.length - 1) ≤ sorted.length - 1 := by
    refine Rounding.halfEven_le hd ?_
    rw [Nat.mul_comm num]
    exact Nat.mul_le_mul_left _ h
  have hpos := List.length_pos_iff.2 hne
  exact ⟨_, List.getElem?_eq_getElem (by omega)⟩

theorem exists_summary {times : List Binary} {j : Nat} (hj : j ≤ 970) (hne : times ≠ [])
    (h : ∀ t ∈ times, Proper t) (hweight : weight (times.map value) ≤ 2 ^ j * unit) :
    ∃ s, Summary.ofTimes times = .ok s := by
  have hperm := List.mergeSort_perm times Binary.le
  rw [Summary.ofTimes]
  generalize times.mergeSort Binary.le = sorted at hperm
  have hsorted : sorted ≠ [] := fun hnil => hne (List.nil_perm.1 (hnil ▸ hperm))
  have hproper : ∀ t ∈ sorted, Proper t := fun t ht => h t (hperm.mem_iff.1 ht)
  have hsteps : weight (sorted.map value) ≤ 2 ^ j * unit := by
    rwa [weight_perm (hperm.map value)]
  have hpow : 2 ^ (j + 1074) = 2 ^ j * unit := two_pow_eq_mul_unit rfl
  obtain ⟨median, hmedian⟩ := exists_percentile hsorted 1 Nat.two_pos (by decide)
  obtain ⟨late, hlate⟩ := exists_percentile hsorted 19 (by decide : 0 < 20) (by decide)
  obtain ⟨m, hm⟩ := exists_mean (b := j + 1074) (by omega) hproper (hpow ▸ hsteps)
  obtain ⟨s, hs⟩ := exists_deviation (hj.trans (by decide)) hproper hsteps
  rw [hmedian, hlate, hm, hs]
  exact ⟨_, rfl⟩

theorem Clock.exists_summary_of_sample {c : Clock} {count : Nat} (hcount : 0 < count)
    (h : c.elapsed count < 2 ^ 63) :
    ∃ times c' s, c.sample count = .ok (times, c') ∧ Summary.ofTimes times = .ok s := by
  obtain ⟨times, c', hsample, hlength, htimes, hweight⟩ := c.exists_sampleOnto [] h
  have hne : times ≠ [] := List.length_pos_iff.1 (by omega)
  have hlt : c.elapsed count * unit ≤ 2 ^ 63 * unit := Nat.mul_le_mul_right _ h.le
  obtain ⟨s, hs⟩ := exists_summary (j := 65) (by decide) hne htimes (by linarith)
  exact ⟨times, c', s, hsample, hs⟩

end Nock.Timing

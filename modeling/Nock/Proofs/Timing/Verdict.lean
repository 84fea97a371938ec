import Nock.Proofs.Axis.Edit
import Nock.Proofs.Program.Nesting
import Nock.Proofs.Timing.Sample
import Nock.Timing.Row

/-!
# How timed runs do

A workload has the product that is expected, and its nesting is known (`Workload.exists_nests`). So the
recursive engine gives that product or is cut off, the stack engine gives it in the end, and neither gives
another one (`nock_result_of_nests`). A good run is timed, which never fails (`measure_hasStatus`).
-/

namespace Nock

open Recursion (Nests)

variable {s f v : Noun} {d k n : Nat} {bounds : Bounds} {r : Option Noun}

theorem nock_recursive (settings : Settings) (bounds : Bounds) (s f : Noun) :
    nock settings bounds (.text "recursive") (.ofNoun (.cell s f)) =
      (Recursion.eval settings.keepReports bounds.nesting s f).toAnswer := by
  rw [nock_ofNoun]
  rfl

theorem nock_recursive_result (settings : Settings) (bounds : Bounds)
    (h : Nests settings.keepReports s f d v) :
    (nock settings bounds (.text "recursive") (.ofNoun (.cell s f))).result =
      if d ≤ bounds.nesting then .ok (some v) else .error .tooDeep := by
  rw [nock_recursive]
  split
  · rw [h.eval_eq_product ‹_›]
    rfl
  · rw [h.eval_eq_tooDeep (Nat.lt_of_not_le ‹_›)]
    rfl

theorem nock_result_of_nests {settings : Settings} {engine : Value} (h : Nests settings.keepReports s f d v)
    (hr : (nock settings bounds engine (.ofNoun (.cell s f))).result = .ok r) : r = some v := by
  rw [nock_ofNoun] at hr
  rcases hengine : Engine.ofValue settings engine with e | e
  · rw [hengine] at hr
    cases hr
  rw [hengine] at hr
  cases e with
  | stack =>
    have hhalt : Machine.Halts settings.keepReports s f r := ⟨bounds.steps, Engine.outcomeOf_result_iff.1 hr⟩
    exact hhalt.unique h.halts
  | recursive =>
    have hresult := nock_recursive_result settings bounds h
    rw [nock_recursive] at hresult
    have hr : (Recursion.eval settings.keepReports bounds.nesting s f).toAnswer.result = .ok r := hr
    rw [hresult] at hr
    split at hr
    · exact (Except.ok.inj hr).symm
    · cases hr

namespace Timing

variable {w : Workload} {engine : String} {size : Int} {pair : Noun} {status : Status} {clock : Clock}

namespace Workload

/-- How deep a workload nests. -/
def nesting : Workload → Nat → Nat
  | decrement, n => 2 * n + 5
  | incrementChain, n => n + 1

theorem exists_nests (keep : Bool) (w : Workload) (hn : 1 ≤ n) : ∃ s f k,
    w.pair n = .ok (.cell s f) ∧ w.expected n = (k : Nat) ∧ Nests keep s f (w.nesting n) (.atom k) := by
  cases w with
  | decrement =>
    obtain ⟨m, rfl⟩ := Nat.exists_eq_add_of_le' hn
    refine ⟨.atom (m + 1), Program.decrement, m, ?_, ?_, Program.decrement_nests keep m⟩
    · change Value.pair (.ofNoun (.atom (m + 1))) (.ofNoun Program.decrement) = _
      rw [Value.pair, Value.component_ofNoun, Value.component_ofNoun]
      rfl
    · change ((m + 1 : Nat) : Int) - 1 = m
      omega
  | incrementChain =>
    have hnests := Program.incrementChain_nests keep n 0
    rw [Nat.zero_add] at hnests
    exact ⟨.atom 0, Program.incrementChain n, n, by rw [pair, Int.toNat_natCast]; rfl, rfl, hnests⟩

end Workload

theorem same_expected (hk : w.expected size = (k : Nat)) :
    (Value.ofResult (some (.atom k))).same (.int (w.expected size)) = true := by
  rw [hk]
  simp [Value.ofResult, Value.ofNoun, Value.same, Value.number?, Value.sameNumber]

section
variable (hpair : w.pair size = .ok pair)
include hpair

theorem verdict_of_product (hk : w.expected size = (k : Nat))
    (h : (nock {} bounds (.text engine) (.ofNoun pair)).result = .ok (some (.atom k))) :
    verdict bounds w engine size = .ok .ok := by
  rw [verdict, hpair]
  dsimp only [bind, Except.bind]
  rw [h]
  dsimp only
  rw [same_expected hk]
  rfl

theorem verdict_of_tooDeep (h : (nock {} bounds (.text engine) (.ofNoun pair)).result = .error .tooDeep) :
    verdict bounds w engine size = .ok .recursionLimit := by
  rw [verdict, hpair]
  dsimp only [bind, Except.bind]
  rw [h]
  rfl

theorem ne_wrongResult_of_verdict (hk : w.expected size = (k : Nat))
    (h : ∀ r, (nock {} bounds (.text engine) (.ofNoun pair)).result = .ok r → r = some (.atom k))
    (hv : verdict bounds w engine size = .ok status) : status ≠ .wrongResult := by
  rcases hresult : (nock {} bounds (.text engine) (.ofNoun pair)).result with e | r
  · rintro rfl
    rw [verdict, hpair] at hv
    dsimp only [bind, Except.bind] at hv
    rw [hresult] at hv
    split at hv <;> cases ‹Except.error e = _› <;> cases hv
  · obtain rfl := h r hresult
    rw [verdict_of_product hpair hk hresult] at hv
    cases hv
    exact Status.noConfusion

end

theorem verdict_recursive (bounds : Bounds) (w : Workload) (hn : 1 ≤ n) :
    verdict bounds w "recursive" n = .ok (if w.nesting n ≤ bounds.nesting then .ok else .recursionLimit) := by
  obtain ⟨s, f, k, hpair, hk, hnests⟩ := w.exists_nests false hn
  have hresult := nock_recursive_result {} bounds hnests
  split
  · rw [if_pos ‹_›] at hresult
    exact verdict_of_product hpair hk hresult
  · rw [if_neg ‹_›] at hresult
    exact verdict_of_tooDeep hpair hresult

theorem verdict_stack (w : Workload) (hn : 1 ≤ n) :
    ∃ steps, ∀ bounds : Bounds, steps ≤ bounds.steps → verdict bounds w "stack" n = .ok .ok := by
  obtain ⟨s, f, k, hpair, hk, hnests⟩ := w.exists_nests false hn
  obtain ⟨steps, hsteps⟩ : StackReturns {} (.cell s f) (some (.atom k)) := .of_halts hnests.halts
  exact ⟨steps, fun bounds h => verdict_of_product hpair hk (hsteps bounds h)⟩

theorem verdict_ne_wrongResult (hn : 1 ≤ n) (h : verdict bounds w engine n = .ok status) :
    status ≠ .wrongResult := by
  obtain ⟨s, f, k, hpair, hk, hnests⟩ := w.exists_nests false hn
  exact ne_wrongResult_of_verdict hpair hk (fun r hr => nock_result_of_nests hnests hr) h

theorem withTimes_status {row row' : Row} {times : List Binary} (h : row.withTimes times = .ok row') :
    row'.status = row.status := by
  obtain ⟨s, _, hrow⟩ := Error.bind_eq_ok.1 h
  cases hrow
  rfl

/-- The measurement gives a row with this status. -/
def HasStatus (measured : Except Error (Row × Clock)) (status : Status) : Prop :=
  ∃ row clock, measured = .ok (row, clock) ∧ row.status = status.text

theorem measure_hasStatus {samples : Int} (warmup : Int) (hsamples : 1 ≤ samples)
    (hclock : clock.elapsed samples.toNat < 2 ^ 63) (h : verdict bounds w engine size = .ok status) :
    HasStatus (Row.measure bounds clock w engine size ⟨some warmup, samples⟩) status := by
  rw [Row.measure, h]
  dsimp only [bind, Except.bind]
  by_cases hok : status = .ok
  · subst hok
    obtain ⟨times, clock', s, hsample, hs⟩ := Clock.exists_summary_of_sample (by omega) hclock
    rw [if_pos rfl, if_neg (by simp), hsample]
    dsimp only
    rw [Row.withTimes, hs]
    exact ⟨_, _, rfl, rfl⟩
  · rw [if_neg hok]
    exact ⟨_, _, rfl, rfl⟩

/-- A row has the status of the first run. -/
theorem exists_verdict_of_measure {counts : Counts} {row : Row} {clock' : Clock}
    (h : Row.measure bounds clock w engine size counts = .ok (row, clock')) :
    ∃ status, verdict bounds w engine size = .ok status ∧ row.status = status.text := by
  obtain ⟨status, hstatus, h⟩ := Error.bind_eq_ok.1 h
  refine ⟨status, hstatus, ?_⟩
  dsimp only at h
  split at h
  · split at h
    · cases h
    obtain ⟨⟨times, _⟩, _, h⟩ := Error.bind_eq_ok.1 h
    obtain ⟨row', hrow, h⟩ := Error.bind_eq_ok.1 h
    cases h
    exact withTimes_status hrow
  · cases h
    rfl

/-- A measurement of a positive size gives a row, if it takes a sample and its clock goes less than `2 ^ 63`
nanoseconds, as every clock of 64 bits does. On the stack engine the run is good; on the recursive engine it is
good unless it nests too deeply, which is told apart; and no row ever reports a wrong product. -/
theorem measured_status_exact {n : Nat} {samples : Int} {clock : Clock} (warmup : Int) (hn : 1 ≤ n)
    (hsamples : 1 ≤ samples) (hclock : clock.elapsed samples.toNat < 2 ^ 63) :
    (∀ w, ∃ steps, ∀ bounds : Bounds, steps ≤ bounds.steps →
      HasStatus (Row.measure bounds clock w "stack" n ⟨some warmup, samples⟩) .ok) ∧
    (∀ bounds : Bounds,
      HasStatus (Row.measure bounds clock .decrement "recursive" n ⟨some warmup, samples⟩)
        (if 2 * n + 5 ≤ bounds.nesting then .ok else .recursionLimit)) ∧
    (∀ bounds : Bounds,
      HasStatus (Row.measure bounds clock .incrementChain "recursive" n ⟨some warmup, samples⟩)
        (if n + 1 ≤ bounds.nesting then .ok else .recursionLimit)) ∧
    ∀ bounds clock w engine counts row clock',
      Row.measure bounds clock w engine n counts = .ok (row, clock') → row.status ≠ Status.wrongResult.text := by
  have hrecursive : ∀ (bounds : Bounds) (w : Workload),
      HasStatus (Row.measure bounds clock w "recursive" n ⟨some warmup, samples⟩)
        (if w.nesting n ≤ bounds.nesting then .ok else .recursionLimit) := by
    intro bounds w
    exact measure_hasStatus warmup hsamples hclock (verdict_recursive bounds w hn)
  refine ⟨fun w => ?_, fun bounds => hrecursive bounds .decrement,
    fun bounds => hrecursive bounds .incrementChain, ?_⟩
  · obtain ⟨steps, hsteps⟩ := verdict_stack w hn
    exact ⟨steps, fun bounds h => measure_hasStatus warmup hsamples hclock (hsteps bounds h)⟩
  · intro bounds clock w engine counts row clock' hrow
    obtain ⟨status, hstatus, heq⟩ := exists_verdict_of_measure hrow
    rw [heq]
    have hne := verdict_ne_wrongResult hn hstatus
    cases status with
    | ok | recursionLimit => decide
    | wrongResult => exact absurd rfl hne

/-- Counting down from 3 nests eleven deep. -/
theorem measured_status_of_three : (1 ≤ 3 ∧ (1 : Int) ≤ 2 ∧ Clock.elapsed ⟨[5, 8], 0⟩ (2 : Int).toNat < 2 ^ 63) ∧
    HasStatus (Row.measure { nesting := 11 } ⟨[5, 8], 0⟩ .decrement "recursive" (3 : Nat) ⟨some 1, 2⟩) .ok ∧
    HasStatus (Row.measure { nesting := 10 } ⟨[5, 8], 0⟩ .decrement "recursive" (3 : Nat) ⟨some 1, 2⟩)
      .recursionLimit := by
  have hn : 1 ≤ 3 := by decide
  have hsamples : (1 : Int) ≤ 2 := by decide
  have hclock : Clock.elapsed ⟨[5, 8], 0⟩ (2 : Int).toNat < 2 ^ 63 := by decide
  have hdecrement := (measured_status_exact 1 hn hsamples hclock).2.1
  have hok := hdecrement { nesting := 11 }
  rw [if_pos (by decide)] at hok
  have hdeep := hdecrement { nesting := 10 }
  rw [if_neg (by decide)] at hdeep
  exact ⟨⟨hn, hsamples, hclock⟩, hok, hdeep⟩

end Timing

end Nock

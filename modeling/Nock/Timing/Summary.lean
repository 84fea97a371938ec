import Nock.Binary.Sum
import Nock.Error

/-!
# Summaries of samples

The mean, the standard deviation and two percentiles of some times. Times are numbers of the double
format, so a sum of finite ones is a whole number of least steps and is rounded once. The deviation is
that of a sample, the root of the squared distances from the mean over one less than their number.
-/

namespace Nock.Timing

/-- The index at a fraction of the way to the last of some sorted times. -/
def percentileIndex (num den last : Nat) : Nat := Rounding.halfEven (num * last) den

/-- The time at a fraction of the way through sorted times. -/
def percentile {α : Type} (num den : Nat) (sorted : List α) : Option α :=
  sorted[percentileIndex num den (sorted.length - 1)]?

structure Summary where
  mean : Binary
  deviation : Binary
  median : Binary
  /-- The time at nineteen twentieths. -/
  late : Binary
deriving DecidableEq

/-- The sum, rounded, and then divided by the number of times. -/
def mean (times : List Binary) : Except Error Binary :=
  match Binary.sum times with
  | .ok sum =>
    match sum.steps? with
    | some steps => .ok (.ofSteps steps times.length)
    | none => .ok sum
  | .error .overflow => .error (.unexplained .overflow)
  | .error .opposed => .error (.unexplained .value)

/-- The deviation of a sample; a single time has none. All times have to be finite. -/
def deviation (times : List Binary) : Except Error Binary :=
  let n := times.length
  if n < 2 then .ok (.ofSteps 0 1)
  else
    match times.mapM Binary.steps? with
    | none => .error (.unexplained .attribute)
    | some steps =>
      let sum := Binary.total steps
      let squares := n * Binary.total (steps.map fun x => x * x) - sum * sum
      let root := Binary.sqrtQuotient squares.toNat (n * (n - 1) * Binary.unit * Binary.unit)
      if root.isFinite then .ok root else .error (.unexplained .overflow)

/-- The summary of some times; there must be one. -/
def Summary.ofTimes (times : List Binary) : Except Error Summary := do
  let sorted := times.mergeSort Binary.le
  match percentile 1 2 sorted, percentile 19 20 sorted with
  | some median, some late =>
    return ⟨← Timing.mean sorted, ← Timing.deviation sorted, median, late⟩
  | _, _ => throw .noSamples

end Nock.Timing

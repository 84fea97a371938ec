import Nock.Evaluation.Entry
import Nock.Program

/-!
# Workloads

Two formulas of growing size, with the product that is expected: a loop that counts down by counting
up, and a nest of increments. A run is good if its product is that, and a run that nests too deeply is
told apart from one with another product.
-/

namespace Nock.Timing

inductive Workload where
  | decrement
  | incrementChain
deriving DecidableEq

namespace Workload

def all : List Workload := [decrement, incrementChain]

def name : Workload → String
  | decrement => "decrement"
  | incrementChain => "increment_chain"

def ofName? (s : String) : Option Workload := all.find? (·.name == s)

def note : Workload → String
  | decrement => "opcode 9 counting loop, n iterations"
  | incrementChain => "n nested opcode 4 formulas"

/-- The pair of a subject and a formula for a size. -/
def pair (w : Workload) (size : Int) : Except Error Noun :=
  match w with
  | decrement => Value.pair (.int size) (.ofNoun Program.decrement)
  | incrementChain => .ok (.cell 0 (Program.incrementChain size.toNat))

/-- The product that is expected. -/
def expected (w : Workload) (size : Int) : Int :=
  match w with
  | decrement => size - 1
  | incrementChain => size

end Workload

inductive Status where
  | ok
  | recursionLimit
  | wrongResult
deriving DecidableEq

def Status.text : Status → String
  | ok => "ok"
  | recursionLimit => "recursion-limit"
  | wrongResult => "wrong-result"

/-- How a first run of a workload on an engine does. The name of the engine is looked at when the pair
stands. -/
def verdict (bounds : Bounds) (w : Workload) (engine : String) (size : Int) : Except Error Status := do
  let pair ← w.pair size
  match (nock {} bounds (.text engine) (.ofNoun pair)).result with
  | .error .tooDeep => return .recursionLimit
  | .error e => throw e
  | .ok result =>
    let good := (Value.ofResult result).same (.int (w.expected size))
    return if good then .ok else .wrongResult

end Nock.Timing

import Nock.Evaluation.Machine
import Nock.Evaluation.Recursion

/-!
# Engines

Two engines reduce the same formulas. The stack engine needs no more space than its frames and is
bounded here only in its number of steps; the recursive engine is bounded in the number of
evaluations that are active at once.
-/

namespace Nock

inductive Engine where
  | stack
  | recursive
deriving DecidableEq, Repr

/-- How far the engines may go. -/
structure Bounds where
  /-- Steps of the stack engine: more than any run can wait for. -/
  steps : Nat := Nat.pow 2 62
  /-- Active evaluations of the recursive engine. -/
  nesting : Nat := 900

namespace Engine

def all : List Engine := [stack, recursive]

def name : Engine → String
  | stack => "stack"
  | recursive => "recursive"

def ofName? (s : String) : Option Engine := all.find? (·.name == s)

def outcomeOf (st : Machine.State) : Outcome :=
  match st.control with
  | .halt (some v) => ⟨.product v, st.log⟩
  | .halt none => ⟨.crash, st.log⟩
  | _ => ⟨.unfinished, st.log⟩

def reduce (bounds : Bounds) (keep : Bool) (e : Engine) (subject formula : Noun) : Outcome :=
  match e with
  | stack => outcomeOf (Machine.run keep bounds.steps (Machine.initial subject formula))
  | recursive => Recursion.eval keep bounds.nesting subject formula

end Engine

end Nock

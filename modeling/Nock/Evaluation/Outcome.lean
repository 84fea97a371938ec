import Nock.Evaluation.Report

/-!
# Outcomes

How a run of an engine ends, together with the reports that it left. An engine that is given a bound
may end without an answer, and this is neither a noun nor a crash.
-/

namespace Nock

inductive Ending where
  | product (n : Noun)
  | crash
  /-- Evaluations nested deeper than the bound. -/
  | tooDeep
  /-- More steps than the bound. -/
  | unfinished
deriving DecidableEq

structure Outcome where
  ending : Ending
  log : Log
deriving DecidableEq

namespace Outcome

def product (n : Noun) : Outcome := ⟨.product n, []⟩

def tooDeep : Outcome := ⟨.tooDeep, []⟩

/-- A crash, and its report if reports are kept. -/
def crash (keep : Bool) (r : Report) : Outcome := ⟨.crash, Log.note keep [] r⟩

/-- The noun if there is one, and a crash if there is none. -/
def ofOption (keep : Bool) (r : Report) : Option Noun → Outcome
  | some n => product n
  | none => crash keep r

/-- Goes on with the product; any other ending stays. -/
def andThen (o : Outcome) (next : Noun → Outcome) : Outcome :=
  match o.ending with
  | .product n => let o' := next n; ⟨o'.ending, o.log ++ o'.log⟩
  | _ => o

@[simp] theorem product_andThen (n : Noun) (next : Noun → Outcome) :
    (product n).andThen next = next n := by
  simp [product, andThen]

@[simp] theorem tooDeep_andThen (next : Noun → Outcome) : tooDeep.andThen next = tooDeep := rfl

@[simp] theorem crash_andThen (keep : Bool) (r : Report) (next : Noun → Outcome) :
    (crash keep r).andThen next = crash keep r := rfl

end Outcome

end Nock

import Nock.Noun.Equal
import Nock.Noun.Printer

/-!
# Crash reports

An evaluation that comes to nothing crashes at one place, and a report says which: the opcode that
was being reduced, if there was one, and what was wrong with it.
-/

namespace Nock

inductive Report where
  /-- There is no pair of a subject and a formula. -/
  | atomPair
  | atomFormula
  /-- The head of the formula is a cell. -/
  | headIsCell (head : Noun)
  | unknownOpcode (op : Nat)
  /-- The formula has not the parts that its opcode needs. -/
  | malformed (op : Nat)
  | axisMissing (axis : Noun)
  | notIncrementable
  | badTest (test : Noun)
  | armMissing (axis : Noun)
  | notEditable (axis : Noun)
deriving DecidableEq

namespace Report

/-- The head of the formula that crashed. -/
def opcode? : Report → Option Noun
  | atomPair | atomFormula => none
  | headIsCell head => some head
  | unknownOpcode op | malformed op => some (.atom op)
  | axisMissing _ => some 0
  | notIncrementable => some 4
  | badTest _ => some 6
  | armMissing _ => some 9
  | notEditable _ => some 10

/-- The parts that an opcode needs, as they stand behind it. -/
def expectedShape (op : Nat) : String :=
  if op = 6 then "[b c d]" else if op = 10 then "[[b c] d]" else "[b c]"

def reason : Report → String
  | atomPair => "top-level argument is an atom, not [subject formula]"
  | atomFormula => "formula is an atom"
  | headIsCell _ => "formula head is not an opcode"
  | unknownOpcode _ => "unknown opcode"
  | malformed op => "expected " ++ expectedShape op
  | axisMissing axis => "axis " ++ axis.render ++ " is not in the subject"
  | notIncrementable => "cannot increment a cell"
  | badTest test => "test is not 0 or 1: " ++ test.render
  | armMissing axis => "arm axis " ++ axis.render ++ " is not in the core"
  | notEditable axis => "cannot edit axis " ++ axis.render

/-- The line that goes into the log. -/
def message (r : Report) : String :=
  "crash at opcode " ++ (r.opcode?.map Noun.render).getD "None" ++ ": " ++ r.reason

end Report

/-- The reports of a run, oldest first. -/
abbrev Log := List Report

/-- Adds a report to the log if reports are kept. -/
def Log.note (keep : Bool) (log : Log) (r : Report) : Log := if keep then log ++ [r] else log

end Nock

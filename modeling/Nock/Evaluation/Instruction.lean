import Nock.Evaluation.Report

/-!
# Instructions

A formula is a cell of an opcode and its parts. `Instruction.decode` reads the opcode and takes the
parts out, or reports why the noun is no formula. Opcode 11 is two instructions: a static hint is an
atom and is passed over, a dynamic hint carries a formula that is evaluated too.
-/

namespace Nock

inductive Instruction where
  /-- Opcode 0: the subtree of the subject at an axis. -/
  | lookup (axis : Noun)
  /-- Opcode 1: the noun itself. -/
  | quote (value : Noun)
  /-- Opcode 2: make a subject and a formula, then reduce these. -/
  | reduce (subject formula : Noun)
  /-- Opcode 3: 0 for a cell and 1 for an atom. -/
  | cellTest (formula : Noun)
  /-- Opcode 4: the next atom. -/
  | increment (formula : Noun)
  /-- Opcode 5: 0 for equal nouns and 1 for others. -/
  | equal (left right : Noun)
  /-- Opcode 6: one of two formulas, picked by a test of 0 or 1. -/
  | branch (test yes no : Noun)
  /-- Opcode 7: the second formula on the product of the first. -/
  | compose (first second : Noun)
  /-- Opcode 8: the second formula on the subject with the product of the first in front. -/
  | push (first second : Noun)
  /-- Opcode 9: make a core, then reduce the arm that it holds at an axis. -/
  | invoke (axis core : Noun)
  /-- Opcode 10: put a value into a tree at an axis. -/
  | edit (axis value tree : Noun)
  /-- Opcode 11 with an atom: the formula alone. -/
  | staticHint (formula : Noun)
  /-- Opcode 11 with a cell: the formula, after the hint's own formula. -/
  | dynamicHint (hint formula : Noun)
deriving DecidableEq

namespace Instruction

/-- The parts behind an opcode. -/
def ofParts (op : Nat) (arg : Noun) : Except Report Instruction :=
  match op, arg with
  | 0, axis => .ok (lookup axis)
  | 1, value => .ok (quote value)
  | 2, .cell b c => .ok (reduce b c)
  | 3, b => .ok (cellTest b)
  | 4, b => .ok (increment b)
  | 5, .cell b c => .ok (equal b c)
  | 6, .cell b (.cell c d) => .ok (branch b c d)
  | 7, .cell b c => .ok (compose b c)
  | 8, .cell b c => .ok (push b c)
  | 9, .cell b c => .ok (invoke b c)
  | 10, .cell (.cell b c) d => .ok (edit b c d)
  | 11, .cell (.atom _) c => .ok (staticHint c)
  | 11, .cell (.cell _ c) d => .ok (dynamicHint c d)
  | op, _ => .error (if op ≤ 11 then .malformed op else .unknownOpcode op)

/-- The instruction that a formula stands for. -/
def decode : Noun → Except Report Instruction
  | .atom _ => .error .atomFormula
  | .cell (.atom op) arg => ofParts op arg
  | .cell head@(.cell _ _) _ => .error (.headIsCell head)

end Instruction

/-- The formula `[0 3]`, which takes the tail of the subject. -/
def tailFormula : Noun := .cell 0 3

end Nock

import Nock.Axis.Rules
import Nock.Evaluation.Instruction

/-!
# The table of reduction

The rules of reduction as they are written down: a row for each opcode, which gives the product of a
formula as a term of nouns, operators and further reductions. Terms are evaluated from left to right,
and the first crash ends the evaluation, so what stands to the right of it may be without an end.
`Reduces` is the least relation that obeys the rows.
-/

namespace Nock.Table

open Axis (Finds Edits)

inductive Operator where
  | isCell
  | inc
  /-- Takes a pair. -/
  | isEq
  | findAt (axis : Noun)
  /-- Takes a pair of a leaf and a tree. -/
  | replaceAt (axis : Noun)

/-- What an operator gives for a noun, where `none` is a crash. -/
inductive Operator.Gives : Operator → Noun → Option Noun → Prop
  | isCell_cell {h t : Noun} : Gives isCell (.cell h t) (some 0)
  | isCell_atom {n : Nat} : Gives isCell (.atom n) (some 1)
  | inc_atom {n : Nat} : Gives inc (.atom n) (some (.atom (n + 1)))
  | inc_cell {h t : Noun} : Gives inc (.cell h t) none
  | isEq_same {a : Noun} : Gives isEq (.cell a a) (some 0)
  | isEq_other {a b : Noun} : a ≠ b → Gives isEq (.cell a b) (some 1)
  | isEq_atom {n : Nat} : Gives isEq (.atom n) none
  | findAt {axis t u : Noun} : Finds axis t u → Gives (findAt axis) t (some u)
  | findAt_none {axis t : Noun} : (∀ u, ¬ Finds axis t u) → Gives (findAt axis) t none
  | replaceAt {axis v t u : Noun} : Edits axis v t u → Gives (replaceAt axis) (.cell v t) (some u)
  | replaceAt_none {axis v t : Noun} :
      (∀ u, ¬ Edits axis v t u) → Gives (replaceAt axis) (.cell v t) none
  | replaceAt_atom {axis : Noun} {n : Nat} : Gives (replaceAt axis) (.atom n) none

/-- The right side of a row. -/
inductive Term where
  | noun (n : Noun)
  | cell (head tail : Term)
  /-- The product of a pair of a subject and a formula. -/
  | nock (pair : Term)
  | apply (op : Operator) (argument : Term)
  /-- One of two terms, picked by a test of 0 or 1. -/
  | choose (test yes no : Term)
  | crash

def row (s : Noun) (formula : Noun) : Term :=
  let product (f : Noun) : Term := .nock (.noun (.cell s f))
  match formula with
  | .cell (.atom 0) b => .apply (.findAt b) (.noun s)
  | .cell (.atom 1) b => .noun b
  | .cell (.atom 2) (.cell b c) => .nock (.cell (product b) (product c))
  | .cell (.atom 3) b => .apply .isCell (product b)
  | .cell (.atom 4) b => .apply .inc (product b)
  | .cell (.atom 5) (.cell b c) => .apply .isEq (.cell (product b) (product c))
  | .cell (.atom 6) (.cell b (.cell c d)) => .choose (product b) (product c) (product d)
  | .cell (.atom 7) (.cell b c) => .nock (.cell (product b) (.noun c))
  | .cell (.atom 8) (.cell b c) => .nock (.cell (.cell (product b) (.noun s)) (.noun c))
  | .cell (.atom 9) (.cell b c) =>
    .nock (.cell (product c) (.noun (.cell 2 (.cell (.cell 0 1) (.cell 0 b)))))
  | .cell (.atom 10) (.cell (.cell b c) d) => .apply (.replaceAt b) (.cell (product c) (product d))
  | .cell (.atom 11) (.cell (.cell _ c) d) =>
    .nock (.cell (.cell (product c) (product d)) (.noun (.cell 0 3)))
  | .cell (.atom 11) (.cell (.atom _) c) => product c
  | _ => .crash

/-- A term has a result: a noun, or a crash (`none`). -/
inductive Evaluates : Term → Option Noun → Prop
  | noun {n : Noun} : Evaluates (.noun n) (some n)
  | cell {h t : Term} {x y : Noun} : Evaluates h (some x) → Evaluates t (some y) →
      Evaluates (.cell h t) (some (.cell x y))
  | cellHead {h t : Term} : Evaluates h none → Evaluates (.cell h t) none
  | cellTail {h t : Term} {x : Noun} : Evaluates h (some x) → Evaluates t none →
      Evaluates (.cell h t) none
  | nock {p : Term} {s f : Noun} {r : Option Noun} : Evaluates p (some (.cell s f)) →
      Evaluates (row s f) r → Evaluates (.nock p) r
  | nockAtom {p : Term} {n : Nat} : Evaluates p (some (.atom n)) → Evaluates (.nock p) none
  | nockCrash {p : Term} : Evaluates p none → Evaluates (.nock p) none
  | apply {op : Operator} {t : Term} {x : Noun} {r : Option Noun} : Evaluates t (some x) →
      op.Gives x r → Evaluates (.apply op t) r
  | applyCrash {op : Operator} {t : Term} : Evaluates t none → Evaluates (.apply op t) none
  | chooseYes {test yes no : Term} {r : Option Noun} : Evaluates test (some 0) → Evaluates yes r →
      Evaluates (.choose test yes no) r
  | chooseNo {test yes no : Term} {r : Option Noun} : Evaluates test (some 1) → Evaluates no r →
      Evaluates (.choose test yes no) r
  | chooseOther {test yes no : Term} {x : Noun} : Evaluates test (some x) → x ≠ 0 → x ≠ 1 →
      Evaluates (.choose test yes no) none
  | chooseCrash {test yes no : Term} : Evaluates test none → Evaluates (.choose test yes no) none
  | crash : Evaluates .crash none

/-- A formula reduces on a subject to a noun or a crash. -/
def Reduces (s f : Noun) (r : Option Noun) : Prop := Evaluates (.nock (.noun (.cell s f))) r

end Nock.Table

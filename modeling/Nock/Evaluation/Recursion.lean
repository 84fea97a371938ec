import Nock.Axis
import Nock.Evaluation.Instruction
import Nock.Evaluation.Outcome
import Nock.Primitive

/-!
# The recursive engine

The rules of reduction read as a recursive function. `Recursion.eval keep bound s f` allows `bound`
evaluations to be active at once, the outermost counted and those in tail position too; one more ends
the whole evaluation as `tooDeep`. Sub-evaluations go from left to right, and the first that gives no
noun ends all.
-/

namespace Nock.Recursion

variable (keep : Bool)

/-- Reduces a formula on a subject, with at most `bound` evaluations active. -/
def eval : (bound : Nat) → (subject formula : Noun) → Outcome
  | 0, _, _ => .tooDeep
  | bound + 1, s, f =>
    match Instruction.decode f with
    | .error r => .crash keep r
    | .ok (.lookup axis) => .ofOption keep (.axisMissing axis) (axis.findAt? s)
    | .ok (.quote value) => .product value
    | .ok (.reduce b c) =>
      (eval bound s b).andThen fun x => (eval bound s c).andThen fun y => eval bound x y
    | .ok (.cellTest b) => (eval bound s b).andThen fun v => .product v.cellTest
    | .ok (.increment b) =>
      (eval bound s b).andThen fun v => .ofOption keep .notIncrementable v.increment?
    | .ok (.equal b c) =>
      (eval bound s b).andThen fun u => (eval bound s c).andThen fun v => .product (u.equalTest v)
    | .ok (.branch b c d) =>
      (eval bound s b).andThen fun test =>
        match test with
        | .atom 0 => eval bound s c
        | .atom 1 => eval bound s d
        | _ => .crash keep (.badTest test)
    | .ok (.compose b c) => (eval bound s b).andThen fun x => eval bound x c
    | .ok (.push b c) => (eval bound s b).andThen fun x => eval bound (.cell x s) c
    | .ok (.invoke axis c) =>
      (eval bound s c).andThen fun core =>
        match axis.findAt? core with
        | some arm => eval bound core arm
        | none => .crash keep (.armMissing axis)
    | .ok (.edit axis c d) =>
      (eval bound s c).andThen fun u => (eval bound s d).andThen fun v =>
        .ofOption keep (.notEditable axis) (axis.replaceAt? u v)
    | .ok (.staticHint c) => eval bound s c
    | .ok (.dynamicHint c d) =>
      (eval bound s c).andThen fun u => (eval bound s d).andThen fun v =>
        eval bound (.cell u v) tailFormula

end Nock.Recursion

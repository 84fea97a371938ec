import Nock.Evaluation.Instruction

/-!
# Formula positions

An instruction holds formulas of its own, which are reduced with it, and these hold further ones. They
stand at the formula positions of a formula. Only opcodes 2 and 9 reduce a formula that stands at no
position, because it is made or looked up on the way, so a formula without them is free of loops.
-/

namespace Nock

namespace Instruction

def opcode : Instruction → Nat
  | lookup _ => 0
  | quote _ => 1
  | reduce _ _ => 2
  | cellTest _ => 3
  | increment _ => 4
  | equal _ _ => 5
  | branch _ _ _ => 6
  | compose _ _ => 7
  | push _ _ => 8
  | invoke _ _ => 9
  | edit _ _ _ => 10
  | staticHint _ | dynamicHint _ _ => 11

/-- The formulas that an instruction holds. -/
def parts : Instruction → List Noun
  | lookup _ | quote _ => []
  | cellTest b | increment b => [b]
  | reduce b c | equal b c | compose b c | push b c => [b, c]
  | branch b c d => [b, c, d]
  | invoke _ c => [c]
  | edit _ c d => [c, d]
  | staticHint c => [c]
  | dynamicHint c d => [c, d]

end Instruction

namespace Noun

/-- The opcode that heads a formula. -/
def opcode? : Noun → Option Nat
  | cell (atom op) _ => some op
  | _ => none

/-- A noun stands at a formula position of a formula. -/
inductive Position : (f position : Noun) → Prop
  | root {f : Noun} : Position f f
  | part {f p q : Noun} {i : Instruction} : Instruction.decode f = .ok i → p ∈ i.parts →
      Position p q → Position f q

/-- Neither opcode 2 nor opcode 9 heads a formula position. -/
def LoopFree (f : Noun) : Prop := ∀ p, Position f p → p.opcode? ≠ some 2 ∧ p.opcode? ≠ some 9

end Noun

end Nock

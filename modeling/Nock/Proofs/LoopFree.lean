import Nock.Evaluation.Position
import Nock.Proofs.Machine.Simulation

/-!
# Formulas without loops end

What stands at a formula position is less deep than the formula around it (`depth_lt_of_mem_parts`), and
a formula without loops reduces nothing else, but for the tail that opcode 11 takes apart. So its depth
bounds the evaluations that are active at once (`eval_ne_tooDeep`), and the machine halts.
-/

namespace Nock

namespace Instruction

variable {f p arg : Noun} {op : Nat} {i : Instruction}

theorem exists_of_decode (h : decode f = .ok i) :
    ∃ op arg, f = .cell (.atom op) arg ∧ ofParts op arg = .ok i := by
  unfold decode at h
  split at h
  · cases h
  · exact ⟨_, _, rfl, h⟩
  · cases h

theorem opcode_of_ofParts (h : ofParts op arg = .ok i) : op = i.opcode := by
  unfold ofParts at h
  split at h <;> cases h <;> rfl

theorem depth_le_of_ofParts (h : ofParts op arg = .ok i) : ∀ p ∈ i.parts, p.depth ≤ arg.depth := by
  unfold ofParts at h
  split at h <;> cases h <;> simp [parts, Noun.depth] <;> omega

theorem opcode?_of_decode (h : decode f = .ok i) : f.opcode? = some i.opcode := by
  obtain ⟨op, arg, rfl, hparts⟩ := exists_of_decode h
  rw [Noun.opcode?, opcode_of_ofParts hparts]

theorem depth_pos_of_decode (h : decode f = .ok i) : 0 < f.depth := by
  obtain ⟨op, arg, rfl, -⟩ := exists_of_decode h
  exact Nat.succ_pos _

theorem depth_lt_of_mem_parts (h : decode f = .ok i) (hp : p ∈ i.parts) : p.depth < f.depth := by
  obtain ⟨op, arg, rfl, hparts⟩ := exists_of_decode h
  have hle := depth_le_of_ofParts hparts p hp
  simp only [Noun.depth]
  omega

end Instruction

/-- What holds of products, crashes, chains and the parts of a formula holds of the formula, unless it
reduces a formula that is no part of it. -/
theorem Scheme.rule_of_parts {α : Type} {k : Scheme α} {call : Noun → Noun → α} {P : α → Prop} {f : Noun}
    {i : Instruction} (product : ∀ v, P (k.product v)) (crash : ∀ r, P (k.crash r))
    (andThen : ∀ {a next}, P a → (∀ v, P (next v)) → P (k.andThen a next))
    (hdec : Instruction.decode f = .ok i) (hreduce : i.opcode ≠ 2) (hinvoke : i.opcode ≠ 9)
    (hpart : ∀ p ∈ i.parts, ∀ s, P (call s p)) (htail : ∀ s, P (call s tailFormula)) (s : Noun) :
    P (k.rule call s f) := by
  have option (r : Report) (v? : Option Noun) : P (k.ofOption r v?) := by
    cases v? with
    | none => exact crash r
    | some v => exact product v
  simp only [rule, hdec]
  cases i
  all_goals simp only [Instruction.parts, List.forall_mem_cons] at hpart
  case reduce => exact absurd rfl hreduce
  case invoke => exact absurd rfl hinvoke
  case lookup => exact option ..
  case quote value => exact product value
  case cellTest =>
    obtain ⟨hb, -⟩ := hpart
    exact andThen (hb s) fun _ => product _
  case increment =>
    obtain ⟨hb, -⟩ := hpart
    exact andThen (hb s) fun _ => option ..
  case equal =>
    obtain ⟨hb, hc, -⟩ := hpart
    exact andThen (hb s) fun _ => andThen (hc s) fun _ => product _
  case branch =>
    obtain ⟨hb, hc, hd, -⟩ := hpart
    refine andThen (hb s) fun test => ?_
    split
    · exact hc s
    · exact hd s
    · exact crash _
  case compose =>
    obtain ⟨hb, hc, -⟩ := hpart
    exact andThen (hb s) fun x => hc x
  case push =>
    obtain ⟨hb, hc, -⟩ := hpart
    exact andThen (hb s) fun x => hc (.cell x s)
  case edit =>
    obtain ⟨hc, hd, -⟩ := hpart
    exact andThen (hc s) fun _ => andThen (hd s) fun _ => option ..
  case staticHint =>
    obtain ⟨hc, -⟩ := hpart
    exact hc s
  case dynamicHint =>
    obtain ⟨hc, hd, -⟩ := hpart
    exact andThen (hc s) fun u => andThen (hd s) fun v => htail (.cell u v)

namespace Noun.LoopFree

variable {f p : Noun} {i : Instruction}

theorem part (h : f.LoopFree) (hdec : Instruction.decode f = .ok i) (hp : p ∈ i.parts) : p.LoopFree :=
  fun q hq => h q (.part hdec hp hq)

theorem opcode_ne (h : f.LoopFree) (hdec : Instruction.decode f = .ok i) :
    i.opcode ≠ 2 ∧ i.opcode ≠ 9 := by
  have hroot := h f .root
  rw [Instruction.opcode?_of_decode hdec] at hroot
  simpa using hroot

theorem of_parts (hdec : Instruction.decode f = .ok i) (hop : i.opcode ≠ 2 ∧ i.opcode ≠ 9)
    (hparts : ∀ p ∈ i.parts, p.LoopFree) : f.LoopFree := by
  intro q hq
  cases hq with
  | root =>
    rw [Instruction.opcode?_of_decode hdec]
    simpa using hop
  | part hdec' hp hq =>
    cases hdec.symm.trans hdec'
    exact hparts _ hp q hq

end Noun.LoopFree

namespace Recursion

variable {keep : Bool} {bound : Nat} {f : Noun}

theorem eval_tailFormula_ne_tooDeep (bound : Nat) (s : Noun) :
    (eval keep (bound + 1) s tailFormula).ending ≠ .tooDeep := by
  show (Outcome.ofOption keep _ (Noun.findAt? 3 s)).ending ≠ .tooDeep
  cases Noun.findAt? 3 s <;> exact Ending.noConfusion

theorem eval_ne_tooDeep (hf : f.LoopFree) (hdepth : f.depth < bound) (s : Noun) :
    (eval keep bound s f).ending ≠ .tooDeep := by
  induction bound generalizing f s with
  | zero => exact absurd hdepth (Nat.not_lt_zero _)
  | succ bound ih =>
    rw [eval_succ]
    cases hdec : Instruction.decode f with
    | error r =>
      rw [Scheme.rule, hdec]
      exact Ending.noConfusion
    | ok i =>
      refine Scheme.rule_of_parts (P := fun o : Outcome => o.ending ≠ .tooDeep) (fun v => Ending.noConfusion)
        (fun r => Ending.noConfusion) Outcome.ending_andThen_ne hdec (hf.opcode_ne hdec).1
        (hf.opcode_ne hdec).2 ?part ?tail s
      case part =>
        intro p hp s
        have hlt := Instruction.depth_lt_of_mem_parts hdec hp
        exact ih (hf.part hdec hp) (by omega) s
      case tail =>
        -- the formula is a cell, so its depth leaves room for one more evaluation
        intro s
        have hpos := Instruction.depth_pos_of_decode hdec
        cases bound with
        | zero => omega
        | succ bound => exact eval_tailFormula_ne_tooDeep bound s

/-- A formula without loops ends on every subject: the machine halts, and the recursive engine returns
the same under every bound above the depth of the formula. -/
theorem loopFree_returns (keep : Bool) (s f : Noun) (hf : f.LoopFree) :
    ∃ (r : Option Noun) (l : Log),
      (∃ n, Machine.run keep n (Machine.initial s f) = ⟨.halt r, l⟩) ∧
      ∀ bounds : Bounds, f.measure.depth + 1 ≤ bounds.nesting →
        (Engine.recursive.reduce bounds keep s f).toAnswer = ⟨.ok r, l⟩ := by
  rw [Noun.measure_eq]
  have hdone : (eval keep (f.depth + 1) s f).ending ≠ .tooDeep := eval_ne_tooDeep hf (Nat.lt_succ_self _) s
  obtain ⟨r, l, hr⟩ := exists_returned hdone
  refine ⟨r, l, Machine.halts_of_returned hr, fun bounds hbounds => ?_⟩
  rw [Engine.reduce, eval_stable hdone hbounds]
  exact Outcome.toAnswer_of_returned hr

/-- Opcode 11 with a hint `[0 4 0 1]`, whose product is put in front of 7 and taken off again. -/
def hintedPush : Noun := .nest [11, .nest [0, 4, 0] 1, 8, .nest [1] 7, 0] 2

theorem hintedPush_loopFree : hintedPush.LoopFree := by
  have hlookup (axis : Noun) : (Noun.cell 0 axis).LoopFree :=
    .of_parts (i := .lookup axis) rfl (by simp [Instruction.opcode]) (by simp [Instruction.parts])
  have hquote : (Noun.cell 1 7).LoopFree :=
    .of_parts (i := .quote 7) rfl (by decide) (by simp [Instruction.parts])
  have hhint : (Noun.cell 4 (.cell 0 1)).LoopFree :=
    .of_parts (i := .increment _) rfl (by decide) (by simpa [Instruction.parts] using hlookup 1)
  have hpush : (Noun.cell 8 (.cell (.cell 1 7) (.cell 0 2))).LoopFree :=
    .of_parts (i := .push _ _) rfl (by decide) (by simpa [Instruction.parts] using ⟨hquote, hlookup 2⟩)
  exact .of_parts (i := .dynamicHint _ _) rfl (by decide)
    (by simpa [Instruction.parts] using ⟨hhint, hpush⟩)

theorem hintedPush_returns : hintedPush.LoopFree ∧ hintedPush.measure.depth + 1 = 6 ∧
    ∃ (r : Option Noun) (l : Log),
      (∃ n, Machine.run true n (Machine.initial 5 hintedPush) = ⟨.halt r, l⟩) ∧
      (Engine.recursive.reduce ⟨0, 6⟩ true 5 hintedPush).toAnswer = ⟨.ok r, l⟩ := by
  have hdepth : hintedPush.measure.depth + 1 = 6 := by
    rw [Noun.measure_eq]
    rfl
  obtain ⟨r, l, hhalts, hreturns⟩ := loopFree_returns true 5 hintedPush hintedPush_loopFree
  exact ⟨hintedPush_loopFree, hdepth, r, l, hhalts, hreturns ⟨0, 6⟩ hdepth.le⟩

end Recursion

end Nock

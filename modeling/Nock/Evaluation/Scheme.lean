import Nock.Axis
import Nock.Evaluation.Instruction
import Nock.Primitive

/-!
# The rules of reduction, whatever evaluates them

An evaluation is made of products, crashes and chains, and how these are given is a `Scheme`. `rule` is
one evaluation in terms of a scheme and of the evaluations that it calls, and what relates the parts of
two schemes relates their evaluations (`rule_related`).
-/

namespace Nock

/-- How evaluations give a noun, crash and go on. -/
structure Scheme (α : Type) where
  product : Noun → α
  crash : Report → α
  andThen : α → (Noun → α) → α

namespace Scheme

variable {α β : Type}

def ofOption (k : Scheme α) (r : Report) : Option Noun → α
  | some v => k.product v
  | none => k.crash r

/-- One evaluation, where `call` makes the ones inside it. -/
def rule (k : Scheme α) (call : Noun → Noun → α) (s f : Noun) : α :=
  match Instruction.decode f with
  | .error r => k.crash r
  | .ok (.lookup axis) => k.ofOption (.axisMissing axis) (axis.findAt? s)
  | .ok (.quote value) => k.product value
  | .ok (.reduce b c) =>
    k.andThen (call s b) fun x => k.andThen (call s c) fun y => call x y
  | .ok (.cellTest b) => k.andThen (call s b) fun v => k.product v.cellTest
  | .ok (.increment b) =>
    k.andThen (call s b) fun v => k.ofOption .notIncrementable v.increment?
  | .ok (.equal b c) =>
    k.andThen (call s b) fun u => k.andThen (call s c) fun v => k.product (u.equalTest v)
  | .ok (.branch b c d) =>
    k.andThen (call s b) fun test =>
      match test with
      | .atom 0 => call s c
      | .atom 1 => call s d
      | _ => k.crash (.badTest test)
  | .ok (.compose b c) => k.andThen (call s b) fun x => call x c
  | .ok (.push b c) => k.andThen (call s b) fun x => call (.cell x s) c
  | .ok (.invoke axis c) =>
    k.andThen (call s c) fun core =>
      match axis.findAt? core with
      | some arm => call core arm
      | none => k.crash (.armMissing axis)
  | .ok (.edit axis c d) =>
    k.andThen (call s c) fun u => k.andThen (call s d) fun v =>
      k.ofOption (.notEditable axis) (axis.replaceAt? u v)
  | .ok (.staticHint c) => call s c
  | .ok (.dynamicHint c d) =>
    k.andThen (call s c) fun u => k.andThen (call s d) fun v => call (.cell u v) tailFormula

/-- Evaluations under two schemes are related if products, crashes and chains of related ones are. -/
theorem rule_related {k : Scheme α} {k' : Scheme β} {R : α → β → Prop} {call : Noun → Noun → α}
    {call' : Noun → Noun → β} (product : ∀ v, R (k.product v) (k'.product v))
    (crash : ∀ r, R (k.crash r) (k'.crash r))
    (andThen : ∀ {a b next next'}, R a b → (∀ v, R (next v) (next' v)) →
      R (k.andThen a next) (k'.andThen b next'))
    (ih : ∀ s f, R (call s f) (call' s f)) (s f : Noun) :
    R (k.rule call s f) (k'.rule call' s f) := by
  have option (r : Report) (v? : Option Noun) : R (k.ofOption r v?) (k'.ofOption r v?) := by
    cases v? with
    | none => exact crash r
    | some v => exact product v
  unfold rule
  cases Instruction.decode f with
  | error r => exact crash r
  | ok i =>
    cases i with
    | lookup axis => exact option ..
    | quote value => exact product value
    | reduce b c => exact andThen (ih s b) fun x => andThen (ih s c) fun y => ih x y
    | cellTest b => exact andThen (ih s b) fun _ => product _
    | increment b => exact andThen (ih s b) fun _ => option ..
    | equal b c => exact andThen (ih s b) fun _ => andThen (ih s c) fun _ => product _
    | branch b c d =>
      refine andThen (ih s b) fun test => ?_
      split
      · exact ih s c
      · exact ih s d
      · exact crash _
    | compose b c => exact andThen (ih s b) fun x => ih x c
    | push b c => exact andThen (ih s b) fun x => ih (.cell x s) c
    | invoke axis c =>
      refine andThen (ih s c) fun core => ?_
      split
      · next arm _ => exact ih core arm
      · exact crash _
    | edit axis c d => exact andThen (ih s c) fun _ => andThen (ih s d) fun _ => option ..
    | staticHint c => exact ih s c
    | dynamicHint c d =>
      exact andThen (ih s c) fun u => andThen (ih s d) fun v => ih (.cell u v) tailFormula

/-- Families of evaluations, one for each index. -/
def pi {ι : Type} (k : Scheme α) : Scheme (ι → α) where
  product v _ := k.product v
  crash r _ := k.crash r
  andThen a next i := k.andThen (a i) fun v => next v i

theorem rule_pi {ι : Type} (k : Scheme α) (call : Noun → Noun → ι → α) (s f : Noun) (i : ι) :
    k.pi.rule call s f i = k.rule (fun s f => call s f i) s f := by
  refine rule_related (k := k.pi) (R := fun a b => a i = b) (fun _ => rfl) (fun _ => rfl) ?_
    (fun _ _ => rfl) s f
  intro a b next next' h hnext
  show k.andThen (a i) (fun v => next v i) = _
  rw [h, funext hnext]

end Scheme

end Nock

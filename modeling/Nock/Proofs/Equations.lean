import Nock.Proofs.Machine.Context
import Nock.Proofs.Table

/-!
# Equations between opcodes

Opcodes 6, 7, 9 and 11 are told in terms of the others (`opcode_equations`). The machine gives two
formulas the same outcome if the unbounded engine evaluates them alike (`SameOutcome.of_eval`), and what
it makes of a formula is the denotation of its row. So an equation is proved by unfolding both sides to
chains of evaluations, which are then equal by the laws of chains, whether a link crashes, runs for ever
or gives a noun. Reports are left out: an arm that is missing is reported as another thing than a missing
axis.
-/

namespace Nock

open Noun (reduceUnbounded)

/-- The machine halts with the same noun on both formulas, crashes on both or runs for ever on both. -/
def Machine.SameOutcome (keep : Bool) (s f g : Noun) : Prop :=
  ∀ r : Option Noun, Halts keep s f r ↔ Halts keep s g r

theorem Machine.SameOutcome.of_eval {keep : Bool} {s f g : Noun}
    (h : reduceUnbounded false s f = reduceUnbounded false s g) : SameOutcome keep s f g := by
  intro r
  refine (Table.run_halts_iff_reduces keep).trans (.trans ?_ (Table.run_halts_iff_reduces keep).symm)
  rw [← Table.reduceUnbounded_iff_reduces, ← Table.reduceUnbounded_iff_reduces, h]

namespace Table

variable (s b c d : Noun)

/-! ### Rows as chains -/

theorem reduceUnbounded_quote : reduceUnbounded false s (.cell 1 c) = (pure c : Run Noun) :=
  reduceUnbounded_eq_denote s _

theorem reduceUnbounded_self : reduceUnbounded false s (.cell 0 1) = (pure s : Run Noun) :=
  reduceUnbounded_lookup s 1

theorem reduceUnbounded_tail : reduceUnbounded false (.cell b s) (.cell 0 3) = (pure s : Run Noun) :=
  reduceUnbounded_lookup _ 3

theorem reduceUnbounded_reduce : reduceUnbounded false s (.cell 2 (.cell b c)) = (do
    let x ← reduceUnbounded false s b
    let y ← reduceUnbounded false s c
    reduceUnbounded false x y : Run Noun) := by
  refine (reduceUnbounded_eq_denote s (.cell (.atom 2) _)).trans ?_
  simp only [row, Term.denote, pure_bind, bind_assoc]

theorem reduceUnbounded_branch : reduceUnbounded false s (.cell 6 (.cell b (.cell c d))) = (do
    match ← reduceUnbounded false s b with
    | .atom 0 => reduceUnbounded false s c
    | .atom 1 => reduceUnbounded false s d
    | _ => failure : Run Noun) :=
  reduceUnbounded_eq_denote s _

theorem reduceUnbounded_compose : reduceUnbounded false s (.cell 7 (.cell b c)) = (do
    let x ← reduceUnbounded false s b
    reduceUnbounded false x c : Run Noun) := by
  refine (reduceUnbounded_eq_denote s (.cell (.atom 7) _)).trans ?_
  simp only [row, Term.denote, pure_bind, bind_assoc]

theorem reduceUnbounded_push : reduceUnbounded false s (.cell 8 (.cell b c)) = (do
    let x ← reduceUnbounded false s b
    reduceUnbounded false (.cell x s) c : Run Noun) := by
  refine (reduceUnbounded_eq_denote s (.cell (.atom 8) _)).trans ?_
  simp only [row, Term.denote, pure_bind, bind_assoc]

theorem reduceUnbounded_dynamicHint :
    reduceUnbounded false s (.cell 11 (.cell (.cell b c) d)) = (do
      let _ ← reduceUnbounded false s c
      reduceUnbounded false s d : Run Noun) := by
  refine (reduceUnbounded_eq_denote s (.cell (.atom 11) _)).trans ?_
  simp only [row, Term.denote, pure_bind, bind_assoc, reduceUnbounded_tail, bind_pure]

/-! ### The equations -/

theorem compose_eq_reduce : reduceUnbounded false s (.cell 7 (.cell b c)) =
    reduceUnbounded false s (.cell 2 (.cell b (.cell 1 c))) := by
  rw [reduceUnbounded_compose, reduceUnbounded_reduce]
  simp only [reduceUnbounded_quote, pure_bind]

theorem invoke_eq_compose : reduceUnbounded false s (.cell 9 (.cell b c)) =
    reduceUnbounded false s (.cell 7 (.cell c (.cell 2 (.cell (.cell 0 1) (.cell 0 b))))) := by
  -- the row of opcode 9 already says so
  rw [reduceUnbounded_eq_denote, reduceUnbounded_eq_denote]
  rfl

theorem branch_eq_reduce : reduceUnbounded false s (.cell 6 (.cell b (.cell c d))) =
    reduceUnbounded false s (.cell 2 (.cell (.cell 0 1)
      (.cell 6 (.cell b (.cell (.cell 1 c) (.cell 1 d)))))) := by
  rw [reduceUnbounded_reduce, reduceUnbounded_branch, reduceUnbounded_branch]
  simp only [reduceUnbounded_self, reduceUnbounded_quote, pure_bind, bind_assoc]
  refine congrArg _ (funext fun test => ?_)
  split
  · rw [pure_bind]
  · rw [pure_bind]
  · rfl

/-- A dynamic hint is a product that is pushed and not looked at. -/
theorem dynamicHint_eq_push : reduceUnbounded false s (.cell 11 (.cell (.cell b c) d)) =
    reduceUnbounded false s (.cell 8 (.cell c (.cell 7 (.cell (.cell 0 3) d)))) := by
  rw [reduceUnbounded_dynamicHint, reduceUnbounded_push]
  simp only [reduceUnbounded_compose, reduceUnbounded_tail, pure_bind]

theorem staticHint_eq (h : Nat) : reduceUnbounded false s (.cell 11 (.cell (.atom h) c)) =
    reduceUnbounded false s c :=
  (reduceUnbounded_eq_denote s _).trans (pure_bind (Noun.cell s c) _)

end Table

/-- Composition, invocation, branches and hints are each the same as a formula of other opcodes, on every
subject and whatever their parts are, formulas or not. -/
theorem opcode_equations (keep : Bool) (s b c d : Noun) (h : Nat) :
    Machine.SameOutcome keep s (.cell 7 (.cell b c)) (.cell 2 (.cell b (.cell 1 c))) ∧
    Machine.SameOutcome keep s (.cell 9 (.cell b c))
      (.cell 7 (.cell c (.cell 2 (.cell (.cell 0 1) (.cell 0 b))))) ∧
    Machine.SameOutcome keep s (.cell 6 (.cell b (.cell c d)))
      (.cell 2 (.cell (.cell 0 1) (.cell 6 (.cell b (.cell (.cell 1 c) (.cell 1 d)))))) ∧
    Machine.SameOutcome keep s (.cell 11 (.cell (.cell b c) d))
      (.cell 8 (.cell c (.cell 7 (.cell (.cell 0 3) d)))) ∧
    Machine.SameOutcome keep s (.cell 11 (.cell (.atom h) c)) c :=
  ⟨.of_eval (Table.compose_eq_reduce s b c), .of_eval (Table.invoke_eq_compose s b c),
    .of_eval (Table.branch_eq_reduce s b c d), .of_eval (Table.dynamicHint_eq_push s b c d),
    .of_eval (Table.staticHint_eq s c h)⟩

end Nock

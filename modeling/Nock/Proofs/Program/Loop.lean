import Nock.Proofs.Machine.Space
import Nock.Program

/-!
# Rounds of the looping programs

Both programs push a counter and an arm in front of their subject and invoke the arm on this core. In
each round the arm tests the core, and either ends or is invoked again on an edited core. The test and
the edit need so many evaluations and no more, and every round finds the frames that the one before it
found. So a run of any length needs the frames of one round (`within_loop`).
-/

namespace Nock.Program

open Noun (nest)
open Machine (Within)
open Recursion (eval)

/-- What an arm is invoked on. -/
def core (arm : Noun) (counter : Nat) (s : Noun) : Noun := nest [arm, .atom counter] s

/-- An arm that tests its core, and then ends or goes on with an edited core. -/
def loopArm (test done edit : Noun) : Noun := nest [6, test, done, 9, 2] edit

/-- Makes a core of an arm, a counter at 0 and the subject, and invokes the arm. -/
def loop (arm : Noun) : Noun := nest [8, nest [1] 0, 8, nest [1] arm, 9, 2, 0] 1

/-- The parts of an arm keep to their bound, and the edit counts one up if it does not crash. -/
structure Bounded (keep : Bool) (bound : Nat) (test done edit : Noun) : Prop where
  test (arm : Noun) (c : Nat) (s : Noun) : (eval keep bound (core arm c s) test).ending ≠ .tooDeep
  done (arm : Noun) (c : Nat) (s : Noun) : (eval keep bound (core arm c s) done).ending ≠ .tooDeep
  edit (arm : Noun) (c : Nat) (s : Noun) :
    (eval keep bound (core arm c s) edit).ending = .crash ∨
      ∃ s', (eval keep bound (core arm c s) edit).ending = .product (core arm (c + 1) s')

namespace Bounded

variable {keep : Bool} {bound n c : Nat} {s arm test done edit : Noun}

theorem edit_done (h : Bounded keep bound test done edit) :
    (eval keep bound (core arm c s) edit).ending ≠ .tooDeep := by
  rcases h.edit arm c s with hcrash | ⟨s', hcore⟩
  · rw [hcrash]
    exact Ending.noConfusion
  · rw [hcore]
    exact Ending.noConfusion

/-- One round after the other, the arm finds no frames and leaves none. -/
theorem within_loopArm (h : Bounded keep bound test done edit) (log : Log) :
    Within keep bound n
      ⟨.reduce (core (loopArm test done edit) c s) (loopArm test done edit) [], log⟩ := by
  generalize harm : loopArm test done edit = arm
  induction n generalizing c s log with
  | zero => exact .zero (Nat.zero_le bound)
  | succ n ih =>
    refine .succ (Nat.zero_le bound) ?_
    have hstep : Machine.step keep ⟨.reduce (core arm c s) arm [], log⟩ =
        ⟨.reduce (core arm c s) test [.branch (core arm c s) done (nest [9, 2] edit)], log⟩ := by
      rw [← harm]
      rfl
    rw [hstep]
    refine .under (h.test arm c s) le_rfl fun v log _ => ?_
    obtain (_ | _ | a) | ⟨x, y⟩ := v
    · exact Machine.within_of_eval (h.done arm c s) (Nat.le_succ bound) n log
    · -- the arm goes on: it edits the core, and is the arm of the new core
      refine .of_step (Nat.zero_le bound) (.under h.edit_done le_rfl fun v log hv => ?_)
      rcases h.edit arm c s with hcrash | ⟨s', hcore⟩
      · cases hcrash.symm.trans hv
      · cases hcore.symm.trans hv
        exact ih log
    · exact .of_halted (Machine.halted_halt none _)
    · exact .of_halted (Machine.halted_halt none _)

theorem one_le (h : Bounded keep bound test done edit) : 1 ≤ bound := by
  refine Nat.one_le_iff_ne_zero.2 ?_
  rintro rfl
  exact h.test 0 0 0 rfl

theorem within_loop (h : Bounded keep bound test done edit) :
    Within keep bound n (Machine.initial s (loop (loopArm test done edit))) := by
  have hzero (s : Noun) : eval keep 1 s (nest [1] 0) = .product 0 := rfl
  have harm (s arm : Noun) : eval keep 1 s (nest [1] arm) = .product arm := rfl
  have hself (s : Noun) : eval keep 1 s (slot 1) = .product s := rfl
  -- the counter is pushed, then the arm, and then the arm is invoked on both and the subject
  refine .of_step (Nat.zero_le bound) (.under_product (hzero s) h.one_le fun log => ?_)
  refine .of_step (Nat.zero_le bound) (.under_product (harm _ _) h.one_le fun log => ?_)
  refine .of_step (Nat.zero_le bound) (.under_product (hself _) h.one_le fun log => ?_)
  exact h.within_loopArm log

end Bounded

theorem decrement_bounded (keep : Bool) :
    Bounded keep 3 (nest [5, slot 7, 4, 0] 6) (slot 6) (nest [10, nest [6, 4, 0] 6, 0] 1) where
  test _ _ _ := Ending.noConfusion
  done _ _ _ := Ending.noConfusion
  edit _ _ s := .inr ⟨s, rfl⟩

theorem add_bounded (keep : Bool) : Bounded keep 4 (nest [5, slot 6, 0] 15) (slot 14)
    (nest [10, nest [6, 4, 0] 6, 10, nest [14, 4, 0] 14, 0] 1) where
  test _ _ s := by
    cases s <;> exact Ending.noConfusion
  done _ _ s := by
    cases s <;> exact Ending.noConfusion
  edit _ _ s := by
    obtain _ | ⟨a | _, b⟩ := s
    · exact .inl rfl
    · exact .inr ⟨.cell (.atom (a + 1)) b, rfl⟩
    · exact .inl rfl

theorem within_decrement (keep : Bool) (n : Nat) (s : Noun) :
    Within keep 3 n (Machine.initial s decrement) :=
  (decrement_bounded keep).within_loop

theorem within_add (keep : Bool) (n : Nat) (s : Noun) : Within keep 4 n (Machine.initial s add) :=
  (add_bounded keep).within_loop

end Nock.Program

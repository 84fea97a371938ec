import Nock.Proofs.Machine.Ending
import Nock.Proofs.Program.Loop

/-!
# From round to round

A loop comes to its arm with the counter at 0 (`loop_reaches`). From there it goes through rounds, each of
which leads to the arm on the next core (`Round.step_reaches`), until the test of a round is 0. So what
the arm does on one core it does on those before it, and rounds without an end are a run without one.
-/

namespace Nock.Program

open Noun (nest)
open Machine (Halts Endless Reaches RunsFor TailCall initial)

variable {keep : Bool} {test done edit s s' : Noun} {c : Nat} {r : Option Noun}

/-- The test of the arm is 1 on its core, and the edit makes the core of the next round. -/
structure Round (keep : Bool) (test done edit : Noun) (c : Nat) (s s' : Noun) : Prop where
  test_one : Halts keep (core (loopArm test done edit) c s) test (some 1)
  edit_core : Halts keep (core (loopArm test done edit) c s) edit
    (some (core (loopArm test done edit) (c + 1) s'))

theorem loop_reaches (keep : Bool) (s arm : Noun) :
    Reaches keep (initial s (loop arm)) (initial (core arm 0 s) arm) := by
  -- the counter is pushed, then the arm, and then the arm is invoked on both and the subject
  have hzero : TailCall keep s (loop arm) (.cell 0 s) (nest [8, nest [1] arm, 9, 2, 0] 1) :=
    .push ⟨2, rfl⟩
  have harm : TailCall keep (.cell 0 s) (nest [8, nest [1] arm, 9, 2, 0] 1) (core arm 0 s)
      (nest [9, 2, 0] 1) := .push ⟨2, rfl⟩
  have hinvoke : TailCall keep (core arm 0 s) (nest [9, 2, 0] 1) (core arm 0 s) arm :=
    .invoke ⟨2, rfl⟩ rfl
  exact ((hzero.reaches [] []).trans (harm.reaches [] [])).trans (hinvoke.reaches [] [])

theorem halts_of_test_zero (htest : Halts keep (core (loopArm test done edit) c s) test (some 0))
    (hdone : Halts keep (core (loopArm test done edit) c s) done r) :
    Halts keep (core (loopArm test done edit) c s) (loopArm test done edit) r :=
  (TailCall.branchYes htest).halts hdone

theorem halts_of_test_one (htest : Halts keep (core (loopArm test done edit) c s) test (some 1))
    (hnext : Halts keep (core (loopArm test done edit) c s) (nest [9, 2] edit) r) :
    Halts keep (core (loopArm test done edit) c s) (loopArm test done edit) r :=
  (TailCall.branchNo htest).halts hnext

namespace Round

theorem step_reaches (h : Round keep test done edit c s s') :
    Reaches keep
      (Machine.step keep (initial (core (loopArm test done edit) c s) (loopArm test done edit)))
      (initial (core (loopArm test done edit) (c + 1) s') (loopArm test done edit)) := by
  have hbranch : TailCall keep (core (loopArm test done edit) c s) (loopArm test done edit)
      (core (loopArm test done edit) c s) (nest [9, 2] edit) := .branchNo h.test_one
  have hinvoke : TailCall keep (core (loopArm test done edit) c s) (nest [9, 2] edit)
      (core (loopArm test done edit) (c + 1) s') (loopArm test done edit) := .invoke h.edit_core rfl
  exact (hbranch.step_reaches [] []).trans (hinvoke.reaches [] [])

theorem halts (h : Round keep test done edit c s s')
    (h' : Halts keep (core (loopArm test done edit) (c + 1) s') (loopArm test done edit) r) :
    Halts keep (core (loopArm test done edit) c s) (loopArm test done edit) r :=
  h'.of_reaches h.step_reaches.step

end Round

/-- A loop runs for ever if each of its states is followed by another one. -/
theorem endless_of_rounds {P : Nat → Noun → Prop}
    (h : ∀ c s, P c s → ∃ s', Round keep test done edit c s s' ∧ P (c + 1) s') (hs : P c s) :
    Endless keep (core (loopArm test done edit) c s) (loopArm test done edit) := by
  intro n
  induction n generalizing c s with
  | zero => exact Machine.not_halted_reduce _ _ _ _
  | succ n ih =>
    obtain ⟨s', hround, hs'⟩ := h c s hs
    exact .of_step (.of_reaches hround.step_reaches (ih hs'))

end Nock.Program

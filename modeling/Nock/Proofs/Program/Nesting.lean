import Nock.Proofs.Program.Round
import Nock.Proofs.Recursion.Nesting

/-!
# How deep the programs nest

A round of a loop is a branch and, in tail position, an invocation, so it nests two deeper than the next one.
The deepest evaluation stands in the test of the last round, where the loop of the number before `n` is at
depth `2 * n + 2` (`decrementLoop_nests`), with three evaluations around it that make the core. A chain of
increments is one deeper than their number.
-/

namespace Nock

theorem Recursion.Nests.halts {keep : Bool} {s f v : Noun} {d : Nat} (h : Nests keep s f d v) :
    Machine.Halts keep s f (some v) :=
  .of_eval d (congrArg Outcome.ending (h.eval_eq_product le_rfl))

namespace Program

open Noun (nest)
open Recursion (Nests)

/-- Whether the number behind the counter is the subject. -/
def decrementTest : Noun := nest [5, slot 7, 4, 0] 6

/-- The core with the counter one higher. -/
def decrementEdit : Noun := nest [10, nest [6, 4, 0] 6, 0] 1

def decrementLoop : Noun := loopArm decrementTest (slot 6) decrementEdit

variable {keep : Bool} {s v : Noun} {d : Nat}

/-- A loop nests three deeper than its arm on the first core. -/
theorem loop_nests {arm : Noun} (h : Nests keep (core arm 0 s) arm (d + 1) v) :
    Nests keep s (loop arm) (d + 4) v := by
  have hself : Nests keep (core arm 0 s) (slot 1) 1 (core arm 0 s) := .lookup rfl
  have hinvoke : Nests keep (core arm 0 s) (nest [9, 2, 0] 1) (d + 2) v := by
    have harm : Noun.findAt? 2 (core arm 0 s) = some arm := rfl
    have hcall := hself.invoke harm h
    rwa [Nat.max_eq_right (Nat.le_add_left 1 d)] at hcall
  have harm := Nests.push (.quote (v := arm)) hinvoke
  rw [Nat.max_eq_right (Nat.le_add_left 1 (d + 1))] at harm
  have hzero := Nests.push (.quote (v := 0)) harm
  rwa [Nat.max_eq_right (Nat.le_add_left 1 (d + 2))] at hzero

theorem decrementTest_nests (keep : Bool) (arm : Noun) (c : Nat) (s : Noun) :
    Nests keep (core arm c s) decrementTest 3 (s.equalTest (.atom (c + 1))) := by
  have hsubject : Nests keep (core arm c s) (slot 7) 1 s := .lookup rfl
  have hcounter : Nests keep (core arm c s) (slot 6) 1 (.atom c) := .lookup rfl
  exact hsubject.equal hcounter.increment

theorem decrementEdit_nests (keep : Bool) (arm : Noun) (c : Nat) (s : Noun) :
    Nests keep (core arm c s) decrementEdit 3 (core arm (c + 1) s) := by
  have hcounter : Nests keep (core arm c s) (slot 6) 1 (.atom c) := .lookup rfl
  have hself : Nests keep (core arm c s) (slot 1) 1 (core arm c s) := .lookup rfl
  exact hcounter.increment.edit hself rfl

/-- With `d` rounds to go, the loop counts up by `d`, and each round nests two deeper. -/
theorem decrementLoop_nests (keep : Bool) (d c : Nat) :
    Nests keep (core decrementLoop c (.atom (c + d + 1))) decrementLoop (2 * d + 4) (.atom (c + d)) := by
  induction d generalizing c with
  | zero =>
    have htest := decrementTest_nests keep decrementLoop c (.atom (c + 1))
    rw [Noun.equalTest_self] at htest
    have hcounter : Nests keep (core decrementLoop c (.atom (c + 1))) (slot 6) 1 (.atom c) := .lookup rfl
    exact htest.branchYes hcounter
  | succ d ih =>
    have hne : Noun.atom (c + (d + 1) + 1) ≠ .atom (c + 1) := by
      intro h
      have := Noun.atom.inj h
      omega
    have htest := decrementTest_nests keep decrementLoop c (.atom (c + (d + 1) + 1))
    rw [Noun.equalTest_of_ne hne] at htest
    have hnext := ih (c + 1)
    rw [show c + 1 + d = c + (d + 1) by omega] at hnext
    have harm : Noun.findAt? 2 (core decrementLoop (c + 1) (.atom (c + (d + 1) + 1))) = some decrementLoop :=
      rfl
    have hinvoke := (decrementEdit_nests keep decrementLoop c _).invoke harm hnext
    have hround := htest.branchNo (e := slot 6) hinvoke
    -- the rounds behind this one nest deeper than its test and its edit
    rwa [Nat.max_eq_right (by omega : 3 ≤ 2 * d + 4), Nat.max_eq_right (by omega : 3 ≤ 2 * d + 4 + 1)]
      at hround

theorem decrement_nests (keep : Bool) (n : Nat) :
    Nests keep (.atom (n + 1)) decrement (2 * (n + 1) + 5) (.atom n) := by
  have h := decrementLoop_nests keep n 0
  rw [Nat.zero_add] at h
  exact loop_nests h

theorem incrementChain_nests (keep : Bool) (n k : Nat) :
    Nests keep (.atom k) (incrementChain n) (n + 1) (.atom (k + n)) := by
  induction n with
  | zero => exact .lookup rfl
  | succ n ih => exact ih.increment

end Program

end Nock

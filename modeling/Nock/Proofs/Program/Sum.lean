import Nock.Proofs.Program.Round

/-!
# What the program that adds gives

The program counts from 0 up to the second half of its subject, and counts the first half up as often.
It looks at the first half only when it counts it up, so any noun is given back if the second half is 0,
and a cell cannot be counted up otherwise. A counter never comes to a cell, so with a cell as second half
the program goes on for ever.
-/

namespace Nock.Program

open Noun (nest)
open Machine (Halts Endless)

/-- Whether the counter is the second half of the subject. -/
def addTest : Noun := nest [5, slot 6, 0] 15

/-- The core with the counter and the first half of the subject one higher. -/
def addEdit : Noun := nest [10, nest [6, 4, 0] 6, 10, nest [14, 4, 0] 14, 0] 1

def addLoop : Noun := loopArm addTest (slot 14) addEdit

variable {keep : Bool} {a b : Noun} {c m n : Nat} {r : Option Noun}

theorem add_halts_of_addLoop (h : Halts keep (core addLoop 0 (.cell a b)) addLoop r) :
    Halts keep (.cell a b) add r :=
  h.of_reaches (loop_reaches keep (.cell a b) addLoop)

theorem halts_addTest (keep : Bool) (c : Nat) (a b : Noun) :
    Halts keep (core addLoop c (.cell a b)) addTest (some ((Noun.atom c).equalTest b)) :=
  .of_eval 2 rfl

theorem halts_addTest_zero (keep : Bool) (c : Nat) (a : Noun) :
    Halts keep (core addLoop c (.cell a (.atom c))) addTest (some 0) := by
  have h := halts_addTest keep c a (.atom c)
  rwa [Noun.equalTest_self] at h

theorem halts_addTest_one (a : Noun) (hb : .atom c ≠ b) :
    Halts keep (core addLoop c (.cell a b)) addTest (some 1) := by
  have h := halts_addTest keep c a b
  rwa [Noun.equalTest_of_ne hb] at h

/-- The loop ends with the first half as it is counted so far. -/
theorem addLoop_halts_of_eq (keep : Bool) (c : Nat) (a : Noun) :
    Halts keep (core addLoop c (.cell a (.atom c))) addLoop (some a) :=
  halts_of_test_zero (halts_addTest_zero keep c a) (.of_eval 1 rfl)

theorem addLoop_round (m : Nat) (hb : .atom c ≠ b) :
    Round keep addTest (slot 14) addEdit c (.cell (.atom m) b) (.cell (.atom (m + 1)) b) where
  test_one := halts_addTest_one (.atom m) hb
  edit_core := .of_eval 4 rfl

/-- With `d` rounds to go, the loop counts the first half up by `d`. -/
theorem addLoop_halts (keep : Bool) (d c m : Nat) :
    Halts keep (core addLoop c (.cell (.atom m) (.atom (c + d)))) addLoop (some (.atom (m + d))) := by
  induction d generalizing c m with
  | zero => exact addLoop_halts_of_eq keep c (.atom m)
  | succ d ih =>
    have hne : Noun.atom c ≠ .atom (c + (d + 1)) := by
      intro h
      have := Noun.atom.inj h
      omega
    have hrest := ih (c + 1) (m + 1)
    rw [show c + 1 + d = c + (d + 1) by omega, show m + 1 + d = m + (d + 1) by omega] at hrest
    exact (addLoop_round m hne).halts hrest

/-- A cell cannot be counted up. -/
theorem addLoop_crashes (h t : Noun) (hb : .atom c ≠ b) :
    Halts keep (core addLoop c (.cell (.cell h t) b)) addLoop none :=
  halts_of_test_one (halts_addTest_one _ hb) (.of_eval 5 rfl)

/-- No counter is a cell, so every round is followed by another one. -/
theorem addLoop_endless (keep : Bool) (c m : Nat) (h t : Noun) :
    Endless keep (core addLoop c (.cell (.atom m) (.cell h t))) addLoop := by
  refine endless_of_rounds (P := fun _ s => ∃ m, s = .cell (.atom m) (.cell h t)) ?_ ⟨m, rfl⟩
  rintro c _ ⟨m, rfl⟩
  exact ⟨_, addLoop_round m Noun.noConfusion, m + 1, rfl⟩

theorem add_crashes_on_atom (keep : Bool) (k : Nat) : Halts keep (.atom k) add none :=
  .of_eval 7 rfl

/-- On a pair, the program gives the first half if the second one is 0, the sum of two atoms, no end if
it is to count an atom up to a cell, and a crash if it is to count a cell up; it crashes on an atom. -/
theorem add_on_every_subject (settings : Settings) :
    (∀ a : Noun, StackReturns settings (.cell (.cell a 0) add) (some a)) ∧
    (∀ m n : Nat, StackReturns settings (.cell (.cell (.atom m) (.atom n)) add)
      (some (.atom (m + n)))) ∧
    (∀ (m : Nat) (h t : Noun), StackRunsForever settings (.cell (.cell (.atom m) (.cell h t)) add)) ∧
    (∀ h t b : Noun, b ≠ 0 → StackReturns settings (.cell (.cell (.cell h t) b) add) none) ∧
    ∀ k : Nat, StackReturns settings (.cell (.atom k) add) none := by
  refine ⟨fun a => ?_, fun m n => ?_, fun m h t => ?_, fun h t b hb => ?_, fun k => ?_⟩
  · exact .of_halts (add_halts_of_addLoop (addLoop_halts_of_eq _ 0 a))
  · have h := addLoop_halts settings.keepReports n 0 m
    rw [Nat.zero_add] at h
    exact .of_halts (add_halts_of_addLoop h)
  · exact .of_endless ((addLoop_endless _ 0 m h t).of_reaches (loop_reaches _ _ addLoop))
  · exact .of_halts (add_halts_of_addLoop (addLoop_crashes h t hb.symm))
  · exact .of_halts (add_crashes_on_atom _ k)

theorem add_cell_crashes :
    (2 : Noun) ≠ 0 ∧ StackReturns {} (.cell (.cell (.cell 3 4) 2) add) none := by
  have h : (2 : Noun) ≠ 0 := by decide
  exact ⟨h, (add_on_every_subject {}).2.2.2.1 3 4 2 h⟩

end Nock.Program

import Nock.Proofs.Program.Nesting

/-!
# What the program that finds the number before its subject gives

The program counts up from 0 until the next number is its subject. Every number above 0 is the next one of
some counter. No counter comes before 0 or before a cell, and the counter is an atom in every round, so
neither the test nor the edit of a round can crash: the program goes on for ever.
-/

namespace Nock.Program

open Machine (Halts Endless)

variable {keep : Bool} {s : Noun} {c : Nat}

theorem decrementLoop_round (keep : Bool) (h : s ≠ .atom (c + 1)) :
    Round keep decrementTest (slot 6) decrementEdit c s s where
  test_one := by
    have htest := (decrementTest_nests keep decrementLoop c s).halts
    rwa [Noun.equalTest_of_ne h] at htest
  edit_core := (decrementEdit_nests keep decrementLoop c s).halts

theorem decrement_endless (keep : Bool) (h : ∀ c, s ≠ .atom (c + 1)) : Endless keep s decrement := by
  have hloop : Endless keep (core decrementLoop 0 s) decrementLoop := by
    refine endless_of_rounds (P := fun _ s' => s' = s) ?_ rfl
    rintro c s' rfl
    exact ⟨s', decrementLoop_round keep (h c), rfl⟩
  exact hloop.of_reaches (loop_reaches keep s decrementLoop)

/-- The program gives the number before a number above 0, and runs for ever on 0 and on every cell. -/
theorem decrement_on_every_subject (settings : Settings) :
    (∀ n : Nat, StackReturns settings (.cell (.atom (n + 1)) decrement) (some (.atom n))) ∧
    StackRunsForever settings (.cell 0 decrement) ∧
    ∀ h t : Noun, StackRunsForever settings (.cell (.cell h t) decrement) := by
  refine ⟨fun n => ?_, ?_, fun h t => ?_⟩
  · exact .of_halts (decrement_nests settings.keepReports n).halts
  · refine .of_endless (decrement_endless settings.keepReports fun c hc => ?_)
    cases hc
  · exact .of_endless (decrement_endless settings.keepReports fun c => Noun.noConfusion)

end Nock.Program

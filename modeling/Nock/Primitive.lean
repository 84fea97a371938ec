import Nock.Noun.Equal

/-!
# Primitive operators

The three operators on nouns that are neither addressing nor control. Truth is 0 and falsehood 1.
-/

namespace Nock.Noun

/-- The atom for a truth value. -/
def ofBool (b : Bool) : Noun := if b then 0 else 1

/-- Gives 0 for a cell and 1 for an atom. -/
def cellTest (n : Noun) : Noun := ofBool n.isCell

def increment? : Noun → Option Noun
  | atom n => some (atom (n + 1))
  | cell _ _ => none

/-- Gives 0 for equal nouns and 1 for others. -/
def equalTest (a b : Noun) : Noun := ofBool (decide (a = b))

theorem equalTest_eq (a b : Noun) : a.equalTest b = if a = b then 0 else 1 := by
  simp [equalTest, ofBool]

end Nock.Noun

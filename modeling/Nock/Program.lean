import Nock.Noun.Basic

/-!
# Programs

Formulas with loops. Each loop makes a core of the arm, a counter and the subject, and invokes the
arm again with the counter one higher until a test ends it.
-/

namespace Nock.Program

open Noun (nest)

/-- The tree at an axis. -/
def slot (axis : Nat) : Noun := nest [0] (.atom axis)

/-- The arm of `decrement`, in a core of the arm, a counter and the subject: the counter if the next
number is the subject, and the same arm with the next number as counter otherwise. -/
def decrementArm : Noun :=
  nest [6, nest [5, slot 7, 4, 0] 6, slot 6, 9, 2, 10, nest [6, 4, 0] 6, 0] 1

/-- The number before the subject. Counts from 0, for ever if the subject is 0. -/
def decrement : Noun := nest [8, nest [1] 0, 8, nest [1] decrementArm, 9, 2, 0] 1

/-- The arm of `add`, in a core of the arm, a counter and the two numbers: the first number if the
counter is the second, and the same arm with both counter and first number one higher otherwise. -/
def addArm : Noun :=
  nest [6, nest [5, slot 6, 0] 15, slot 14, 9, 2, 10, nest [6, 4, 0] 6, 10, nest [14, 4, 0] 14, 0] 1

/-- The sum of the two halves of the subject. -/
def add : Noun := nest [8, nest [1] 0, 8, nest [1] addArm, 9, 2, 0] 1

/-- The subject, incremented so many times. -/
def incrementChain (count : Nat) : Noun := count.repeat (.cell 4) (slot 1)

end Nock.Program

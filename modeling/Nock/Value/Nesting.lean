import Nock.Error
import Nock.Noun.Measure
import Nock.Value.Basic

/-!
# Nesting

Sequences are printed, compared and copied level by level, each level inside the one above it, and there
is room for some levels only; what is nested deeper is refused. A noun is printed and compared however
deep it is, but copied like all else.
-/

namespace Nock.Value

/-- How many levels there is room for. -/
def room : Nat := 985

/-- How many levels of room a part takes up. -/
structure Weights where
  list : Nat
  tuple : Nat
  cell : Nat

/-- What a look at every sequence takes up. -/
def Weights.visit : Weights := ⟨1, 1, 0⟩

/-- What a copy takes up. -/
def Weights.copy : Weights := ⟨2, 3, 3⟩

mutual

/-- How many levels a value takes up. -/
def nesting (w : Weights) : Value → Nat
  | list items => w.list + deepest w 0 items
  | tuple items => w.tuple + deepest w 0 items
  | cell h t => if w.cell = 0 then 0 else w.cell * (Noun.cell h t).measure.depth
  | _ => 0

/-- How many levels the deepest of some values takes up, or `most` if that is more. -/
def deepest (w : Weights) (most : Nat) : List Value → Nat
  | [] => most
  | item :: items => deepest w (max most (nesting w item)) items

end

def fits (w : Weights) (v : Value) : Bool := v.nesting w ≤ room

theorem fits_ofNoun (n : Noun) : (ofNoun n).fits .visit = true := by
  cases n <;> simp [ofNoun, fits, nesting, Weights.visit]

def copied (v : Value) : Except Error Value :=
  if v.fits .copy then .ok v else .error (.unexplained .recursion)

end Nock.Value

import Nock.Noun.Basic
import Nock.Tensor.ElementType

/-!
# Values

What a caller may hand over: nouns, crashes, and data that is no noun, some of which converts into
one. Only a whole number that is not negative and a cell are nouns; a truth value, a number of an
array and a whole number below zero are not.
-/

namespace Nock

inductive Value where
  | int (i : Int)
  | bool (b : Bool)
  | null
  | text (s : String)
  | number (x : Binary)
  | list (items : List Value)
  | tuple (items : List Value)
  /-- A table without entries. -/
  | dict
  | scalar (s : Scalar)
  | crash
  | cell (head tail : Noun)
deriving Inhabited

namespace Value

def typeName : Value → String
  | int _ => "int"
  | bool _ => "bool"
  | null => "NoneType"
  | text _ => "str"
  | number _ => "float"
  | list _ => "list"
  | tuple _ => "tuple"
  | dict => "dict"
  | scalar s => s.type.name
  | crash => "Crash"
  | cell _ _ => "Cell"

def ofNoun : Noun → Value
  | .atom n => int n
  | .cell h t => cell h t

/-- The product of an evaluation, or a crash. -/
def ofResult : Option Noun → Value
  | some n => ofNoun n
  | none => crash

/-- The noun that a value is. -/
def toNoun? : Value → Option Noun
  | int (.ofNat n) => some (.atom n)
  | cell h t => some (.cell h t)
  | _ => none

@[simp] theorem toNoun?_ofNoun (n : Noun) : (ofNoun n).toNoun? = some n := by
  cases n <;> rfl

def items? : Value → Option (List Value)
  | list items => some items
  | tuple items => some items
  | _ => none

def isAtom : Value → Bool
  | int i => 0 ≤ i
  | _ => false

def isCell : Value → Bool
  | cell _ _ => true
  | _ => false

def isCrash : Value → Bool
  | crash => true
  | _ => false

end Value

end Nock

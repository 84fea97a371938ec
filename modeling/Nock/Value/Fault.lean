import Nock.Value.Convert

/-!
# Faults of values

Why a value does not convert, told of its parts one at a time. A part is named by the indices that lead to it
from the root, and cells have no parts. A sequence is at fault if it is too short, and what is neither a
sequence nor a cell if it is no whole number, or one below zero. Depth first and from left to right is the
lexicographic order of the indices, where a sequence comes before its items.
-/

namespace Nock.Value

/-- The whole number that a value is. A truth value is none, and neither is an element below a byte. -/
def integer? : Value → Option Int
  | int i => some i
  | scalar (.whole t i) => if t.isInteger && !t.isSmall then some i else none
  | _ => none

mutual

/-- The noun that a value converts to, by recursion: a cell is itself, a whole number from zero on an atom, and
two or more items in a sequence make the right-nested cell of their nouns. -/
def converted? : Value → Option Noun
  | list items => (convertedAll? items).bind Noun.ofList?
  | tuple items => (convertedAll? items).bind Noun.ofList?
  | cell h t => some (.cell h t)
  | v =>
    match v.integer? with
    | some (.ofNat n) => some (.atom n)
    | _ => none

def convertedAll? : List Value → Option (List Noun)
  | [] => some []
  | item :: items => do
    let n ← converted? item
    let ns ← convertedAll? items
    return n :: ns

end

/-- The part of a value at a path of indices, the first one from the root. -/
def part? : List Nat → Value → Option Value
  | [], v => some v
  | i :: path, v => (v.items?.bind (·[i]?)).bind (part? path)

/-- What is wrong with a value itself, whatever its items are, given its place. -/
def fault? (v : Value) : Option (String → Error) :=
  match v.items?, v.integer? with
  | some items, _ => if items.length < 2 then some (.shortSequence · items.length) else none
  | none, some i => if i < 0 then some (.negative · i) else none
  | none, none => if v.isCell then none else some (.notInteger · v.typeName)

def faultAt? (v : Value) (path : List Nat) : Option (String → Error) := (v.part? path).bind fault?

/-- A fault that is met before all others, depth first and from left to right. -/
structure FirstFault (v : Value) (path : List Nat) (fault : String → Error) : Prop where
  found : v.faultAt? path = some fault
  first : ∀ earlier, List.Lex (· < ·) earlier path → v.faultAt? earlier = none

end Nock.Value

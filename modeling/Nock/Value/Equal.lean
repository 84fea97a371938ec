import Nock.Noun.Equal
import Nock.Value.Basic

/-!
# Equality of values

Nouns are equal as nouns. Whole numbers, truth values, numbers and elements of arrays are compared as
numbers, where truth is 1 and falsehood 0. Sequences are equal item by item with sequences of their
own sort, and values of different sorts differ.
-/

namespace Nock.Value

def number? : Value → Option (Int ⊕ Binary)
  | int i => some (.inl i)
  | bool b => some (.inl (if b then 1 else 0))
  | number x => some (.inr x)
  | scalar (.whole _ i) => some (.inl i)
  | scalar (.real _ x) => some (.inr x)
  | _ => none

def sameNumber : Int ⊕ Binary → Int ⊕ Binary → Bool
  | .inl i, .inl j => i == j
  | .inr x, .inr y => x.numEq y
  | .inl i, .inr x | .inr x, .inl i => x.toInt? == some i

mutual

def same (a b : Value) : Bool :=
  match a, b with
  | cell h t, cell h' t' => decide (Noun.cell h t = Noun.cell h' t')
  | text s, text s' => s == s'
  | list as, list bs => sameAll as bs
  | tuple as, tuple bs => sameAll as bs
  | null, null | dict, dict | crash, crash => true
  | a, b =>
    match a.number?, b.number? with
    | some x, some y => sameNumber x y
    | _, _ => false

def sameAll (as bs : List Value) : Bool :=
  match as, bs with
  | [], [] => true
  | a :: as, b :: bs => same a b && sameAll as bs
  | _, _ => false

end

/-- The type of the first part that can be changed, and so cannot be looked up. -/
def unhashable? : Value → Option String
  | list _ => some "list"
  | dict => some "dict"
  | tuple items => unhashableIn? items
  | _ => none
where
  unhashableIn? : List Value → Option String
    | [] => none
    | item :: items => (unhashable? item).or (unhashableIn? items)

/-- The values that are not equal to one before them. -/
def distinct (values : List Value) : List Value :=
  (values.foldl (fun seen v => if seen.any (same v) then seen else v :: seen) []).reverse

end Nock.Value

import Nock.Value.Convert

/-!
# Rules of conversion

Conversion between values and nouns by recursion on their parts, without lists of open sequences and
pending work. A sequence is looked at before its items, and its items from left to right. The pair form
of a value is what is left of it when it has been a noun: whole numbers, and pairs of such forms.
-/

namespace Nock.Value

mutual

/-- The noun for a value, or what is wrong at the first place where there is none. -/
def nounAt (place : String) : Value → Except Error Noun
  | list items =>
    if items.length < 2 then .error (.shortSequence place items.length) else nestedAt place 0 items
  | tuple items =>
    if items.length < 2 then .error (.shortSequence place items.length) else nestedAt place 0 items
  | v =>
    match v.leafNoun with
    | .ok n => .ok n
    | .error e => .error (e place)

/-- The nouns for items, nested to the right; `index` counts the items before. -/
def nestedAt (place : String) (index : Nat) : List Value → Except Error Noun
  | [] => .error (.shortSequence place index)
  | [item] => nounAt (place ++ "[" ++ toString index ++ "]") item
  | item :: rest => do
    let h ← nounAt (place ++ "[" ++ toString index ++ "]") item
    let t ← nestedAt place (index + 1) rest
    return .cell h t

end

/-- The nested pairs of a noun. -/
def pairTree : Noun → Value
  | .atom n => int n
  | .cell h t => tuple [pairTree h, pairTree t]

mutual

/-- The value with each sequence nested to the right as pairs, each cell as its pair and each integer
element as a whole number. -/
def pairForm : Value → Value
  | list items => nestedPairs items
  | tuple items => nestedPairs items
  | cell h t => tuple [pairTree h, pairTree t]
  | scalar (.whole _ i) => int i
  | v => v

/-- The pair forms of items, nested to the right. -/
def nestedPairs : List Value → Value
  | [] => tuple []
  | [item] => pairForm item
  | item :: rest => tuple [pairForm item, nestedPairs rest]

end

/-- Made of pairs and of whole numbers that are not negative. -/
inductive IsPairs : Value → Prop
  | int (n : Nat) : IsPairs (int n)
  | pair {h t : Value} : IsPairs h → IsPairs t → IsPairs (tuple [h, t])

end Nock.Value

import Nock.Tensor.Basic
import Nock.Value.Equal
import Nock.Value.Nesting

/-!
# Comparing values

Two values are compared as their types ask for. An element of an array compares with a plain number in
the element's own type, so a whole number is rounded to the element's format first, and whole elements
are rounded to the double format beside real ones. With a sequence it compares as with an array, one
truth value for each entry; a single one is the answer, and several or none are an error. Sequences of
one sort are compared item by item, lists only if they are of one length, as far down as there is room.

`Value.same` compares the numbers themselves. The two agree on values without elements of arrays.
-/

namespace Nock

namespace Scalar

/-- A whole number in the double format. -/
def asDouble (i : Int) : Binary := .ofInt .double i

def equal : Scalar → Scalar → Bool
  | whole _ i, whole _ j => i == j
  | real _ x, real _ y => x.numEq y
  | whole _ i, real _ x | real _ x, whole _ i => (asDouble i).numEq x

/-- Compares an element with a whole number. -/
def equalInt (s : Scalar) (j : Int) : Except Error Bool :=
  match s with
  | whole _ i => .ok (i == j)
  | real t x =>
    match t.realOf? j with
    | some y => .ok (x.numEq y)
    | none => .error .tooLarge

def equalNumber (s : Scalar) (y : Binary) : Bool :=
  match s with
  | whole _ i => (asDouble i).numEq y
  | real t x => x.numEq (t.round y)

/-- Compares an element with the entry that a value is in an array: a whole number of at most
sixty-four bits or a number is an element itself. -/
def equalEntry (s : Scalar) : Value → Bool
  | .int j =>
    if (ElementType.integer true 64).holds j || (ElementType.integer false 64).holds j then
      s.equal (whole (.integer true 64) j)
    else
      match s with
      | whole _ i => i == j
      | real _ x => x.toInt? == some j
  | .bool b => s.equal (whole .truth (if b then 1 else 0))
  | .number y => s.equal (real .double y)
  | .scalar s' => s.equal s'
  | _ => false

end Scalar

namespace Value

/-- The length that all values have as sequences. -/
def commonLength? : List Value → Option Nat
  | [] => none
  | v :: vs => do
    let n ← v.items?.map List.length
    if vs.all fun w => w.items?.map List.length == some n then some n else none

/-- The lengths that the values share from level to level, and the values below them. -/
def levels : (most : Nat) → List Value → List Nat × List Value
  | 0, vs => ([], vs)
  | most + 1, vs =>
    match commonLength? vs with
    | none => ([], vs)
    | some n =>
      let below := levels most (vs.flatMap fun v => v.items?.getD [])
      (n :: below.1, below.2)

/-- Compares an element with the array that a sequence is. -/
def equalArray (s : Scalar) (sequence : Value) : Except Error Bool :=
  let (lengths, entries) := levels greatestRank [sequence]
  if entries.any fun v => v.items?.isSome then .error (.unevenItems lengths)
  else
    match entries with
    | [] => .error .noTruths
    | [v] => .ok (s.equalEntry v)
    | _ => .error .manyTruths

def equalScalar (s : Scalar) (v : Value) : Except Error Bool :=
  match v with
  | int j => s.equalInt j
  | bool b => s.equalInt (if b then 1 else 0)
  | number y => .ok (s.equalNumber y)
  | scalar s' => .ok (s.equal s')
  | list _ | tuple _ => equalArray s v
  | _ => .ok false

mutual

/-- Compares values with room for some levels. -/
def equalWithin (levels : Nat) (a b : Value) : Except Error Bool :=
  match a, b with
  | list as, list bs =>
    if levels = 0 then .error (.nestedTooDeep true)
    else if as.length = bs.length then equalItems (levels - 1) as bs
    else .ok false
  | tuple as, tuple bs =>
    if levels = 0 then .error (.nestedTooDeep true) else equalItems (levels - 1) as bs
  | scalar s, v | v, scalar s => equalScalar s v
  | a, b => .ok (same a b)

/-- Compares item by item, up to the first two that differ. -/
def equalItems (levels : Nat) (as bs : List Value) : Except Error Bool :=
  match as, bs with
  | [], [] => .ok true
  | a :: as, b :: bs => do if ← equalWithin levels a b then equalItems levels as bs else .ok false
  | _, _ => .ok false

end

def equal (a b : Value) : Except Error Bool := equalWithin room a b

end Value

end Nock

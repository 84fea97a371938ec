import Nock.Tensor.Basic
import Nock.Value.Nesting

/-!
# Arrays of values

A number is an array of rank 0, and a list or tuple of arrays of one shape is an array of one rank
more. The element type is the least that all numbers fit into (`Promotion.join?`), where the elements of
arrays are narrowed first: whole numbers and real numbers of no array leave the width to the elements of
arrays among them, and have thirty-two bits if there are none. Without any number the elements are real.

What is wrong is looked for in this order: sequences nested too deep, a missing value, a part that is no
number, types without a common one, items of different shapes, a whole number that does not fit the type.
-/

namespace Nock

/-- The element type of some numbers, as far as they settle it. -/
inductive Promotion where
  | whole
  | real
  | fixed (type : ElementType)
deriving DecidableEq

namespace Promotion

/-- The type that holds the integers of two types. -/
def joinIntegers (s : Bool) (m : Nat) (s' : Bool) (n : Nat) : Promotion :=
  if s = s' then fixed (.integer s (max m n))
  else
    let (signed, unsigned) := if s then (m, n) else (n, m)
    if unsigned < signed then fixed (.integer true signed)
    else if unsigned < 64 then fixed (.integer true (2 * unsigned))
    else real

/-- How far up a real type is; the two of sixteen bits have no order. -/
def rank : ElementType → Nat
  | .half | .brief => 1
  | .single => 2
  | .double => 3
  | .complexSingle => 4
  | .complexDouble => 5
  | _ => 0

/-- The type that holds the numbers of two real types. -/
def joinReals (a b : ElementType) : ElementType :=
  if a = b then a
  else if rank a = 1 && rank b = 1 then .single
  else if (a = .double && b = .complexSingle) || (a = .complexSingle && b = .double) then .complexDouble
  else if rank a ≤ rank b then b else a

/-- What holds the numbers of both. An integer type of less than a byte has nothing in common with
another type. -/
def join? : Promotion → Promotion → Option Promotion
  | fixed .truth, p | p, fixed .truth => some p
  | whole, p | p, whole => some p
  | fixed (.integer s m), fixed (.integer s' n) =>
    if m < 8 || n < 8 then if s = s' && m = n then some (fixed (.integer s m)) else none
    else some (joinIntegers s m s' n)
  | fixed (.integer _ m), p | p, fixed (.integer _ m) => if m < 8 then none else some p
  | real, p | p, real => some p
  | fixed a, fixed b => some (fixed (joinReals a b))

def type : Promotion → ElementType
  | whole => .integer true 32
  | real => .single
  | fixed t => t.narrow

/-- What holds all numbers; `none` if nothing does. -/
def joinAll? : List Promotion → Option Promotion
  | [] => some real
  | p :: ps => ps.foldlM join? p

end Promotion

namespace Value

mutual

/-- The parts of a value that are no sequences, in front of those that follow. -/
def leavesOnto (after : List Value) : Value → List Value
  | list items => allLeavesOnto after items
  | tuple items => allLeavesOnto after items
  | v => v :: after

def allLeavesOnto (after : List Value) : List Value → List Value
  | [] => after
  | item :: items => leavesOnto (allLeavesOnto after items) item

end

def leaves (v : Value) : List Value := v.leavesOnto []

/-- The element type of a part, as far as it settles one; a table settles none. -/
def promotion? : Value → Except Error (Option Promotion)
  | int _ => .ok (some .whole)
  | bool _ => .ok (some (.fixed .truth))
  | number _ => .ok (some .real)
  | scalar s => .ok (some (.fixed s.type.narrow))
  | dict => .ok none
  | _ => .error (.unexplained .type)

mutual

/-- The shape of a value as an array, if its items have one shape at every level. -/
def shape? : Value → Option (List Nat)
  | list items => shapeOfAll? items
  | tuple items => shapeOfAll? items
  | _ => some []

/-- The shape of an array of items. -/
def shapeOfAll? : List Value → Option (List Nat)
  | [] => some [0]
  | item :: items => do
    let s ← shape? item
    if allHaveShape s items then some ((items.length + 1) :: s) else none

def allHaveShape (s : List Nat) : List Value → Bool
  | [] => true
  | item :: items => shape? item == some s && allHaveShape s items

end

/-- The entry that a part becomes; that of a real number plays no part. -/
def entry (type : ElementType) : Value → Except Error Int
  | int i | scalar (.whole _ i) =>
    match type.entryOf? i with
    | some j => .ok j
    | none => .error (.unexplained .overflow)
  | bool b => .ok (if b then 1 else 0)
  | dict => .error (.unexplained .type)
  | _ => .ok 0

/-- The array of the parts of a value, in the least type that takes them all. -/
def partsTensor (v : Value) : Except Error Tensor := do
  if !v.fits .visit then throw (.unexplained .recursion)
  let leaves := v.leaves
  if leaves.any (· matches null) then throw (.unexplained .value)
  let promotions ← leaves.mapM promotion?
  let type ← match Promotion.joinAll? (promotions.filterMap id) with
    | some p => .ok p.type
    | none => .error (.unexplained .promotion)
  match v.shape? with
  | none => throw (.unexplained .value)
  | some shape =>
    if greatestRank < shape.length then throw (.unexplained .value)
    let entries ← leaves.mapM (entry type)
    return ⟨type, shape, entries⟩

/-- The array that a value is. A single element is taken modulo the width that it is narrowed to. -/
def toTensor (v : Value) : Except Error Tensor :=
  match v with
  | scalar (.whole t i) => .ok ⟨t.narrow, [], [t.narrow.wrap i]⟩
  | scalar (.real t _) => .ok ⟨t.narrow, [], [0]⟩
  | v => v.partsTensor

end Value

end Nock

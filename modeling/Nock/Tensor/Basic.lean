import Nock.Error
import Nock.Tensor.ElementType

/-!
# Tensors

Arrays of any rank, as a shape and their entries row by row. `Tensor.rows` gives the same entries as
nested lists, one level for each axis; below an axis of length 0 no level is left.

The entries of a type that is not an integer type play no part and are not kept.
-/

namespace Nock

structure Tensor where
  type : ElementType
  shape : List Nat
  entries : List Int
deriving DecidableEq

def greatestRank : Nat := 64

inductive Rows where
  | entry (i : Int)
  | rows (items : List Rows)

namespace Rows

/-- The first `count` pieces of so many entries each. -/
def chunks (size : Nat) : (count : Nat) → List Int → List (List Int)
  | 0, _ => []
  | count + 1, entries => entries.take size :: chunks size count (entries.drop size)

/-- How many entries a shape has room for. -/
def room (shape : List Nat) : Nat := shape.foldr (fun d n => d * n) 1

@[simp] theorem room_cons (d : Nat) (shape : List Nat) : room (d :: shape) = d * room shape := rfl

/-- The nested lists of entries that stand row by row. -/
def ofShape : List Nat → List Int → Rows
  | [], entries => entry (entries.headD 0)
  | d :: shape, entries => rows ((chunks (room shape) d entries).map (ofShape shape))

end Rows

namespace Tensor

def rows (t : Tensor) : Rows := Rows.ofShape t.shape t.entries

/-- The array as it is held: in the narrow type, with the entries modulo its width. -/
def narrow (t : Tensor) : Tensor :=
  let type := t.type.narrow
  ⟨type, t.shape, t.entries.map type.wrap⟩

@[simp] theorem length_narrow (t : Tensor) : t.narrow.entries.length = t.entries.length :=
  List.length_map _

/-- The lengths of a shape for so many entries. One length may be left open by a negative number, and is
what the others ask for. -/
def lengths? (shape : List Int) (count : Nat) : Option (List Nat) :=
  let known := Rows.room ((shape.filter (0 ≤ ·)).map Int.toNat)
  match shape.countP (· < 0) with
  | 0 => if known = count then some (shape.map Int.toNat) else none
  | 1 =>
    if known = 0 || count % known != 0 then none
    else some (shape.map fun d => if d < 0 then count / known else d.toNat)
  | _ => none

/-- The array of whole numbers that stand row by row. There must be as many as the shape has room for,
and the type must take them. -/
def ofEntries (type : ElementType) (shape : List Int) (entries : List Int) : Except Error Tensor := do
  match entries.mapM type.entryOf? with
  | none => throw (.unexplained .overflow)
  | some entries =>
    match lengths? shape entries.length with
    | some dims =>
      if greatestRank < dims.length then throw (.unexplained .value)
      return ⟨type, dims, entries⟩
    | none => throw (.unexplained .value)

end Tensor

end Nock

import Nock.Tensor.Basic
import Nock.Value.Check

/-!
# Conversion between arrays and nouns

An array of rank 0 is an atom. An array of higher rank is the list noun of its rows, each a noun of its
own. In tuple form the list noun is the right-nested cell of two or more items; in terminated form 0
stands behind the items, so any number of items makes a noun.

Arrays are narrowed before they are read, and an array with a negative entry is no noun.
-/

namespace Nock

/-- How a list of nouns is a noun. -/
inductive ListForm where
  | tuple
  | terminated
deriving DecidableEq

namespace ListForm

/-- The noun of a list, given with its last item first. -/
def packReversed (form : ListForm) (place : String) (items : List Noun) : Except Error Noun :=
  match form, items with
  | terminated, items => .ok (items.foldl (fun t h => .cell h t) 0)
  | tuple, last :: before :: rest =>
    .ok ((before :: rest).foldl (fun t h => .cell h t) last)
  | tuple, short => .error (.shortRow place short.length)

end ListForm

namespace Rows

mutual

/-- The noun of nested lists. The items are converted before their number is looked at. -/
def toNoun (form : ListForm) (place : String) : Rows → Except Error Noun
  | entry i => .ok (.atom i.toNat)
  | rows items => do
    let ns ← toNounsOnto form place 0 [] items
    form.packReversed place ns

/-- The nouns of rows, in front of those of the rows before; `index` counts these. -/
def toNounsOnto (form : ListForm) (place : String) (index : Nat) (done : List Noun) :
    List Rows → Except Error (List Noun)
  | [] => .ok done
  | row :: rest => do
    let n ← toNoun form (place ++ "[" ++ toString index ++ "]") row
    toNounsOnto form place (index + 1) (n :: done) rest

end

end Rows

namespace Tensor

def toNoun (form : ListForm) (place : String) (t : Tensor) : Except Error Noun :=
  let t := t.narrow
  if !t.type.isInteger then .error (.elementType place t.type.name)
  else if t.entries.any (· < 0) then .error (.negativeEntries place)
  else t.rows.toNoun form place

/-- The items of a list noun, without a terminating 0. -/
def listItems (form : ListForm) (n : Noun) : Except Error (List Noun) :=
  let (items, last) := n.spine
  match form with
  | .tuple => .ok (items ++ [.atom last])
  | .terminated => if last = 0 then .ok items else .error (.openList last)

/-- The numbers of items that are atoms; `index` counts the items before. -/
def atoms (index : Nat) (done : List Nat) : List Noun → Except Error (List Nat)
  | [] => .ok done.reverse
  | .atom n :: items => atoms (index + 1) (n :: done) items
  | .cell _ _ :: _ => .error (.itemIsCell index)

/-- Refuses the first number that an integer type cannot hold; `index` counts the numbers before. -/
def fitAll (type : ElementType) (index : Nat) : List Nat → Except Error Unit
  | [] => .ok ()
  | n :: rest =>
    if type.holds n then fitAll type (index + 1) rest
    else .error (.doesNotFit index n type.name)

/-- The array of a list noun. An atom in tuple form is an array of rank 0. -/
def ofNoun (form : ListForm) (typeName : String) (n : Noun) : Except Error Tensor := do
  let items ← listItems form n
  let numbers ← atoms 0 [] items
  match ElementType.ofName? typeName with
  | none => throw (.unexplained .type)
  | some type =>
    let type := type.narrow
    if !type.isInteger then throw (.unexplained .value)
    fitAll type 0 numbers
    let shape := if form = .tuple && !n.isCell then [] else [numbers.length]
    return ⟨type, shape, numbers.map Int.ofNat⟩

end Tensor

namespace Value

def toListTensor (form : ListForm) (typeName : String) (v : Value) : Except Error Tensor := do
  let n ← v.asNoun "noun"
  Tensor.ofNoun form typeName n

end Value

end Nock

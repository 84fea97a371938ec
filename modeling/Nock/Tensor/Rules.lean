import Mathlib.Data.List.Forall2
import Nock.Tensor.Convert

/-!
# Rules of arrays as nouns

What a list noun lists, and which entries a noun spells as an array of a shape: by recursion on the
shape, with no word about how the noun is built or how its spine is walked. A list noun in tuple form
lists its items in front of a last one, and that may be a cell; a noun in terminated form ends in 0.

A noun that is read has the atom behind all its tails as last item in tuple form, so only a head can be an
item that is a cell (`ListForm.itemsOf`).
-/

namespace Nock

namespace Noun

/-- The heads along the tails of a noun. -/
def heads : Noun → List Noun
  | atom _ => []
  | cell h t => h :: t.heads

/-- The atom behind all tails of a noun. -/
def final : Noun → Nat
  | atom n => n
  | cell _ t => t.final

end Noun

namespace ListForm

/-- The items that a noun is read as. -/
def itemsOf : ListForm → Noun → List Noun
  | terminated, n => n.heads
  | tuple, n => n.heads ++ [.atom n.final]

/-- A noun is the list noun of some items. -/
def Lists : ListForm → List Noun → Noun → Prop
  | terminated, items, n => n = Noun.nest items 0
  | tuple, items, n => ∃ front last, items = front ++ [last] ∧ n = Noun.nest front last

/-- No row of a shape is too short for a list noun. -/
def Allows : ListForm → List Nat → Prop
  | terminated, _ => True
  | tuple, shape => ∀ d ∈ shape, 2 ≤ d

/-- The shapes of the arrays that list nouns of atoms are read into. -/
def Reads : ListForm → List Nat → Prop
  | terminated, shape => ∃ d, shape = [d]
  | tuple, shape => shape = [] ∨ ∃ d, 2 ≤ d ∧ shape = [d]

/-- The shape that a list noun of so many atoms is read into. -/
def flatShape (form : ListForm) (n : Noun) (count : Nat) : List Nat :=
  if form = .tuple && !n.isCell then [] else [count]

end ListForm

namespace Tensor

/-- The axis of a shape whose length is reported where some axis is too short for rows: the first one that is
empty, as nothing is left below it, and otherwise the last one of length 1, as rows are built before what they
are part of. -/
inductive ShortAxis (shape : List Nat) : (axis length : Nat) → Prop
  | empty {k : Nat} : shape[k]? = some 0 → (∀ j < k, shape[j]? ≠ some 0) → ShortAxis shape k 0
  | single {k : Nat} : 0 ∉ shape → shape[k]? = some 1 → (∀ j, k < j → shape[j]? ≠ some 1) →
      ShortAxis shape k 1

/-- The atoms of a noun that stand for entries are, row by row, the entries of an array of a shape. -/
def Spells (form : ListForm) : List Nat → List Int → Noun → Prop
  | [], entries, n => ∃ a : Nat, entries = [Int.ofNat a] ∧ n = .atom a
  | d :: shape, entries, n =>
    ∃ blocks items, blocks.flatten = entries ∧ blocks.length = d ∧
      List.Forall₂ (Spells form shape) blocks items ∧ form.Lists items n

/-- An array that there can be: of one of the element types, with an entry for each place of the shape,
and with entries that the type holds. -/
structure Valid (t : Tensor) : Prop where
  type_mem : t.type ∈ ElementType.all
  length_eq : t.entries.length = Rows.room t.shape
  holds : ∀ i ∈ t.entries, t.type.holds i = true

end Tensor

end Nock

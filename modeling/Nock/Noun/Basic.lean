/-!
# Nouns

A noun is an atom, which is a natural number, or a cell, which is an ordered pair of nouns. Cells
nest to the right: `[a b c]` is `[a [b c]]`, so a list of nouns in front of a last one is a noun
(`Noun.nest`), and every noun is such a list in one way, with an atom at the end (`Noun.spine`).

`size`, `depth` and `leaves` are the plain recursive measures. They are for statements and for
termination: a noun may be a chain of tens of thousands of cells, so what runs walks nouns with an
explicit list of pending work.

Two further measures are computed once, when a noun is made, and kept with it. Equal nouns have equal
digests, so different digests tell nouns apart without a walk. The rank of a noun is the number of its
cells that a walk has to keep waiting at once if it always goes into the half of lower rank first.
-/

namespace Nock

/-- Spreads two words over all bits of one. The shifts carry the high bits down, which a product alone
does not. -/
def mixWords (x y : UInt64) : UInt64 :=
  let a := (x ^^^ (x >>> 33)) * 0xff51afd7ed558ccd + y
  let b := (a ^^^ (a >>> 29)) * 0x9e3779b97f4a7c15
  b ^^^ (b >>> 32)

/-- A word of all digits of a number: its low bits, mixed with its remainder by a large prime. -/
def mixNumber (n : Nat) : UInt64 :=
  mixWords (UInt64.ofNat (n % 2305843009213693951)) (UInt64.ofNat n)

/-- An atom is a natural number of any size; a cell pairs two nouns. -/
inductive Noun where
  | atom (n : Nat)
  | cell (head tail : Noun)
with
  @[computed_field]
  digest : Noun → UInt64
    | .atom n => mixNumber n
    | .cell h t => mixWords h.digest t.digest
  @[computed_field]
  rank : Noun → Nat
    | .atom _ => 0
    | .cell h t => if h.rank = t.rank then h.rank + 1 else max h.rank t.rank
deriving Inhabited

namespace Noun

def size : Noun → Nat
  | atom _ => 1
  | cell h t => h.size + t.size + 1

def depth : Noun → Nat
  | atom _ => 0
  | cell h t => max h.depth t.depth + 1

def leaves : Noun → Nat
  | atom _ => 1
  | cell h t => h.leaves + t.leaves

@[simp] theorem size_atom (n : Nat) : (atom n).size = 1 := rfl

@[simp] theorem size_cell (h t : Noun) : (cell h t).size = h.size + t.size + 1 := rfl

theorem size_pos : ∀ n : Noun, 0 < n.size
  | atom _ => Nat.one_pos
  | cell _ _ => Nat.succ_pos _

theorem size_eq_leaves (n : Noun) : n.size + 1 = 2 * n.leaves := by
  induction n with
  | atom _ => rfl
  | cell h t ihh iht => simp only [size, leaves]; omega

def isCell : Noun → Bool
  | atom _ => false
  | cell _ _ => true

/-- The items in front of `last`, nested to the right. -/
def nest (items : List Noun) (last : Noun) : Noun := items.foldr cell last

@[simp] theorem nest_nil (last : Noun) : nest [] last = last := rfl

@[simp] theorem nest_cons (x : Noun) (items : List Noun) (last : Noun) :
    nest (x :: items) last = cell x (nest items last) := rfl

theorem nest_inj {items items' : List Noun} {last last' : Noun}
    (hlen : items.length = items'.length) (h : nest items last = nest items' last') :
    items = items' ∧ last = last' := by
  induction items generalizing items' with
  | nil =>
    obtain rfl := List.length_eq_zero_iff.1 hlen.symm
    exact ⟨rfl, h⟩
  | cons x items ih =>
    obtain ⟨y, items', rfl⟩ := List.exists_cons_of_length_eq_add_one hlen.symm
    obtain ⟨rfl, ht⟩ := cell.inj h
    obtain ⟨rfl, hl⟩ := ih (Nat.succ.inj hlen) ht
    exact ⟨rfl, hl⟩

theorem nest_append (items items' : List Noun) (last : Noun) :
    nest (items ++ items') last = nest items (nest items' last) := List.foldr_append

/-- The cell `[x₀ x₁ … xₖ]` of a list; fewer than two items make no cell. -/
def ofList? (items : List Noun) : Option Noun :=
  match items.reverse with
  | last :: before :: rest => some (nest (rest.reverse ++ [before]) last)
  | _ => none

/-- The heads met on the way down the tails, behind those in `seen`, which are reversed, and the atom
at the end. -/
def spineOnto (seen : List Noun) : Noun → List Noun × Nat
  | atom n => (seen.reverse, n)
  | cell h t => spineOnto (h :: seen) t

/-- The heads met on the way down the tails, nearest first, and the atom at the end. -/
def spine (n : Noun) : List Noun × Nat := spineOnto [] n

theorem spineOnto_eq (seen : List Noun) (n : Noun) :
    spineOnto seen n = (seen.reverse ++ n.spine.1, n.spine.2) := by
  induction n generalizing seen with
  | atom _ => simp [spineOnto, spine]
  | cell h t _ iht =>
    have := iht [h]
    simp only [spine, spineOnto] at this ⊢
    rw [iht (h :: seen), iht [h]]
    simp

@[simp] theorem spine_atom (n : Nat) : (atom n).spine = ([], n) := rfl

@[simp] theorem spine_cell (h t : Noun) : (cell h t).spine = (h :: t.spine.1, t.spine.2) := by
  simp [spine, spineOnto, spineOnto_eq [h] t]

theorem nest_spine (n : Noun) : nest n.spine.1 (atom n.spine.2) = n := by
  induction n with
  | atom _ => rfl
  | cell h t _ iht => simp [iht]

theorem spine_nest (items : List Noun) (a : Nat) : (nest items (atom a)).spine = (items, a) := by
  induction items with
  | nil => rfl
  | cons x items ih => rw [nest_cons, spine_cell, ih]

end Noun

instance (n : Nat) : OfNat Noun n := ⟨.atom n⟩

end Nock

import Nock.Digits
import Nock.Noun.Basic

/-!
# Axes

An axis is a positive number that names a place in a tree: 1 is the whole tree, and `2n` and
`2n + 1` are the head and the tail of the cell at `n`. So the binary digits after the leading one
spell the way down from the root, where 0 goes to the head and 1 to the tail.

`Noun.find?` follows a way down. `Noun.replace?` follows it too, keeping at each cell the half that
it leaves (`Crumb`), and then builds these cells again around the new subtree. Both give `none`
where the way runs off the tree.
-/

namespace Nock

inductive Turn where
  | head
  | tail
deriving DecidableEq

def Turn.ofDigit (digit : Nat) : Turn := if digit = 0 then .head else .tail

namespace Axis

/-- The way down to a place; 0 names none. -/
def turns? (axis : Nat) : Option (List Turn) :=
  if axis = 0 then none else some ((Digits.last 2 axis.log2 axis).map Turn.ofDigit)

/-- One more binary digit is one more turn. -/
theorem turns?_digit {axis digit : Nat} (h : 0 < axis) (hd : digit < 2) :
    turns? (2 * axis + digit) = (turns? axis).map (· ++ [Turn.ofDigit digit]) := by
  have hhalf : (2 * axis + digit) / 2 = axis := by omega
  have hlog : (2 * axis + digit).log2 = axis.log2 + 1 := by
    rw [Nat.log2_def, if_pos (by omega), hhalf]
  rw [turns?, turns?, if_neg (by omega), if_neg (by omega), hlog, Digits.last_succ, hhalf,
    show (2 * axis + digit) % 2 = digit by omega, List.map_append]
  rfl

theorem turns?_double {axis : Nat} (h : 0 < axis) :
    turns? (2 * axis) = (turns? axis).map (· ++ [.head]) :=
  turns?_digit h Nat.two_pos

theorem turns?_double_succ {axis : Nat} (h : 0 < axis) :
    turns? (2 * axis + 1) = (turns? axis).map (· ++ [.tail]) :=
  turns?_digit h Nat.one_lt_two

end Axis

/-- The half of a cell that a way down leaves, and the side that it takes. -/
structure Crumb where
  taken : Turn
  left : Noun

/-- The cell that a crumb remembers, with `n` on the side taken. -/
def Crumb.around (c : Crumb) (n : Noun) : Noun :=
  match c.taken with
  | .head => .cell n c.left
  | .tail => .cell c.left n

namespace Noun

def find? : List Turn → Noun → Option Noun
  | [], n => some n
  | _ :: _, atom _ => none
  | .head :: way, cell h _ => find? way h
  | .tail :: way, cell _ t => find? way t

/-- The crumbs of a way down, the last one first, on top of `above`. -/
def crumbs? : List Turn → Noun → List Crumb → Option (List Crumb)
  | [], _, above => some above
  | _ :: _, atom _, _ => none
  | .head :: way, cell h t, above => crumbs? way h (⟨.head, t⟩ :: above)
  | .tail :: way, cell h t, above => crumbs? way t (⟨.tail, h⟩ :: above)

def replace? (way : List Turn) (leaf tree : Noun) : Option Noun :=
  (tree.crumbs? way []).map fun crumbs => crumbs.foldl (fun n c => c.around n) leaf

/-- The subtree at an axis; a cell is no axis. -/
def findAt? (axis tree : Noun) : Option Noun :=
  match axis with
  | atom a => (Axis.turns? a).bind (find? · tree)
  | cell _ _ => none

/-- The tree with `leaf` in place of the subtree at an axis; a cell is no axis. -/
def replaceAt? (axis leaf tree : Noun) : Option Noun :=
  match axis with
  | atom a => (Axis.turns? a).bind (replace? · leaf tree)
  | cell _ _ => none

end Noun

end Nock

import Nock.Axis
import Nock.Primitive
import Nock.Value.Check

/-!
# Addresses and operators on values

Looking up, replacing and the primitive operators on values that need not be nouns. What names no
place, or runs off the tree, is a crash. Axis 1 gives the tree, or the leaf, whatever it is; below
that, the leaf is stored in a cell and has to be a noun, which is checked once the place is found.
-/

namespace Nock.Value

/-- The way down to the place that a value names. -/
def turns? : Value → Option (List Turn)
  | int (.ofNat axis) => Axis.turns? axis
  | _ => none

def findAt (axis tree : Value) : Value :=
  match axis.turns?, tree with
  | some [], tree => tree
  | some way, cell h t => ofResult ((Noun.cell h t).find? way)
  | _, _ => crash

/-- The name of the half of a cell that a turn goes to. -/
def halfName : Turn → String
  | .head => "cell head"
  | .tail => "cell tail"

def replaceAt (axis leaf tree : Value) : Except Error Value :=
  match axis.turns?, tree with
  | some [], _ => .ok leaf
  | some way, cell h t =>
    match (Noun.cell h t).crumbs? way [] with
    | some (crumb :: crumbs) => do
      let n ← leaf.component (halfName crumb.taken)
      return ofNoun ((crumb :: crumbs).foldl (fun n c => c.around n) n)
    | some [] => .ok leaf
    | none => .ok crash
  | _, _ => .ok crash

def increment : Value → Value
  | int i => int (i + 1)
  | _ => crash

/-- Gives 0 for a cell and 1 for all else. -/
def cellTest (v : Value) : Noun := Noun.ofBool v.isCell

/-- Gives 0 for a cell of equal halves and 1 for another cell. -/
def equalTest : Value → Value
  | cell h t => ofNoun (h.equalTest t)
  | _ => crash

end Nock.Value

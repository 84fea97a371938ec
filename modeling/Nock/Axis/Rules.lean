import Nock.Noun.Basic

/-!
# Rules of axes

Lookup and edit by the numbers of axes alone, without the way down that a number spells. What stands at
`2n` and `2n + 1` are the halves of the cell at `n`, and to put a leaf at one of them is to put a cell
of the leaf and the other one at `n`.
-/

namespace Nock.Axis

/-- The subtree of a tree at an axis. -/
inductive Finds : (axis tree subtree : Noun) → Prop
  | root {t : Noun} : Finds (.atom 1) t t
  | head {n : Nat} {t h u : Noun} : Finds (.atom n) t (.cell h u) → Finds (.atom (2 * n)) t h
  | tail {n : Nat} {t h u : Noun} : Finds (.atom n) t (.cell h u) → Finds (.atom (2 * n + 1)) t u

/-- The tree with a leaf in place of the subtree at an axis. -/
inductive Edits : (axis leaf tree result : Noun) → Prop
  | root {v t : Noun} : Edits (.atom 1) v t v
  | head {n : Nat} {v t u r : Noun} : Finds (.atom (2 * n + 1)) t u →
      Edits (.atom n) (.cell v u) t r → Edits (.atom (2 * n)) v t r
  | tail {n : Nat} {v t u r : Noun} : Finds (.atom (2 * n)) t u →
      Edits (.atom n) (.cell u v) t r → Edits (.atom (2 * n + 1)) v t r

end Nock.Axis

import Nock.Noun.Basic

/-!
# Measuring nouns

The size, depth and number of leaves of a noun, taken in one walk over a list of pending subtrees,
each with its distance from the root. They are the recursive measures (`measure_eq`).
-/

namespace Nock

structure Measure where
  size : Nat
  depth : Nat
  leaves : Nat
deriving DecidableEq, Repr

/-- Adds a whole subtree at a level. -/
def Measure.add (m : Measure) (p : Noun × Nat) : Measure :=
  ⟨m.size + p.1.size, max m.depth (p.2 + p.1.depth), m.leaves + p.1.leaves⟩

namespace Noun

/-- Adds the pending subtrees, each at its level, to what is measured so far. -/
def measureOnto (m : Measure) : List (Noun × Nat) → Measure
  | [] => m
  | (atom _, level) :: pending =>
    measureOnto ⟨m.size + 1, max m.depth level, m.leaves + 1⟩ pending
  | (cell h t, level) :: pending =>
    measureOnto ⟨m.size + 1, max m.depth level, m.leaves⟩
      ((h, level + 1) :: (t, level + 1) :: pending)
termination_by pending => pending.foldr (fun p n => p.1.size + n) 0
decreasing_by all_goals (simp; try omega)

def measure (n : Noun) : Measure := measureOnto ⟨0, 0, 0⟩ [(n, 0)]

theorem measureOnto_eq (m : Measure) (pending : List (Noun × Nat)) :
    measureOnto m pending = pending.foldl Measure.add m := by
  fun_induction measureOnto m pending with
  | case1 m => rfl
  | case2 m a level pending ih => rw [ih]; rfl
  | case3 m h t level pending ih =>
    rw [ih]
    simp only [List.foldl_cons]
    congr 1
    simp only [Measure.add, size, depth, leaves, Measure.mk.injEq]
    omega

theorem measure_eq (n : Noun) : n.measure = ⟨n.size, n.depth, n.leaves⟩ := by
  rw [measure, measureOnto_eq]
  simp [Measure.add]

end Noun

end Nock

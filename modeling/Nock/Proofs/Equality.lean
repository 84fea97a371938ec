import Nock.Axis
import Nock.Primitive
import Nock.Value.Address
import Nock.Value.Compare

/-!
# Equality by a walk

The walk over pending pairs passes over objects that are known to be the same, and stops at hashes that
differ. Equal nouns have equal hashes in every storage, whatever the hashes of atoms are and however they are
combined, so it stops at nouns that differ only; that it decides equality is `Noun.allEqual_iff`. Any equal
parts of two nouns may be passed over, also some of those that are equal to each other and not others
(`Noun.Storage.positions`).
-/

namespace Nock

namespace Noun

/-- Nouns stored with the way from the root to each part. Of the places where two nouns have equal parts, those
in `skips` are known to hold the same. -/
def Storage.positions {η : Type} (hashAtom : Nat → η) (combine : η → η → η) (skips : List Turn → Bool) :
    Storage (List Turn × Noun) η where
  noun x := x.2
  parts
    | (_, atom n) => .inl n
    | (way, cell h t) => .inr ((way ++ [.head], h), (way ++ [.tail], t))
  hash x := x.2.hashWith hashAtom combine
  hashAtom := hashAtom
  combine := combine
  same x y := skips x.1 && decide (x.2 = y.2)
  noun_eq
    | (_, atom _) => rfl
    | (_, cell _ _) => rfl
  hash_eq
    | (_, atom _) => rfl
    | (_, cell _ _) => rfl
  eq_of_same _ _ h := of_decide_eq_true (Bool.and_eq_true_iff.1 h).2

theorem allEqual_single_iff {ω η : Type} [DecidableEq η] (s : Storage ω η) (x y : ω) :
    allEqual s [(x, y)] = true ↔ s.noun x = s.noun y := by
  rw [allEqual_iff, List.forall_mem_singleton]

end Noun

namespace Value

theorem same_ofNoun (a b : Noun) : same (ofNoun a) (ofNoun b) = decide (a = b) := by
  cases a with
  | atom m =>
    cases b with
    | atom n =>
      simp only [ofNoun, same, number?, sameNumber, Noun.atom.injEq]
      exact decide_eq_decide.2 Int.ofNat_inj
    | cell h t => simp [ofNoun, same, number?]
  | cell h t =>
    cases b with
    | atom n => simp [ofNoun, same, number?]
    | cell h' t' => simp [ofNoun, same]

theorem equal_ofNoun (a b : Noun) : (ofNoun a).equal (ofNoun b) = .ok (decide (a = b)) := by
  rw [← same_ofNoun]
  cases a <;> cases b <;> simp only [ofNoun, equal, equalWithin]

end Value

open Noun (atom cell allEqual equalWithin)

/-- In every storage, whatever its hashes and whichever objects are known to be the same, the walk tells whether
two objects hold equal nouns, and such objects keep equal hashes; so does the walk over two nouns that passes over
any of their equal parts. The comparison that runs gives the same answer, for nouns and for values that are nouns,
and so does the test for equal halves, as 0 or 1. -/
theorem equality_walk_exact {ω η : Type} [DecidableEq η] (s : Noun.Storage ω η) (hashAtom : Nat → η)
    (combine : η → η → η) (skips : List Turn → Bool) :
    (∀ x y, allEqual s [(x, y)] = true ↔ s.noun x = s.noun y) ∧
    (∀ x y, s.noun x = s.noun y → s.hash x = s.hash y) ∧
    (∀ a b, allEqual (.positions hashAtom combine skips) [(([], a), ([], b))] = true ↔ a = b) ∧
    (∀ x y levels, (equalWithin (s.noun x) (s.noun y) levels).1 = allEqual s [(x, y)]) ∧
    (∀ a b, (Value.ofNoun a).equal (.ofNoun b) = .ok (decide (a = b))) ∧
    ∀ a b : Noun, a.equalTest b = (if a = b then 0 else 1) ∧
      (Value.cell a b).equalTest = .ofNoun (a.equalTest b) := by
  refine ⟨Noun.allEqual_single_iff s, fun x y => s.hash_eq_of_noun_eq, fun a b => ?skipping,
    fun x y levels => ?runs, Value.equal_ofNoun, fun a b => ⟨Noun.equalTest_eq a b, rfl⟩⟩
  case skipping => exact Noun.allEqual_single_iff _ ([], a) ([], b)
  case runs =>
    rw [Bool.eq_iff_iff, (equalWithin (s.noun x) (s.noun y) levels).2, Noun.allEqual_single_iff]

/-- Hashes that are sums cannot tell a pair from the pair turned around, but the walk can. -/
theorem equality_walk_exact_of_sums :
    let s := Noun.Storage.positions (fun n => n) (· + ·) (· = [.tail])
    s.noun ([.head], cell 1 2) = s.noun ([.tail], cell 1 2) ∧
    s.hash ([.head], cell 1 2) = s.hash ([.tail], cell 1 2) ∧
    s.hash ([], cell 1 2) = s.hash ([], cell 2 1) ∧
    ¬ allEqual s [(([], cell 1 2), ([], cell 2 1))] = true ∧
    allEqual s [(([], cell 1 2), ([], cell 1 2))] = true := by
  intro s
  have h := equality_walk_exact s (fun n => n) (· + ·) (· = [.tail])
  refine ⟨rfl, h.2.1 _ _ rfl, rfl, fun hwalk => ?_, (h.1 _ _).2 rfl⟩
  cases (h.2.2.1 _ _).1 hwalk

end Nock

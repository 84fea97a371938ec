import Nock.Proofs.Axis
import Nock.Value.Address

/-!
# Edits by the numbers of axes

To put a leaf at `2n` or `2n + 1` is to put a cell of the leaf and its sibling at `n`, so edits are told
by lookups and smaller edits (`edit_by_halving`). Both walks stop where the way runs off the tree, hence an
edit crashes exactly where a lookup does (`replaceAt?_eq_none_iff_findAt?`). On values that are nouns the
two operators are those on nouns (`Value.findAt_ofNoun`, `Value.replaceAt_ofNoun`).
-/

namespace Nock

namespace Noun

variable {way : List Turn} {axis leaf tree : Noun}

theorem replace?_eq_none_iff : replace? way leaf tree = none ↔ find? way tree = none := by
  induction way generalizing tree with
  | nil => simp [replace?_nil, find?]
  | cons d way ih =>
    cases tree with
    | atom a => exact iff_of_true rfl rfl
    | cell h t =>
      obtain ⟨c, n, rfl, hc⟩ := exists_crumb d h t
      rw [← hc, replace?_cons, find?_cons, Option.map_eq_none_iff]
      exact ih

/-- An edit crashes exactly where a lookup does, whatever the leaf. -/
theorem replaceAt?_eq_none_iff_findAt? : replaceAt? axis leaf tree = none ↔ findAt? axis tree = none := by
  cases axis with
  | cell h t => exact iff_of_true rfl rfl
  | atom a =>
    simp only [replaceAt?, findAt?]
    cases Axis.turns? a with
    | none => exact iff_of_true rfl rfl
    | some way => exact replace?_eq_none_iff

end Noun

namespace Value

theorem turns?_ofNoun_atom (a : Nat) : (ofNoun (.atom a)).turns? = Axis.turns? a := rfl

theorem findAt_ofNoun (axis tree : Noun) :
    (ofNoun axis).findAt (ofNoun tree) = ofResult (axis.findAt? tree) := by
  cases axis with
  | cell h t => rfl
  | atom a =>
    unfold findAt Noun.findAt?
    simp only [turns?_ofNoun_atom]
    rcases Axis.turns? a with _ | _ | ⟨d, way⟩
    · rfl
    · rfl
    · cases tree <;> rfl

theorem findAt_int (a : Nat) (n : Noun) : (int a).findAt (ofNoun n) = ofResult ((Noun.atom a).findAt? n) :=
  findAt_ofNoun (.atom a) n

/-- A leaf that is a noun is never refused. -/
theorem replaceAt_ofNoun (axis leaf tree : Noun) :
    (ofNoun axis).replaceAt (ofNoun leaf) (ofNoun tree) = .ok (ofResult (axis.replaceAt? leaf tree)) := by
  cases axis with
  | cell h t => rfl
  | atom a =>
    unfold replaceAt Noun.replaceAt?
    simp only [turns?_ofNoun_atom]
    rcases Axis.turns? a with _ | _ | ⟨d, way⟩
    · rfl
    · rfl
    · cases tree with
      | atom b => rfl
      | cell h t =>
        rw [show ofNoun (Noun.cell h t) = cell h t from rfl]
        simp only [Option.bind_some, Noun.replace?]
        rcases (Noun.cell h t).crumbs? (d :: way) [] with _ | _ | ⟨crumb, crumbs⟩
        · rfl
        · rfl
        · simp only [component_ofNoun]
          rfl

theorem replaceAt_int (a : Nat) (leaf tree : Noun) : (int a).replaceAt (ofNoun leaf) (ofNoun tree) =
    .ok (ofResult ((Noun.atom a).replaceAt? leaf tree)) :=
  replaceAt_ofNoun (.atom a) leaf tree

end Value

open Noun (atom cell findAt? replaceAt?)

/-- Edits obey the inductive definition by axes: the root is replaced by the leaf, and a half of a cell by
putting the leaf and the other half, which has to be there, in place of the cell. Axis 0 and cells name no
place. So an edit crashes exactly where a lookup does. Values that are nouns are edited in the same way. -/
theorem edit_by_halving (leaf tree : Noun) :
    replaceAt? 1 leaf tree = some leaf ∧
    (∀ n, 0 < n → replaceAt? (atom (2 * n)) leaf tree =
      match findAt? (atom (2 * n + 1)) tree with
      | none => none
      | some u => replaceAt? (atom n) (cell leaf u) tree) ∧
    (∀ n, 0 < n → replaceAt? (atom (2 * n + 1)) leaf tree =
      match findAt? (atom (2 * n)) tree with
      | none => none
      | some u => replaceAt? (atom n) (cell u leaf) tree) ∧
    replaceAt? 0 leaf tree = none ∧
    (∀ h t, replaceAt? (cell h t) leaf tree = none) ∧
    (∀ axis, replaceAt? axis leaf tree = none ↔ findAt? axis tree = none) ∧
    ∀ axis, (Value.ofNoun axis).replaceAt (.ofNoun leaf) (.ofNoun tree) =
      .ok (.ofResult (replaceAt? axis leaf tree)) := by
  refine ⟨rfl, fun n hn => ?head, fun n hn => ?tail, rfl, fun _ _ => rfl, fun axis => ?crash,
    fun axis => Value.replaceAt_ofNoun axis leaf tree⟩
  case head =>
    rw [Noun.replaceAt?_double hn]
    cases findAt? (atom (2 * n + 1)) tree <;> rfl
  case tail =>
    rw [Noun.replaceAt?_double_succ hn]
    cases findAt? (atom (2 * n)) tree <;> rfl
  case crash => exact Noun.replaceAt?_eq_none_iff_findAt?

/-- Both halves of a tail are replaced by way of the tail. -/
theorem edit_halves_of_tail : 0 < 3 ∧
    replaceAt? 6 9 (cell 1 (cell 2 3)) = some (cell 1 (cell 9 3)) ∧
    replaceAt? 7 9 (cell 1 (cell 2 3)) = some (cell 1 (cell 2 9)) := by
  have h := edit_by_halving 9 (cell 1 (cell 2 3))
  exact ⟨by decide, (h.2.1 3 (by decide)).trans rfl, (h.2.2.1 3 (by decide)).trans rfl⟩

end Nock

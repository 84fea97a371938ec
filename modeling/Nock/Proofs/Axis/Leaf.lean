import Nock.Proofs.Axis.Compose
import Nock.Proofs.Cell

/-!
# Leaves of all sorts

An edit follows its way first, so a place that is not there is a crash whatever the leaf is. The leaf is looked
at when the innermost cell is built again around it, on the side of the last turn (`Noun.crumbs?_concat`), which
the last binary digit of the axis tells; what is built around that cell are nouns only
(`Value.replaceAt_of_find?`). With no turn there is no cell to build, and the leaf is the result as it is.
-/

namespace Nock

namespace Noun

variable {way : List Turn} {d : Turn} {n u : Noun}

/-- The crumb of the last turn is the first one to be built again. -/
theorem crumbs?_concat (h : find? (way ++ [d]) n = some u) (above : List Crumb) :
    ∃ crumb crumbs, crumbs? (way ++ [d]) n above = some (crumb :: crumbs) ∧ crumb.taken = d := by
  induction way generalizing n above with
  | nil =>
    cases n with
    | atom a => cases h
    | cell l r =>
      obtain ⟨c, n, rfl, hc⟩ := exists_crumb d l r
      exact ⟨c, above, by rw [← hc, List.nil_append, crumbs?_cons, crumbs?], rfl⟩
  | cons d' way ih =>
    cases n with
    | atom a => cases h
    | cell l r =>
      obtain ⟨c, n, rfl, hc⟩ := exists_crumb d' l r
      rw [← hc, List.cons_append, find?_cons] at h
      rw [← hc, List.cons_append, crumbs?_cons]
      exact ih h (c :: above)

end Noun

namespace Axis

/-- The last turn of the way to an axis below the root is told by the last binary digit of the axis. -/
theorem turns?_concat {a : Nat} (h : 2 ≤ a) :
    ∃ way, turns? a = some (way ++ [Turn.ofDigit (a % 2)]) := by
  have hhalf : 0 < a / 2 := by omega
  obtain ⟨way, hway⟩ := exists_turns? hhalf
  refine ⟨way, ?_⟩
  have hdigit := turns?_digit hhalf (Nat.mod_lt a Nat.two_pos)
  rw [Nat.div_add_mod, hway] at hdigit
  exact hdigit

end Axis

namespace Value

variable {axis leaf : Value} {way : List Turn} {d : Turn} {tree u : Noun}

theorem replaceAt_of_turns?_none (h : axis.turns? = none) (leaf : Value) (tree : Noun) :
    axis.replaceAt leaf (ofNoun tree) = .ok crash := by
  unfold replaceAt
  rw [h]

/-- A place that is not there is a crash, whatever the leaf is. -/
theorem replaceAt_of_find?_none (hway : axis.turns? = some way) (h : tree.find? way = none) (leaf : Value) :
    axis.replaceAt leaf (ofNoun tree) = .ok crash := by
  unfold replaceAt
  rw [hway]
  cases way with
  | nil => cases h
  | cons d way =>
    cases tree with
    | atom a => rfl
    | cell l r =>
      have hnone : Noun.replace? (d :: way) 0 (.cell l r) = none := Noun.replace?_eq_none_iff.2 h
      simp only [ofNoun, Option.map_eq_none_iff.1 hnone]

/-- Where there is a cell to build, the leaf is looked at as the half of the last turn. -/
theorem replaceAt_of_find? (hway : axis.turns? = some (way ++ [d])) (h : tree.find? (way ++ [d]) = some u)
    (leaf : Value) : axis.replaceAt leaf (ofNoun tree) =
      (leaf.component (halfName d)).map fun n => ofResult (Noun.replace? (way ++ [d]) n tree) := by
  obtain ⟨crumb, crumbs, hcrumbs, rfl⟩ := Noun.crumbs?_concat h []
  unfold replaceAt Noun.replace?
  rw [hway]
  generalize hcons : way ++ [crumb.taken] = turns at hcrumbs h
  obtain _ | ⟨d, turns⟩ := turns
  · simp at hcons
  cases tree with
  | atom a => cases h
  | cell l r =>
    simp only [ofNoun, hcrumbs]
    cases leaf.component (halfName crumb.taken) <;> rfl

theorem turns?_int (a : Nat) : (int a).turns? = Axis.turns? a := rfl

theorem turns?_eq_none (h : ∀ a : Nat, 1 ≤ a → axis ≠ int a) : axis.turns? = none := by
  cases axis with
  | int i =>
    rcases i with (_ | a) | a
    · rfl
    · exact absurd rfl (h (a + 1) (Nat.succ_pos a))
    · rfl
  | _ => rfl

theorem halfName_ofDigit (a : Nat) :
    halfName (Turn.ofDigit (a % 2)) = if a % 2 = 0 then "cell head" else "cell tail" := by
  rcases Nat.mod_two_eq_zero_or_one a with h | h <;> rw [h] <;> rfl

theorem replaceAt_of_findAt? {a : Nat} (ha : 2 ≤ a) (h : Noun.findAt? (.atom a) tree = some u) (leaf : Value) :
    (int a).replaceAt leaf (ofNoun tree) =
      (leaf.component (if a % 2 = 0 then "cell head" else "cell tail")).map fun n =>
        ofResult (Noun.replaceAt? (.atom a) n tree) := by
  obtain ⟨way, hway⟩ := Axis.turns?_concat ha
  rw [Noun.findAt?_of_turns? hway] at h
  rw [replaceAt_of_find? ((turns?_int a).trans hway) h, halfName_ofDigit]
  simp only [Noun.replaceAt?, hway, Option.bind_some]

end Value

open Noun (atom cell findAt? replaceAt?)

/-- What an edit of a noun does with any axis and any leaf. What is no whole number from 1 on names no place, and
where no place is, the edit crashes; at the root it gives the leaf as it is. Below that a leaf that is no noun
is refused, as a head if the axis is even and as a tail if it is odd, and every other leaf gives a noun. -/
theorem edit_with_any_leaf (leaf : Value) (tree : Noun) :
    (∀ axis : Value, (∀ a : Nat, 1 ≤ a → axis ≠ .int a) →
      axis.replaceAt leaf (.ofNoun tree) = .ok .crash) ∧
    (∀ a : Nat, findAt? (atom a) tree = none → (Value.int a).replaceAt leaf (.ofNoun tree) = .ok .crash) ∧
    (Value.int 1).replaceAt leaf (.ofNoun tree) = .ok leaf ∧
    (∀ (a : Nat) (u : Noun), 2 ≤ a → findAt? (atom a) tree = some u →
      (∀ e, (Value.int a).replaceAt leaf (.ofNoun tree) = .error e ↔ leaf.toNoun? = none ∧
        e = leaf.unfit (if a % 2 = 0 then "cell head" else "cell tail")) ∧
      ∀ v, (Value.int a).replaceAt leaf (.ofNoun tree) = .ok v ↔
        ∃ n new, leaf.toNoun? = some n ∧ replaceAt? (atom a) n tree = some new ∧ v = .ofNoun new) ∧
    ∀ half, (leaf.unfit half).kind = .nounType ∧
      ∃ text, (leaf.unfit half).message? = some (half ++ text) := by
  refine ⟨fun axis haxis => ?none, fun a ha => ?away, rfl, fun a u ha hu => ?below, fun half => ?text⟩
  case none => exact Value.replaceAt_of_turns?_none (Value.turns?_eq_none haxis) leaf tree
  case away =>
    cases hway : Axis.turns? a with
    | none => exact Value.replaceAt_of_turns?_none ((Value.turns?_int a).trans hway) leaf tree
    | some way =>
      rw [Noun.findAt?_of_turns? hway] at ha
      exact Value.replaceAt_of_find?_none ((Value.turns?_int a).trans hway) ha leaf
  case below =>
    rw [Value.replaceAt_of_findAt? ha hu, Value.component_eq]
    cases leaf.toNoun? with
    | none => exact ⟨fun e => by simp [Except.map, eq_comm], fun v => by simp [Except.map]⟩
    | some n =>
      obtain ⟨new, hnew⟩ : ∃ new, replaceAt? (atom a) n tree = some new := by
        refine Option.ne_none_iff_exists'.1 fun hnone => ?_
        rw [Noun.replaceAt?_eq_none_iff_findAt?, hu] at hnone
        cases hnone
      refine ⟨fun e => by simp [Except.map], fun v => ?_⟩
      simp [Except.map, hnew, Value.ofResult, eq_comm]
  case text => exact Value.unfit_error half leaf

/-- A text is no axis, and no leaf below the root. -/
theorem edit_with_any_leaf_below_tail :
    let tree := Value.ofNoun (cell 1 (cell 2 3))
    (Value.text "x").replaceAt (.text "x") tree = .ok .crash ∧
    (Value.int 12).replaceAt (.text "x") tree = .ok .crash ∧
    (Value.int 6).replaceAt (.text "x") tree = .error (.notNoun "cell head" "str") ∧
    (Value.int 7).replaceAt (.int (-1)) tree = .error (.negativeAtom "cell tail" (-1)) ∧
    (Value.int 7).replaceAt (.int 9) tree = .ok (.ofNoun (cell 1 (cell 2 9))) := by
  intro tree
  obtain ⟨hnone, haway, -, hbelow, -⟩ := edit_with_any_leaf (.text "x") (cell 1 (cell 2 3))
  obtain ⟨-, -, -, hnegative, -⟩ := edit_with_any_leaf (.int (-1)) (cell 1 (cell 2 3))
  obtain ⟨-, -, -, hnoun, -⟩ := edit_with_any_leaf (.int 9) (cell 1 (cell 2 3))
  refine ⟨hnone (.text "x") ?_, haway 12 rfl, ((hbelow 6 2 (by decide) rfl).1 _).2 ⟨rfl, rfl⟩,
    ((hnegative 7 3 (by decide) rfl).1 _).2 ⟨rfl, rfl⟩, ((hnoun 7 3 (by decide) rfl).2 _).2 ⟨9, _, rfl, rfl, rfl⟩⟩
  intro a _ h
  cases h

end Nock

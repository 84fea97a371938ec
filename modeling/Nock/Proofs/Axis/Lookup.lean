import Mathlib.Data.List.Induction
import Nock.Proofs.Axis.Edit

/-!
# Lookups after edits

Two ways down are in one of three positions. If one goes on where the other ends, a lookup after an edit
finds part of the leaf, or the edited part of the tree (`find?_append_of_replace?`, `find?_of_replace?_append`).
Otherwise they part at some cell, where the edit keeps the half that the lookup goes on in
(`find?_of_replace?_apart`). Since every way down belongs to an axis (`Axis.turns?_ofTurns`), these are all
lookups after an edit (`lookup_after_edit`).
-/

namespace Nock

namespace Axis

/-- The way to `c` is the way to `a` and from there the way to `b`. -/
def Below (a b c : Nat) : Prop :=
  ∃ way way', turns? a = some way ∧ turns? b = some way' ∧ turns? c = some (way ++ way')

/-- The axis that a way down leads to. -/
def ofTurns (way : List Turn) : Nat :=
  way.foldl (fun a d => match d with
    | .head => 2 * a
    | .tail => 2 * a + 1) 1

theorem ofTurns_head (way : List Turn) : ofTurns (way ++ [.head]) = 2 * ofTurns way := List.foldl_append

theorem ofTurns_tail (way : List Turn) : ofTurns (way ++ [.tail]) = 2 * ofTurns way + 1 := List.foldl_append

theorem ofTurns_pos (way : List Turn) : 0 < ofTurns way := by
  induction way using List.reverseRecOn with
  | nil => exact Nat.one_pos
  | append_singleton way d ih =>
    cases d with
    | head => rw [ofTurns_head]; omega
    | tail => rw [ofTurns_tail]; omega

theorem turns?_ofTurns (way : List Turn) : turns? (ofTurns way) = some way := by
  induction way using List.reverseRecOn with
  | nil => rfl
  | append_singleton way d ih =>
    cases d with
    | head => rw [ofTurns_head, turns?_double (ofTurns_pos way), ih]; rfl
    | tail => rw [ofTurns_tail, turns?_double_succ (ofTurns_pos way), ih]; rfl

theorem turns?_eq_some_iff {a : Nat} {way : List Turn} : turns? a = some way ↔ a = ofTurns way := by
  constructor
  · intro h
    rcases Nat.eq_zero_or_pos a with rfl | hpos
    · cases h
    induction a, hpos using Axis.induction generalizing way with
    | one =>
      cases h
      rfl
    | double n hn ih =>
      rw [turns?_double hn] at h
      obtain ⟨way, hway, rfl⟩ := Option.map_eq_some_iff.1 h
      rw [ofTurns_head, ← ih hway]
    | double_succ n hn ih =>
      rw [turns?_double_succ hn] at h
      obtain ⟨way, hway, rfl⟩ := Option.map_eq_some_iff.1 h
      rw [ofTurns_tail, ← ih hway]
  · rintro rfl
    exact turns?_ofTurns way

/-- Some place below `a` is `c` if the way to `c` begins with the way to `a`. -/
theorem exists_below {a c : Nat} {way way' : List Turn} (ha : turns? a = some way)
    (hc : turns? c = some way') (h : way <+: way') : ∃ b, Below a b c := by
  obtain ⟨rest, rfl⟩ := h
  exact ⟨ofTurns rest, way, rest, ha, turns?_ofTurns rest, hc⟩

end Axis

namespace Noun

variable {way way' : List Turn} {leaf tree new : Noun}

/-- What is not on the side of the crumb is what the crumb remembers. -/
theorem find?_cons_of_ne {c : Crumb} {d : Turn} (h : d ≠ c.taken) (way : List Turn) (n : Noun) :
    find? (d :: way) (c.around n) = find? way c.left := by
  obtain ⟨_ | _, left⟩ := c
  · cases d with
    | head => exact absurd rfl h
    | tail => rfl
  · cases d with
    | head => rfl
    | tail => exact absurd rfl h

/-- An edit keeps the half of a cell that its way leaves. -/
theorem exists_crumb_of_replace? {d : Turn} (h : replace? (d :: way) leaf tree = some new) :
    ∃ c n n', Crumb.taken c = d ∧ tree = c.around n ∧ new = c.around n' ∧
      replace? way leaf n = some n' := by
  cases tree with
  | atom a => cases h
  | cell l r =>
    obtain ⟨c, n, rfl, hc⟩ := exists_crumb d l r
    rw [← hc, replace?_cons] at h
    obtain ⟨n', hn', rfl⟩ := Option.map_eq_some_iff.1 h
    exact ⟨c, n, n', rfl, hc.symm, rfl, hn'⟩

theorem find?_of_replace? (h : replace? way leaf tree = some new) : find? way new = some leaf := by
  induction way generalizing tree new with
  | nil =>
    cases h
    rfl
  | cons d way ih =>
    obtain ⟨c, n, n', rfl, -, rfl, hn'⟩ := exists_crumb_of_replace? h
    rw [find?_cons]
    exact ih hn'

theorem find?_append_of_replace? (h : replace? way leaf tree = some new) (way' : List Turn) :
    find? (way ++ way') new = find? way' leaf := by
  rw [find?_append, find?_of_replace? h]
  rfl

theorem find?_of_replace?_append (h : replace? (way ++ way') leaf tree = some new) :
    ∃ u w, find? way tree = some u ∧ replace? way' leaf u = some w ∧ find? way new = some w := by
  rw [replace?_append] at h
  obtain ⟨u, hu, h⟩ := Option.bind_eq_some_iff.1 h
  obtain ⟨w, hw, h⟩ := Option.bind_eq_some_iff.1 h
  exact ⟨u, w, hu, hw, find?_of_replace? h⟩

theorem find?_of_replace?_apart (h : replace? way leaf tree = some new) (hway : ¬ way <+: way')
    (hway' : ¬ way' <+: way) : find? way' new = find? way' tree := by
  induction way generalizing way' tree new with
  | nil => exact absurd List.nil_prefix hway
  | cons d way ih =>
    obtain _ | ⟨d', way'⟩ := way'
    · exact absurd List.nil_prefix hway'
    obtain ⟨c, n, n', rfl, rfl, rfl, hn'⟩ := exists_crumb_of_replace? h
    by_cases hd : d' = c.taken
    · subst hd
      rw [find?_cons, find?_cons]
      refine ih hn' (fun hpre => hway ?_) (fun hpre => hway' ?_)
      · exact List.cons_prefix_cons.2 ⟨rfl, hpre⟩
      · exact List.cons_prefix_cons.2 ⟨rfl, hpre⟩
    · -- the ways part here, and the edit keeps the half that the lookup goes on in
      rw [find?_cons_of_ne hd, find?_cons_of_ne hd]

end Noun

open Noun (atom cell findAt? replaceAt?)

/-- After an edit at `a`, what stands at or below `a` is what stands there in the leaf, what stands above it is
what stood there with the same edit made, and what stands at any other axis has not changed, present or
not. -/
theorem lookup_after_edit {a c : Nat} {leaf tree new : Noun}
    (h : replaceAt? (atom a) leaf tree = some new) :
    (∀ b, Axis.Below a b c → findAt? (atom c) new = findAt? (atom b) leaf) ∧
    (∀ b, Axis.Below c b a → ∃ u w, findAt? (atom c) tree = some u ∧
      replaceAt? (atom b) leaf u = some w ∧ findAt? (atom c) new = some w) ∧
    ((∀ b, ¬ Axis.Below a b c) → (∀ b, ¬ Axis.Below c b a) →
      findAt? (atom c) new = findAt? (atom c) tree) := by
  simp only [replaceAt?] at h
  obtain ⟨way, ha, h⟩ := Option.bind_eq_some_iff.1 h
  refine ⟨?below, ?above, ?apart⟩
  case below =>
    rintro b ⟨way₁, way', ha', hb, hc⟩
    cases ha.symm.trans ha'
    simp only [findAt?, hb, hc, Option.bind_some]
    exact Noun.find?_append_of_replace? h way'
  case above =>
    rintro b ⟨way', way₁, hc, hb, ha'⟩
    cases ha.symm.trans ha'
    simp only [findAt?, replaceAt?, hb, hc, Option.bind_some]
    exact Noun.find?_of_replace?_append h
  case apart =>
    intro hbelow habove
    simp only [findAt?]
    cases hc : Axis.turns? c with
    | none => rfl
    | some way' =>
      refine Noun.find?_of_replace?_apart h (fun hpre => ?_) fun hpre => ?_
      · obtain ⟨b, hb⟩ := Axis.exists_below ha hc hpre
        exact hbelow b hb
      · obtain ⟨b, hb⟩ := Axis.exists_below hc ha hpre
        exact habove b hb

/-- The head of a pair is edited, and then its tail, the pair and the other half are looked up. -/
theorem lookup_after_edit_of_head :
    replaceAt? 2 (cell 7 8) (cell 1 3) = some (cell (cell 7 8) 3) ∧
    findAt? 5 (cell (cell 7 8) 3) = some 8 ∧
    findAt? 1 (cell (cell 7 8) 3) = some (cell (cell 7 8) 3) ∧
    findAt? 3 (cell (cell 7 8) 3) = some 3 := by
  have h : replaceAt? 2 (cell 7 8) (cell 1 3) = some (cell (cell 7 8) 3) := rfl
  refine ⟨h, ?tail, ?pair, ?other⟩
  case tail =>
    have hbelow : Axis.Below 2 3 5 := ⟨[.head], [.tail], rfl, rfl, rfl⟩
    exact (lookup_after_edit h).1 3 hbelow
  case pair =>
    have habove : Axis.Below 1 2 2 := ⟨[], [.head], rfl, rfl, rfl⟩
    obtain ⟨u, w, hu, hw, hnew⟩ := (lookup_after_edit h).2.1 2 habove
    cases hu
    cases hw
    exact hnew
  case other =>
    refine ((lookup_after_edit h).2.2 ?_ ?_).trans rfl
    · rintro b ⟨way, way', ha, -, hc⟩
      cases ha
      cases hc
    · rintro b ⟨way, way', hc, -, ha⟩
      cases hc
      cases ha

end Nock

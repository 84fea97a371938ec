import Nock.Proofs.Axis.Lookup

/-!
# Edits after edits

An edit with what is there already changes nothing (`replace?_of_find?`), and the second of two edits at one
place wins (`replace?_of_replace?`). Two edits at places that are not on one way go down together to the cell
where their ways part; there each keeps the half that the other one goes on in, so they can be made in either
order (`exists_replace?_of_apart`).
-/

namespace Nock

namespace Noun

variable {way way' : List Turn} {leaf tree new u v x : Noun}

/-- An edit on the other side of a cell changes what the crumb remembers. -/
theorem replace?_cons_of_ne {c : Crumb} {d : Turn} (h : d ≠ c.taken) (way : List Turn) (leaf n : Noun) :
    replace? (d :: way) leaf (c.around n) =
      (replace? way leaf c.left).map fun left => Crumb.around ⟨c.taken, left⟩ n := by
  obtain ⟨_ | _, left⟩ := c
  · cases d with
    | head => exact absurd rfl h
    | tail => exact replace?_cons ⟨.tail, n⟩ way leaf left
  · cases d with
    | head => exact replace?_cons ⟨.head, n⟩ way leaf left
    | tail => exact absurd rfl h

theorem replace?_of_find? (h : find? way tree = some x) : replace? way x tree = some tree := by
  induction way generalizing tree with
  | nil =>
    cases h
    rfl
  | cons d way ih =>
    cases tree with
    | atom a => cases h
    | cell l r =>
      obtain ⟨c, n, rfl, hc⟩ := exists_crumb d l r
      rw [← hc, find?_cons] at h
      rw [← hc, replace?_cons, ih h, Option.map_some]

theorem replace?_of_replace? (h : replace? way u tree = some new) :
    replace? way v new = replace? way v tree := by
  induction way generalizing tree new with
  | nil => rfl
  | cons d way ih =>
    obtain ⟨c, n, n', rfl, rfl, rfl, hn'⟩ := exists_crumb_of_replace? h
    rw [replace?_cons, replace?_cons, ih hn']

/-- Edits at places apart from each other can be made in either order. -/
theorem exists_replace?_of_apart {newU newV : Noun} (hu : replace? way u tree = some newU)
    (hv : replace? way' v tree = some newV) (hway : ¬ way <+: way') (hway' : ¬ way' <+: way) :
    ∃ both, replace? way u newV = some both ∧ replace? way' v newU = some both := by
  induction way generalizing way' tree newU newV with
  | nil => exact absurd List.nil_prefix hway
  | cons d way ih =>
    obtain _ | ⟨d', way'⟩ := way'
    · exact absurd List.nil_prefix hway'
    obtain ⟨c, n, nu, rfl, rfl, rfl, hnu⟩ := exists_crumb_of_replace? hu
    by_cases hd : d' = c.taken
    · subst hd
      rw [replace?_cons] at hv
      obtain ⟨nv, hnv, rfl⟩ := Option.map_eq_some_iff.1 hv
      obtain ⟨both, hbothu, hbothv⟩ := ih hnu hnv
        (fun hpre => hway (List.cons_prefix_cons.2 ⟨rfl, hpre⟩))
        (fun hpre => hway' (List.cons_prefix_cons.2 ⟨rfl, hpre⟩))
      refine ⟨c.around both, ?_, ?_⟩
      · rw [replace?_cons, hbothu, Option.map_some]
      · rw [replace?_cons, hbothv, Option.map_some]
    · -- the ways part here: one edit is made in the half that is taken, the other in the half that is left
      rw [replace?_cons_of_ne hd] at hv
      obtain ⟨left, hleft, rfl⟩ := Option.map_eq_some_iff.1 hv
      refine ⟨Crumb.around ⟨c.taken, left⟩ nu, ?_, ?_⟩
      · rw [replace?_cons ⟨c.taken, left⟩, hnu, Option.map_some]
      · rw [replace?_cons_of_ne hd, hleft, Option.map_some]

/-- An edit can be made wherever something is found. -/
theorem exists_replace?_of_find? (h : find? way tree = some x) (leaf : Noun) :
    ∃ new, replace? way leaf tree = some new := by
  refine Option.ne_none_iff_exists'.1 fun hnone => ?_
  rw [replace?_eq_none_iff.1 hnone] at h
  cases h

end Noun

open Noun (atom cell findAt? replaceAt?)

/-- Where something is found, to put it there again changes nothing; of two edits there, the second wins; and an
edit there and one at a place apart from it, neither being on the way to the other, can be made in either
order. None of these edits crashes. -/
theorem edit_laws {a : Nat} {tree x : Noun} (ha : findAt? (atom a) tree = some x) :
    replaceAt? (atom a) x tree = some tree ∧
    (∀ u v, ∃ new new', replaceAt? (atom a) u tree = some new ∧ replaceAt? (atom a) v new = some new' ∧
      replaceAt? (atom a) v tree = some new') ∧
    ∀ c y u v, findAt? (atom c) tree = some y → (∀ b, ¬ Axis.Below a b c) → (∀ b, ¬ Axis.Below c b a) →
      ∃ newA newC both, replaceAt? (atom a) u tree = some newA ∧ replaceAt? (atom c) v tree = some newC ∧
        replaceAt? (atom a) u newC = some both ∧ replaceAt? (atom c) v newA = some both := by
  obtain ⟨way, hway, ha⟩ := Option.bind_eq_some_iff.1 ha
  simp only [findAt?, replaceAt?, hway, Option.bind_some]
  refine ⟨Noun.replace?_of_find? ha, fun u v => ?again, fun c y u v hc hbelow habove => ?apart⟩
  case again =>
    obtain ⟨new, hu⟩ := Noun.exists_replace?_of_find? ha u
    obtain ⟨new', hv⟩ := Noun.exists_replace?_of_find? ha v
    exact ⟨new, new', hu, (Noun.replace?_of_replace? hu).trans hv, hv⟩
  case apart =>
    obtain ⟨way', hway', hc⟩ := Option.bind_eq_some_iff.1 hc
    simp only [hway', Option.bind_some]
    obtain ⟨newA, hu⟩ := Noun.exists_replace?_of_find? ha u
    obtain ⟨newC, hv⟩ := Noun.exists_replace?_of_find? hc v
    obtain ⟨both, hboth⟩ := Noun.exists_replace?_of_apart hu hv
      (fun hpre => (Axis.exists_below hway hway' hpre).elim hbelow)
      (fun hpre => (Axis.exists_below hway' hway hpre).elim habove)
    exact ⟨newA, newC, both, hu, hv, hboth⟩

/-- The head of a tail is edited, alone and together with the head of the whole. -/
theorem edit_laws_of_halves : findAt? 6 (cell 1 (cell 2 3)) = some 2 ∧
    replaceAt? 6 2 (cell 1 (cell 2 3)) = some (cell 1 (cell 2 3)) ∧
    findAt? 2 (cell 1 (cell 2 3)) = some 1 ∧ (∀ b, ¬ Axis.Below 6 b 2) ∧ (∀ b, ¬ Axis.Below 2 b 6) ∧
    ∃ newA newC both, replaceAt? 6 8 (cell 1 (cell 2 3)) = some newA ∧
      replaceAt? 2 9 (cell 1 (cell 2 3)) = some newC ∧ replaceAt? 6 8 newC = some both ∧
      replaceAt? 2 9 newA = some both := by
  have hfound : findAt? 6 (cell 1 (cell 2 3)) = some 2 := rfl
  have hhead : findAt? 2 (cell 1 (cell 2 3)) = some 1 := rfl
  have hbelow : ∀ b, ¬ Axis.Below 6 b 2 := by
    rintro b ⟨way, way', h, -, hc⟩
    cases h
    cases hc
  have habove : ∀ b, ¬ Axis.Below 2 b 6 := by
    rintro b ⟨way, way', h, -, hc⟩
    cases h
    cases hc
  exact ⟨hfound, (edit_laws hfound).1, hhead, hbelow, habove,
    (edit_laws hfound).2.2 2 1 8 9 hhead hbelow habove⟩

end Nock

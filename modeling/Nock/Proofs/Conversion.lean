import Nock.Value.Rules

/-!
# Conversion and back

The two conversions keep lists of pending work. What they do with such lists, whatever is on them, is
what the rules of conversion say (`convertLoop_convert`, `pairLoop?_visit`): a value that is converted
hands its noun to the sequences that are open around it, or stops all with the place of its own error,
and a noun that is taken apart leaves its pairs on top of the results before it. So conversion is
recursion (`toNoun_eq_nounAt`, `toPairs_ofNoun`), and that one way undoes the other is by induction on
the noun and on the value.
-/

namespace Nock.Value

variable {place : String} {index : Nat} {v : Value} {items : List Value} {n : Noun}

/-- What holds of a sequence if it holds of its items, and of all that is no sequence, holds of all. -/
theorem items_induction {P : Value → Prop} (leaf : ∀ v, v.items? = none → P v)
    (sequence : ∀ v items, v.items? = some items → (∀ item ∈ items, P item) → P v) (v : Value) : P v := by
  cases h : v.items? with
  | none => exact leaf v h
  | some items =>
    refine sequence v items h fun item hitem => ?_
    have := sizeOf_items h
    have := List.sizeOf_lt_of_mem hitem
    exact items_induction leaf sequence item
termination_by sizeOf v

/-! ### The rules, by sequences and other values -/

theorem nounAt_of_items? (h : v.items? = some items) : nounAt place v =
    if items.length < 2 then .error (.shortSequence place items.length)
    else nestedAt place 0 items := by
  cases v <;> cases h <;> rfl

theorem nounAt_of_leaf (h : v.items? = none) : nounAt place v =
    match v.leafNoun with
    | .ok n => .ok n
    | .error e => .error (e place) := by
  cases v with
  | list items => cases h
  | tuple items => cases h
  | _ => rfl

theorem nestedAt_cons_cons (place : String) (index : Nat) (item next : Value) (rest : List Value) :
    nestedAt place index (item :: next :: rest) = (do
      let h ← nounAt (place ++ "[" ++ toString index ++ "]") item
      let t ← nestedAt place (index + 1) (next :: rest)
      return .cell h t) := by
  rw [nestedAt]
  exact List.cons_ne_nil next rest

theorem pairForm_of_items? (h : v.items? = some items) : v.pairForm = nestedPairs items := by
  cases v <;> cases h <;> rfl

theorem nestedPairs_cons_cons (item next : Value) (rest : List Value) :
    nestedPairs (item :: next :: rest) = tuple [item.pairForm, nestedPairs (next :: rest)] := by
  rw [nestedPairs]
  exact List.cons_ne_nil next rest

/-! ### From values to nouns -/

/-- The value hands its noun to the sequences that are open around it, or stops all with its error. -/
def HandsOver (place : String) (v : Value) : Prop :=
  ∀ opened : List OpenSequence, convertLoop place (.convert v) opened = (do
    let n ← nounAt (placeAt place (currentPath opened)) v
    convertLoop place (.give n) opened)

/-- An open sequence of two or more items goes through them to a noun, with the nouns that are done in front. -/
theorem convertLoop_items {item : Value} {rest : List Value} (path : List Nat) (done : List Noun)
    (opened : List OpenSequence) (hlength : 0 < done.length + rest.length)
    (hitems : ∀ v ∈ item :: rest, HandsOver place v) :
    convertLoop place (.convert item) (⟨path, index, done, rest⟩ :: opened) = (do
      let n ← nestedAt (placeAt place path) index (item :: rest)
      convertLoop place (.give (done.foldl (fun t h => .cell h t) n)) opened) := by
  induction rest generalizing item index done with
  | nil =>
    obtain ⟨hitem, -⟩ := List.forall_mem_cons.1 hitems
    obtain ⟨before, done, rfl⟩ := List.exists_cons_of_length_pos hlength
    rw [hitem, nestedAt]
    refine bind_congr fun n => ?_
    rw [convertLoop, nest_ofNoun]
  | cons next rest ih =>
    obtain ⟨hitem, hrest⟩ := List.forall_mem_cons.1 hitems
    rw [hitem, nestedAt_cons_cons]
    simp only [bind_assoc, pure_bind]
    refine bind_congr fun h => ?_
    rw [convertLoop]
    exact ih (h :: done) (by rw [List.length_cons]; omega) hrest

theorem convertLoop_convert (place : String) (v : Value) : HandsOver place v := by
  induction v using items_induction with
  | leaf v h =>
    intro opened
    rw [convertLoop, nounAt_of_leaf h]
    split
    · next hitems => cases h.symm.trans hitems
    · next hitems => cases h.symm.trans hitems
    · cases v.leafNoun <;> rfl
  | sequence v items h ih =>
    intro opened
    rw [convertLoop, nounAt_of_items? h]
    split
    · next item next rest hitems =>
      cases h.symm.trans hitems
      rw [if_neg (by simp)]
      exact convertLoop_items (currentPath opened) [] opened (by simp) ih
    · next short hshort hitems =>
      cases h.symm.trans hitems
      have hlength : items.length < 2 := by
        rcases items with _ | ⟨item, _ | ⟨next, rest⟩⟩
        · exact Nat.zero_lt_two
        · exact Nat.one_lt_two
        · exact absurd rfl (hshort item next rest)
      rw [if_pos hlength]
      rfl
    · next hitems => cases h.symm.trans hitems

theorem toNoun_eq_nounAt (place : String) (v : Value) : v.toNoun place = nounAt place v := by
  have hgive (n : Noun) : convertLoop place (.give n) [] = pure n := by
    rw [convertLoop]
    rfl
  have h := convertLoop_convert place v []
  simp only [hgive, bind_pure] at h
  exact h

/-! ### From nouns to values -/

/-- A noun that is taken apart leaves its pairs on top of the results, and the tasks behind it. -/
theorem pairLoop?_visit (n : Noun) (tasks : List PairTask) (results : List Value) :
    pairLoop? (.visit n :: tasks) results = pairLoop? tasks (pairTree n :: results) := by
  induction n generalizing tasks results with
  | atom a => rw [pairLoop?, pairTree]
  | cell h t ihh iht => rw [pairLoop?, ihh, iht, pairLoop?, pairTree]

theorem pairLoop?_single (n : Noun) : pairLoop? [.visit n] [] = some [pairTree n] := by
  rw [pairLoop?_visit, pairLoop?]

theorem toPairs_ofNoun (n : Noun) : (ofNoun n).toPairs = pairTree n := by
  cases n with
  | atom a => rfl
  | cell h t =>
    show pairs (.cell h t) = _
    rw [pairs, pairLoop?_single]
    rfl

/-! ### There and back -/

theorem nounAt_pairTree (place : String) (n : Noun) : nounAt place (pairTree n) = .ok n := by
  induction n generalizing place with
  | atom a =>
    have ha : ¬ (a : Int) < 0 := by omega
    simp [pairTree, nounAt, leafNoun, ha]
  | cell h t ihh iht =>
    rw [pairTree, nounAt_of_items? rfl, if_neg (by simp), nestedAt_cons_cons, ihh, nestedAt, iht]
    rfl

theorem pairTree_of_leafNoun (h : v.leafNoun = .ok n) : pairTree n = v.pairForm := by
  have whole {i : Int} {e : String → Error} (hi : (if i < 0 then .error e else .ok (.atom i.toNat) :
      Except (String → Error) Noun) = .ok n) : pairTree n = int i := by
    split at hi
    · cases hi
    · cases hi
      rw [pairTree, Int.toNat_of_nonneg (by omega)]
  unfold leafNoun at h
  dsimp only at h
  split at h
  · cases h
    rfl
  · exact whole h
  · split at h
    · exact whole h
    · cases h
  · cases h

theorem pairTree_of_nestedAt (hitems : ∀ v ∈ items, ∀ {place : String} {n : Noun},
    nounAt place v = .ok n → pairTree n = v.pairForm) (h : nestedAt place index items = .ok n) :
    pairTree n = nestedPairs items := by
  induction items generalizing index n with
  | nil => cases h
  | cons item rest ih =>
    obtain ⟨hitem, hrest⟩ := List.forall_mem_cons.1 hitems
    cases rest with
    | nil => exact hitem h
    | cons next rest =>
      rw [nestedAt_cons_cons] at h
      obtain ⟨head, hhead, h⟩ := Error.bind_eq_ok.1 h
      obtain ⟨tail, htail, h⟩ := Error.bind_eq_ok.1 h
      cases h
      rw [nestedPairs_cons_cons, pairTree, hitem hhead, ih hrest htail]

theorem pairTree_of_nounAt (h : nounAt place v = .ok n) : pairTree n = v.pairForm := by
  induction v using items_induction generalizing place n with
  | leaf v hleaf =>
    rw [nounAt_of_leaf hleaf] at h
    split at h
    · next hn =>
      cases h
      exact pairTree_of_leafNoun hn
    · cases h
  | sequence v items hitems ih =>
    rw [nounAt_of_items? hitems] at h
    rw [pairForm_of_items? hitems]
    split at h
    · cases h
    · exact pairTree_of_nestedAt (fun item hitem _ _ hn => ih item hitem hn) h

theorem IsPairs.exists_pairTree (h : IsPairs v) : ∃ n, pairTree n = v := by
  induction h with
  | int n => exact ⟨.atom n, rfl⟩
  | pair _ _ ihh iht =>
    obtain ⟨m, rfl⟩ := ihh
    obtain ⟨n, rfl⟩ := iht
    exact ⟨.cell m n, rfl⟩

/-- Nouns come back from their pairs, and values that convert come back as their pair forms; so pairs of
whole numbers convert, and come back as they are. To take a noun apart leaves one result, and every join
finds the two results that it needs. -/
theorem conversion_round_trip :
    (∀ (place : String) (n : Noun), (ofNoun n).toPairs.toNoun place = .ok n) ∧
    (∀ (place : String) (v : Value) (n : Noun), v.toNoun place = .ok n →
      (ofNoun n).toPairs = v.pairForm) ∧
    (∀ (place : String) (v : Value), IsPairs v →
      ∃ n, v.toNoun place = .ok n ∧ (ofNoun n).toPairs = v) ∧
    ∀ n : Noun, pairLoop? [.visit n] [] = some [(ofNoun n).toPairs] := by
  refine ⟨fun place n => ?_, fun place v n h => ?_, fun place v h => ?_, fun n => ?_⟩
  · rw [toPairs_ofNoun, toNoun_eq_nounAt, nounAt_pairTree]
  · rw [toNoun_eq_nounAt] at h
    rw [toPairs_ofNoun, pairTree_of_nounAt h]
  · obtain ⟨n, rfl⟩ := h.exists_pairTree
    exact ⟨n, by rw [toNoun_eq_nounAt, nounAt_pairTree], toPairs_ofNoun n⟩
  · rw [toPairs_ofNoun, pairLoop?_single]

/-- A list of an integer element, a pair and a cell, and the pairs that it comes back as. -/
theorem mixed_list_round_trip :
    let v := list [scalar (.whole (.integer true 64) 1), tuple [int 2, int 3], cell 4 5]
    let w := tuple [int 1, tuple [tuple [int 2, int 3], tuple [int 4, int 5]]]
    v.toNoun "value" = .ok (.cell 1 (.cell (.cell 2 3) (.cell 4 5))) ∧
      (ofNoun (.cell 1 (.cell (.cell 2 3) (.cell 4 5)))).toPairs = w ∧
      IsPairs w ∧ ∃ n, w.toNoun "value" = .ok n ∧ (ofNoun n).toPairs = w := by
  intro v w
  have hv : v.toNoun "value" = .ok (.cell 1 (.cell (.cell 2 3) (.cell 4 5))) := by
    rw [toNoun_eq_nounAt]
    rfl
  have hw : IsPairs w := .pair (.int 1) (.pair (.pair (.int 2) (.int 3)) (.pair (.int 4) (.int 5)))
  exact ⟨hv, conversion_round_trip.2.1 "value" v _ hv, hw, conversion_round_trip.2.2.1 "value" w hw⟩

end Nock.Value

import Mathlib.Data.List.Lex
import Nock.Proofs.Cell
import Nock.Proofs.Conversion
import Nock.Value.Fault

/-!
# Conversion by faults

Conversion ends with the noun of a value where no part is at fault, and otherwise with the fault that is met
first (`Ends`, `ends_nounAt`). For a sequence this is by induction on its items (`endsIn_nestedAt`): it is long
enough, or else at fault before any of them; the items in front of the first one with a fault have none, so
their paths come before, and the fault of that item is the first of the whole (`FirstFault.of_item`).
-/

namespace Nock

theorem Noun.ofList?_concat {items : List Noun} (h : items ≠ []) (last : Noun) :
    ofList? (items ++ [last]) = some (nest items last) := by
  obtain rfl | ⟨init, before, rfl⟩ := List.eq_nil_or_concat items
  · exact absurd rfl h
  · simp [ofList?]

namespace Value

variable {place : String} {index : Nat} {v item : Value} {items before after : List Value} {n : Noun}
  {path : List Nat} {fault : String → Error}

/-! ### Parts and their faults -/

theorem faultAt?_item (h : v.items? = some items) (i : Nat) (path : List Nat) :
    v.faultAt? (i :: path) = items[i]?.bind (·.faultAt? path) := by
  rw [faultAt?, part?, h, Option.bind_some, Option.bind_assoc]
  rfl

theorem faultAt?_of_leaf (h : v.items? = none) (i : Nat) (path : List Nat) :
    v.faultAt? (i :: path) = none := by
  rw [faultAt?, part?, h]
  rfl

theorem fault?_of_items? (h : v.items? = some items) : v.fault? =
    if items.length < 2 then some (.shortSequence · items.length) else none := by
  rw [fault?, h]

theorem fault?_cases (h : v.fault? = some fault) :
    (∃ items, v.items? = some items ∧ items.length < 2 ∧ fault = (.shortSequence · items.length)) ∨
    (∃ i, v.items? = none ∧ v.integer? = some i ∧ i < 0 ∧ fault = (.negative · i)) ∨
    (v.items? = none ∧ v.integer? = none ∧ v.isCell = false ∧ fault = (.notInteger · v.typeName)) := by
  unfold fault? at h
  split at h
  · next items hitems =>
    rw [Option.ite_none_right_eq_some] at h
    obtain ⟨hlength, hfault⟩ := h
    exact .inl ⟨items, hitems, hlength, (Option.some.inj hfault).symm⟩
  · next i hitems hinteger =>
    rw [Option.ite_none_right_eq_some] at h
    obtain ⟨hi, hfault⟩ := h
    exact .inr (.inl ⟨i, hitems, hinteger, hi, (Option.some.inj hfault).symm⟩)
  · next hitems hinteger =>
    rw [Option.ite_none_left_eq_some] at h
    obtain ⟨hcell, hfault⟩ := h
    exact .inr (.inr ⟨hitems, hinteger, Bool.eq_false_iff.2 hcell, (Option.some.inj hfault).symm⟩)

/-- A fault is of the type or of the value, and its text begins with the place. -/
theorem fault?_error (h : v.fault? = some fault) (place : String) :
    (fault place).kind = (if v.items?.isSome || v.integer?.isSome then .value else .type) ∧
      ∃ text, (fault place).message? = some (place ++ text) := by
  obtain ⟨items, hitems, -, rfl⟩ | ⟨i, hitems, hinteger, -, rfl⟩ | ⟨hitems, hinteger, -, rfl⟩ := fault?_cases h
  · exact ⟨by rw [hitems]; rfl, _, by simp only [Error.message?, String.append_assoc]; rfl⟩
  · exact ⟨by rw [hitems, hinteger]; rfl, _, by simp only [Error.message?, String.append_assoc]; rfl⟩
  · exact ⟨by rw [hitems, hinteger]; rfl, _, by simp only [Error.message?, String.append_assoc]; rfl⟩

/-- A whole number converts to an atom from zero on. -/
theorem leafNoun_of_integer? {i : Int} (h : v.integer? = some i) :
    v.leafNoun = if i < 0 then .error (.negative · i) else .ok (.atom i.toNat) := by
  cases v with
  | int j =>
    cases h
    rfl
  | scalar x =>
    cases x with
    | real t x => cases h
    | whole t j =>
      rw [integer?, Option.ite_none_right_eq_some] at h
      obtain ⟨hinteger, hj⟩ := h
      cases hj
      exact if_pos hinteger
  | _ => cases h

theorem leafNoun_of_not_integer (hitems : v.items? = none) (hcell : v.isCell = false)
    (h : v.integer? = none) : v.leafNoun = .error (.notInteger · v.typeName) := by
  cases v with
  | list items => cases hitems
  | tuple items => cases hitems
  | cell h t => cases hcell
  | int j => cases h
  | scalar x =>
    cases x with
    | real t x => rfl
    | whole t j =>
      rw [integer?, ite_eq_right_iff] at h
      exact if_neg fun hinteger => nomatch h hinteger
  | _ => rfl

theorem converted?_of_leaf (hitems : v.items? = none) (hcell : v.isCell = false) : v.converted? =
    match v.integer? with
    | some (.ofNat n) => some (.atom n)
    | _ => none := by
  cases v with
  | list items => cases hitems
  | tuple items => cases hitems
  | cell h t => cases hcell
  | _ => rfl

theorem converted?_of_items? (h : v.items? = some items) :
    v.converted? = (convertedAll? items).bind Noun.ofList? := by
  cases v <;> cases h <;> rfl

namespace FirstFault

theorem of_root (h : v.fault? = some fault) : v.FirstFault [] fault :=
  ⟨h, fun _ hlex => nomatch hlex⟩

theorem of_item (hv : v.items? = some (before ++ item :: after)) (hlong : v.fault? = none)
    (hbefore : ∀ w ∈ before, ∀ path, w.faultAt? path = none) (h : item.FirstFault path fault) :
    v.FirstFault (before.length :: path) fault := by
  have hitem : (before ++ item :: after)[before.length]? = some item := by simp
  refine ⟨?_, fun earlier hlex => ?_⟩
  · rw [faultAt?_item hv, hitem, Option.bind_some]
    exact h.found
  · cases hlex with
    | nil => exact hlong
    | cons hlex =>
      rw [faultAt?_item hv, hitem, Option.bind_some]
      exact h.first _ hlex
    | rel hlt =>
      rw [faultAt?_item hv, List.getElem?_append_left hlt, List.getElem?_eq_getElem hlt,
        Option.bind_some]
      exact hbefore _ (List.getElem_mem hlt) _

theorem unique {path' : List Nat} {fault' : String → Error} (h : v.FirstFault path fault)
    (h' : v.FirstFault path' fault') : path = path' ∧ fault = fault' := by
  have hpath : path = path' := by
    refine Std.Trichotomous.trichotomous (r := List.Lex (· < ·)) path path' (fun hlex => ?_) fun hlex => ?_
    · have := h.found.symm.trans (h'.first path hlex)
      cases this
    · have := h'.found.symm.trans (h.first path' hlex)
      cases this
  subst hpath
  exact ⟨rfl, Option.some.inj (h.found.symm.trans h'.found)⟩

end FirstFault

/-! ### How conversion ends -/

/-- With the noun of a value where nothing is at fault, or with its first fault. -/
inductive Ends (place : String) (v : Value) : Except Error Noun → Prop
  | noun {n : Noun} : (∀ path, v.faultAt? path = none) → v.converted? = some n → Ends place v (.ok n)
  | fault {path : List Nat} {fault : String → Error} : v.FirstFault path fault → v.converted? = none →
      Ends place v (.error (fault (placeAt place path.reverse)))

/-- The same for the items of a sequence, the first of them at `index`. -/
inductive EndsIn (place : String) (index : Nat) (items : List Value) : Except Error Noun → Prop
  | noun (init : List Noun) (last : Noun) : (∀ item ∈ items, ∀ path, item.faultAt? path = none) →
      convertedAll? items = some (init ++ [last]) → init.length + 1 = items.length →
      EndsIn place index items (.ok (.nest init last))
  | fault (before after : List Value) (item : Value) {path : List Nat} {fault : String → Error} :
      items = before ++ item :: after → (∀ w ∈ before, ∀ path, w.faultAt? path = none) →
      item.FirstFault path fault → convertedAll? items = none → EndsIn place index items
        (.error (fault (placeAt place (path.reverse ++ [index + before.length]))))

theorem ends_leaf (place : String) (h : v.items? = none) : Ends place v (nounAt place v) := by
  have sound (hfault : v.fault? = none) (path : List Nat) : v.faultAt? path = none := by
    cases path with
    | nil => exact hfault
    | cons i path => exact faultAt?_of_leaf h i path
  rw [nounAt_of_leaf h]
  cases hcell : v.isCell with
  | true =>
    cases v with
    | cell l r => exact .noun (sound rfl) rfl
    | _ => cases hcell
  | false =>
    have hconverted := converted?_of_leaf h hcell
    cases hinteger : v.integer? with
    | none =>
      rw [hinteger] at hconverted
      have hfault : v.fault? = some (.notInteger · v.typeName) := by simp [fault?, h, hinteger, hcell]
      rw [leafNoun_of_not_integer h hcell hinteger]
      exact .fault (.of_root hfault) hconverted
    | some i =>
      rw [hinteger] at hconverted
      have hfault : v.fault? = if i < 0 then some (.negative · i) else none := by rw [fault?, h, hinteger]
      rw [leafNoun_of_integer? hinteger]
      cases i with
      | ofNat n => exact .noun (sound hfault) hconverted
      | negSucc m =>
        rw [if_pos (Int.negSucc_lt_zero m)] at hfault ⊢
        exact .fault (.of_root hfault) hconverted

theorem placeAt_concat (place : String) (path : List Nat) (i : Nat) :
    placeAt place (path ++ [i]) = placeAt (place ++ "[" ++ toString i ++ "]") path :=
  List.foldr_append

/-- The first item ends the conversion of all with its fault, if it has one. -/
theorem endsIn_of_fault (index : Nat) (rest : List Value) (h : item.FirstFault path fault)
    (hconverted : item.converted? = none) : EndsIn place index (item :: rest)
      (.error (fault (placeAt (place ++ "[" ++ toString index ++ "]") path.reverse))) := by
  rw [← placeAt_concat]
  refine .fault [] rest item rfl (fun w hw => nomatch hw) h ?_
  rw [convertedAll?, hconverted]
  rfl

theorem endsIn_nestedAt (place : String) (index : Nat) (hne : items ≠ [])
    (hitems : ∀ item ∈ items, ∀ place, Ends place item (nounAt place item)) :
    EndsIn place index items (nestedAt place index items) := by
  induction items generalizing index with
  | nil => exact absurd rfl hne
  | cons item rest ih =>
    obtain ⟨hitem, hrest⟩ := List.forall_mem_cons.1 hitems
    have hend := hitem (place ++ "[" ++ toString index ++ "]")
    cases rest with
    | nil =>
      rw [nestedAt]
      generalize nounAt _ item = r at hend ⊢
      cases hend with
      | noun hsound hconverted =>
        refine .noun [] _ (List.forall_mem_singleton.2 hsound) ?_ rfl
        simp [convertedAll?, hconverted]
      | fault hfirst hconverted => exact endsIn_of_fault index [] hfirst hconverted
    | cons next rest =>
      rw [nestedAt_cons_cons]
      have hends := ih (index + 1) (List.cons_ne_nil next rest) hrest
      generalize nounAt _ item = r at hend ⊢
      generalize nestedAt place (index + 1) (next :: rest) = rs at hends ⊢
      cases hend with
      | fault hfirst hconverted => exact endsIn_of_fault index (next :: rest) hfirst hconverted
      | @noun head hsound hconverted =>
        cases hends with
        | noun init last hsounds hall hlen =>
          refine .noun (head :: init) last (List.forall_mem_cons.2 ⟨hsound, hsounds⟩) ?_ ?_
          · rw [convertedAll?, hconverted, hall]
            rfl
          · rw [List.length_cons, hlen, List.length_cons (a := item)]
        | fault before after w hsplit hbefore hfirst hall =>
          have hindex : index + 1 + before.length = index + (item :: before).length := by
            rw [List.length_cons]
            omega
          rw [hindex]
          refine .fault (item :: before) after w (by rw [hsplit]; rfl)
            (List.forall_mem_cons.2 ⟨hsound, hbefore⟩) hfirst ?_
          rw [convertedAll?, hconverted, hall]
          rfl

theorem converted?_of_short (h : v.items? = some items) (hlength : items.length < 2) :
    v.converted? = none := by
  rw [converted?_of_items? h]
  obtain _ | ⟨item, _ | ⟨next, rest⟩⟩ := items
  · rfl
  · rw [convertedAll?]
    cases item.converted? <;> rfl
  · exact absurd hlength (by simp)

theorem ends_nounAt (place : String) (v : Value) : Ends place v (nounAt place v) := by
  induction v using items_induction generalizing place with
  | leaf v h => exact ends_leaf place h
  | sequence v items h ih =>
    rw [nounAt_of_items? h]
    by_cases hlength : items.length < 2
    · have hfault : v.fault? = some (.shortSequence · items.length) := by
        rw [fault?_of_items? h, if_pos hlength]
      rw [if_pos hlength]
      exact .fault (.of_root hfault) (converted?_of_short h hlength)
    · have hlong : v.fault? = none := by rw [fault?_of_items? h, if_neg hlength]
      have hend := endsIn_nestedAt place 0 (by rintro rfl; exact hlength Nat.zero_lt_two) ih
      rw [if_neg hlength]
      generalize nestedAt place 0 items = r at hend
      cases hend with
      | noun init last hsound hall hlen =>
        have hinit : init ≠ [] := by
          rintro rfl
          exact hlength (hlen ▸ Nat.one_lt_two)
        refine .noun (fun path => ?_) ?_
        · cases path with
          | nil => exact hlong
          | cons i path =>
            rw [faultAt?_item h, Option.bind_eq_none_iff]
            exact fun item hitem => hsound item (List.mem_of_getElem? hitem) path
        · rw [converted?_of_items? h, hall]
          exact Noun.ofList?_concat hinit last
      | fault before after item hsplit hbefore hfirst hall =>
        rw [Nat.zero_add, ← List.reverse_cons]
        refine .fault (.of_item (hsplit ▸ h) hlong hbefore hfirst) ?_
        rw [converted?_of_items? h, hall]
        rfl

/-! ### Conversion -/

theorem toNoun_eq_ok_iff : v.toNoun place = .ok n ↔ v.converted? = some n := by
  have hend := ends_nounAt place v
  rw [toNoun_eq_nounAt]
  generalize nounAt place v = r at hend
  cases hend with
  | noun hsound hconverted => simp [hconverted]
  | fault hfirst hconverted => simp [hconverted]

theorem converted?_eq_none_iff : v.converted? = none ↔ ∃ path fault, v.faultAt? path = some fault := by
  have hend := ends_nounAt "" v
  generalize nounAt "" v = r at hend
  cases hend with
  | noun hsound hconverted => simp [hconverted, hsound]
  | fault hfirst hconverted => exact iff_of_true hconverted ⟨_, _, hfirst.found⟩

theorem toNoun_eq_error_iff {e : Error} : v.toNoun place = .error e ↔
    ∃ path fault, v.FirstFault path fault ∧ e = fault (placeAt place path.reverse) := by
  have hend := ends_nounAt place v
  rw [toNoun_eq_nounAt]
  generalize nounAt place v = r at hend
  cases hend with
  | noun hsound hconverted =>
    refine iff_of_false (fun h => nomatch h) ?_
    rintro ⟨path, fault, hfirst, -⟩
    cases (hsound path).symm.trans hfirst.found
  | fault hfirst hconverted =>
    constructor
    · intro h
      cases h
      exact ⟨_, _, hfirst, rfl⟩
    · rintro ⟨path', fault', hfirst', rfl⟩
      obtain ⟨rfl, rfl⟩ := hfirst.unique hfirst'
      rfl

theorem toNoun_error_kind {e : Error} (h : v.toNoun place = .error e) : e.kind ≠ .nounType := by
  obtain ⟨path, fault, hfirst, rfl⟩ := toNoun_eq_error_iff.1 h
  obtain ⟨w, -, hw⟩ := Option.bind_eq_some_iff.1 hfirst.found
  rw [(fault?_error hw _).1]
  split <;> decide

end Value

open Value

/-- A value converts to its noun if no part of it is at fault, and is refused with its first fault otherwise, told
with the indices that lead there. A fault is one of the value for a sequence that is too short and a whole number
below zero, and one of the type for all else, and its text begins with the place. No cell that is built of
converted items is refused, as that would be an error of another kind. -/
theorem conversion_by_faults (place : String) (v : Value) :
    (∀ n, v.toNoun place = .ok n ↔ v.converted? = some n) ∧
    (v.converted? = none ↔ ∃ path fault, v.faultAt? path = some fault) ∧
    (∀ e, v.toNoun place = .error e ↔
      ∃ path fault, v.FirstFault path fault ∧ e = fault (placeAt place path.reverse)) ∧
    (∀ (w : Value) (fault : String → Error), w.fault? = some fault → ∀ place,
      (fault place).kind = (if w.items?.isSome || w.integer?.isSome then .value else .type) ∧
        ∃ text, (fault place).message? = some (place ++ text)) ∧
    (∀ e, v.toNoun place = .error e → e.kind ≠ .nounType) ∧
    ∀ items e, Value.nest items = .error e → e.kind = .nounType :=
  ⟨fun _ => toNoun_eq_ok_iff, converted?_eq_none_iff, fun _ => toNoun_eq_error_iff,
    fun _ _ h place => fault?_error h place, fun _ => toNoun_error_kind, fun _ _ => nest_error⟩

/-- The number below zero is met before the text, which is no number. -/
theorem conversion_by_faults_of_pair :
    let v := tuple [int 1, list [int 2, int (-4)], text "x"]
    let e := Error.negative "subject[1][1]" (-4)
    v.toNoun "subject" = .error e ∧ e.kind ≠ .nounType ∧
    (∃ path fault, v.FirstFault path fault ∧ e = fault (placeAt "subject" path.reverse)) ∧
    (int (-4)).fault? = some (.negative · (-4)) ∧ e.kind = .value ∧
    Value.nest [] = .error .tooFewNouns ∧ Error.tooFewNouns.kind = .nounType := by
  intro v e
  have h := conversion_by_faults "subject" v
  have hv : v.toNoun "subject" = .error e := by
    rw [toNoun_eq_nounAt]
    rfl
  have hfault : (int (-4)).fault? = some (.negative · (-4)) := rfl
  exact ⟨hv, h.2.2.2.2.1 e hv, (h.2.2.1 e).1 hv, hfault, (h.2.2.2.1 _ _ hfault _).1, rfl, h.2.2.2.2.2 [] _ rfl⟩

end Nock

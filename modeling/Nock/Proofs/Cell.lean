import Mathlib.Data.List.Induction
import Nock.Value.Check

/-!
# Cells of values

A value is stored as the noun that it is, and refused with the half that it was to be if it is none
(`Value.component_eq`). Some items are nested from the end, and the head of a cell is looked at before its tail,
so the last item but one comes before the last one, and the others follow from right to left
(`Value.nestOrder`). Once the innermost cell stands, every tail is a noun, and only a head can be refused
(`Value.pairOnto_reverse`). So nesting ends with the cell of all items, or with the first of them in this order
that is no noun (`Value.nestEnds_nest`).
-/

namespace Nock

namespace Value

/-- The error about a value that is no noun and is to be a half of a cell. -/
def unfit (half : String) : Value → Error
  | int i => .negativeAtom half i
  | crash => .crashStored half
  | v => .notNoun half v.typeName

/-- Whether the item at an index is no noun. -/
def unfitAt (items : List Value) (i : Nat) : Bool := items[i]?.any (·.toNoun?.isNone)

/-- The indices of so many items, in the order in which the items are looked at when they are nested. -/
def nestOrder : (count : Nat) → List Nat
  | count + 2 => count :: (count + 1) :: (List.range count).reverse
  | _ => []

variable {v head tail : Value} {items : List Value} {n t : Noun} {half : String} {e : Error}

theorem eq_ofNoun_of_toNoun? (h : v.toNoun? = some n) : v = ofNoun n := by
  unfold toNoun? at h
  split at h
  · cases h
    rfl
  · cases h
    rfl
  · cases h

theorem component_eq (half : String) (v : Value) : v.component half =
    match v.toNoun? with
    | some n => .ok n
    | none => .error (v.unfit half) := by
  cases v with
  | int i =>
    cases i with
    | ofNat a => exact component_ofNoun half (.atom a)
    | negSucc a => exact if_pos (Int.negSucc_lt_zero a)
  | _ => rfl

theorem component_of_unfit (h : v.toNoun? = none) : v.component half = .error (v.unfit half) := by
  rw [component_eq, h]

/-- What is no noun is refused as none, and the text tells which half of the cell it was to be. -/
theorem unfit_error (half : String) (v : Value) :
    (v.unfit half).kind = .nounType ∧ ∃ text, (v.unfit half).message? = some (half ++ text) := by
  unfold unfit
  split
  · exact ⟨rfl, _, by simp only [Error.message?, String.append_assoc]; rfl⟩
  · exact ⟨rfl, _, rfl⟩
  · exact ⟨rfl, _, by simp only [Error.message?, String.append_assoc]; rfl⟩

/-! ### Pairs -/

theorem pair_of_unfit_head (h : head.toNoun? = none) :
    pair head tail = .error (head.unfit "cell head") := by
  rw [pair, component_of_unfit h]
  rfl

theorem pair_of_unfit_tail (h : tail.toNoun? = none) :
    pair (ofNoun n) tail = .error (tail.unfit "cell tail") := by
  rw [pair, component_ofNoun, component_of_unfit h]
  rfl

/-! ### Nested items -/

theorem unfitAt_append (front behind : List Value) (x : Value) :
    unfitAt (front ++ x :: behind) front.length = x.toNoun?.isNone := by
  simp [unfitAt]

theorem unfitAt_map_ofNoun (ns : List Noun) (i : Nat) : unfitAt (ns.map ofNoun) i = false := by
  rw [unfitAt, List.getElem?_map]
  cases ns[i]? <;> simp

/-- In front of a noun, which is made of the items `behind`, only a head can be refused. -/
theorem pairOnto_reverse (front behind : List Value) (t : Noun) :
    (∃ ns : List Noun, front = ns.map ofNoun ∧
      pairOnto (ofNoun t) front.reverse = .ok (ofNoun (.nest ns t))) ∨
    ∃ i item, (List.range front.length).reverse.find? (unfitAt (front ++ behind)) = some i ∧
      front[i]? = some item ∧ pairOnto (ofNoun t) front.reverse = .error (item.unfit "cell head") := by
  induction front using List.reverseRecOn generalizing behind t with
  | nil => exact .inl ⟨[], rfl, rfl⟩
  | append_singleton front x ih =>
    have hrange : (List.range (front ++ [x]).length).reverse =
        front.length :: (List.range front.length).reverse := by
      simp [List.range_succ]
    have hx := unfitAt_append front behind x
    rw [List.reverse_append, List.reverse_singleton, List.singleton_append, pairOnto, hrange,
      List.find?_cons, List.append_assoc, List.singleton_append, hx]
    cases h : x.toNoun? with
    | none =>
      refine .inr ⟨front.length, x, rfl, by simp, ?_⟩
      rw [pair_of_unfit_head h]
      rfl
    | some n =>
      obtain rfl := eq_ofNoun_of_toNoun? h
      rw [pair_ofNoun]
      obtain ⟨ns, rfl, hok⟩ | ⟨i, item, hfind, hitem, herror⟩ := ih (ofNoun n :: behind) (.cell n t)
      · refine .inl ⟨ns ++ [n], by simp, ?_⟩
        rw [Noun.nest_append]
        exact hok
      · refine .inr ⟨i, item, hfind, ?_, herror⟩
        obtain ⟨hlt, -⟩ := List.getElem?_eq_some_iff.1 hitem
        rw [List.getElem?_append_left hlt, hitem]

/-- How nesting of some items ends. -/
inductive NestEnds (items : List Value) : Except Error Noun → Prop
  | short : items.length < 2 → NestEnds items (.error .tooFewNouns)
  | noun {front : List Noun} {last : Noun} : front ≠ [] → items = (front ++ [last]).map ofNoun →
      NestEnds items (.ok (.nest front last))
  | unfit {i : Nat} {item : Value} : (nestOrder items.length).find? (unfitAt items) = some i →
      items[i]? = some item →
      NestEnds items (.error (item.unfit (if i + 1 = items.length then "cell tail" else "cell head")))

/-- The item that is looked at first and is no noun, of two or more. -/
theorem find?_nestOrder (front : List Value) (before last : Value) :
    (nestOrder (front ++ [before, last]).length).find? (unfitAt (front ++ [before, last])) =
      if before.toNoun? = none then some front.length
      else if last.toNoun? = none then some (front.length + 1)
      else (List.range front.length).reverse.find? (unfitAt (front ++ [before, last])) := by
  have hbefore := unfitAt_append front [last] before
  have hlast := unfitAt_append (front ++ [before]) [] last
  rw [List.append_assoc, List.length_append] at hlast
  have horder : nestOrder (front ++ [before, last]).length =
      front.length :: (front.length + 1) :: (List.range front.length).reverse := by
    rw [List.length_append]
    rfl
  rw [horder, List.find?_cons, hbefore, List.find?_cons]
  cases before.toNoun? with
  | none => rfl
  | some b =>
    rw [show unfitAt (front ++ [before, last]) (front.length + 1) = _ from hlast]
    cases last.toNoun? <;> rfl

theorem nest_concat (front : List Value) (before last : Value) : nest (front ++ [before, last]) =
    (pair before last >>= fun n => pairOnto (ofNoun n) front.reverse) >>= (·.component "cell tail") := by
  rw [nest, List.reverse_append]
  rfl

theorem nestEnds_concat (front : List Value) (before last : Value) :
    NestEnds (front ++ [before, last]) (nest (front ++ [before, last])) := by
  have hfind := find?_nestOrder front before last
  have hlength : (front ++ [before, last]).length = front.length + 2 := List.length_append
  rw [nest_concat]
  cases hb : before.toNoun? with
  | none =>
    rw [if_pos hb] at hfind
    have hitem : (front ++ [before, last])[front.length]? = some before := by simp
    have h := NestEnds.unfit hfind hitem
    rw [if_neg (by omega)] at h
    rw [pair_of_unfit_head hb]
    exact h
  | some b =>
    rw [if_neg (by simp [hb])] at hfind
    obtain rfl := eq_ofNoun_of_toNoun? hb
    cases hl : last.toNoun? with
    | none =>
      rw [if_pos hl] at hfind
      have hitem : (front ++ [ofNoun b, last])[front.length + 1]? = some last := by simp
      have h := NestEnds.unfit hfind hitem
      rw [if_pos hlength.symm] at h
      rw [pair_of_unfit_tail hl]
      exact h
    | some l =>
      rw [if_neg (by simp [hl])] at hfind
      obtain rfl := eq_ofNoun_of_toNoun? hl
      rw [pair_ofNoun]
      show NestEnds _ (pairOnto (ofNoun (.cell b l)) front.reverse >>= _)
      obtain ⟨ns, rfl, hok⟩ | ⟨i, item, hrest, hitem, herror⟩ :=
        pairOnto_reverse front [ofNoun b, ofNoun l] (.cell b l)
      · have h : NestEnds (ns.map ofNoun ++ [ofNoun b, ofNoun l]) (.ok (.nest (ns ++ [b]) l)) :=
          .noun (by simp) (by simp)
        rw [Noun.nest_append] at h
        rw [hok]
        show NestEnds _ ((ofNoun _).component "cell tail")
        rw [component_ofNoun]
        exact h
      · obtain ⟨hlt, -⟩ := List.getElem?_eq_some_iff.1 hitem
        rw [← List.getElem?_append_left hlt] at hitem
        have h := NestEnds.unfit (hfind.trans hrest) hitem
        rw [if_neg (by omega)] at h
        rw [herror]
        exact h

theorem nestEnds_nest (items : List Value) : NestEnds items (nest items) := by
  rcases items.eq_nil_or_concat with rfl | ⟨items, last, rfl⟩
  · exact .short Nat.two_pos
  rcases items.eq_nil_or_concat with rfl | ⟨front, before, rfl⟩
  · exact .short Nat.one_lt_two
  · simp only [List.concat_eq_append, List.append_assoc]
    exact nestEnds_concat front before last

theorem nest_of_short (h : items.length < 2) : nest items = .error .tooFewNouns := by
  rcases items with _ | ⟨v, _ | ⟨w, items⟩⟩
  · rfl
  · rfl
  · exact absurd h (by simp)

theorem nest_ofNoun_concat {front : List Noun} (h : front ≠ []) (last : Noun) :
    nest ((front ++ [last]).map ofNoun) = .ok (.nest front last) := by
  obtain ⟨before, rest, hrest⟩ := List.exists_cons_of_ne_nil (mt List.reverse_eq_nil_iff.1 h)
  obtain rfl : (before :: rest).reverse = front := by rw [← hrest, List.reverse_reverse]
  rw [Noun.nest, List.foldr_reverse, ← List.reverse_cons]
  exact nest_ofNoun last before rest

theorem nest_eq_ok_iff : nest items = .ok n ↔
    ∃ front last, front ≠ [] ∧ items = (front ++ [last]).map ofNoun ∧ n = .nest front last := by
  constructor
  · intro h
    have hend := nestEnds_nest items
    rw [h] at hend
    cases hend with
    | noun hne hitems => exact ⟨_, _, hne, hitems, rfl⟩
  · rintro ⟨front, last, hne, rfl, rfl⟩
    exact nest_ofNoun_concat hne last

theorem nest_eq_error_iff (hlength : 2 ≤ items.length) : nest items = .error e ↔
    ∃ i item, (nestOrder items.length).find? (unfitAt items) = some i ∧ items[i]? = some item ∧
      e = item.unfit (if i + 1 = items.length then "cell tail" else "cell head") := by
  have hend := nestEnds_nest items
  generalize nest items = r at hend
  constructor
  · rintro rfl
    cases hend with
    | short h => omega
    | unfit hfind hitem => exact ⟨_, _, hfind, hitem, rfl⟩
  · rintro ⟨i, item, hfind, hitem, rfl⟩
    cases hend with
    | short h => omega
    | noun hne hitems =>
      have hunfit := List.find?_some hfind
      rw [hitems, unfitAt_map_ofNoun] at hunfit
      cases hunfit
    | unfit hfind' hitem' =>
      cases hfind.symm.trans hfind'
      cases hitem.symm.trans hitem'
      rfl

/-- What does not make a cell is refused as no noun. -/
theorem nest_error (h : nest items = .error e) : e.kind = .nounType := by
  by_cases hlength : items.length < 2
  · rw [nest_of_short hlength] at h
    cases h
    rfl
  · obtain ⟨i, item, -, -, rfl⟩ := (nest_eq_error_iff (Nat.le_of_not_lt hlength)).1 h
    exact (unfit_error _ item).1

end Value

open Value

/-- Some items make a cell if and only if there are two at least and all of them are nouns; it is nested to the
right. Fewer than two are refused for their number. Otherwise the first item that is no noun is refused, looked
for from the last one but one over the last one and then from right to left: the last one as a tail, and every
other one as a head. -/
theorem cell_of_values (items : List Value) :
    (∀ n, nest items = .ok n ↔
      ∃ front last, front ≠ [] ∧ items = (front ++ [last]).map ofNoun ∧ n = .nest front last) ∧
    (items.length < 2 → nest items = .error .tooFewNouns) ∧
    (2 ≤ items.length → ∀ e, nest items = .error e ↔
      ∃ i item, (nestOrder items.length).find? (unfitAt items) = some i ∧ items[i]? = some item ∧
        e = item.unfit (if i + 1 = items.length then "cell tail" else "cell head")) ∧
    (Error.tooFewNouns.kind = .nounType ∧
      Error.tooFewNouns.message? = some "cell() needs at least two nouns") ∧
    ∀ half v, (unfit half v).kind = .nounType ∧ ∃ text, (unfit half v).message? = some (half ++ text) :=
  ⟨fun _ => nest_eq_ok_iff, nest_of_short, fun h _ => nest_eq_error_iff h, ⟨rfl, rfl⟩, unfit_error⟩

/-- The last item is refused before the first one, and of two items in front the second. -/
theorem cell_of_values_in_order :
    nest [null, int 2, int (-3)] = .error (.negativeAtom "cell tail" (-3)) ∧
    nest [crash, text "x", int 2, int 3] = .error (.notNoun "cell head" "str") ∧
    nest [int 7] = .error .tooFewNouns := by
  obtain ⟨-, -, hlast, -⟩ := cell_of_values [null, int 2, int (-3)]
  obtain ⟨-, -, hfront, -⟩ := cell_of_values [crash, text "x", int 2, int 3]
  obtain ⟨-, hshort, -⟩ := cell_of_values [int 7]
  have hlong : 2 ≤ [null, int 2, int (-3)].length := by decide
  have hlong' : 2 ≤ [crash, text "x", int 2, int 3].length := by decide
  exact ⟨(hlast hlong _).2 ⟨2, int (-3), rfl, rfl, rfl⟩, (hfront hlong' _).2 ⟨1, text "x", rfl, rfl, rfl⟩,
    hshort (by decide)⟩

end Nock

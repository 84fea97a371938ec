import Nock.Proofs.Tensor.RoundTrip

/-!
# What is wrong with a noun that is read

A noun is read in three passes: its tails are walked to the atom at the end, the items are looked at for cells,
and then for numbers that the type does not hold. A pass is made only if those before found nothing, so the
order of the passes is the order of precedence, and each stops at the first item that is wrong
(`Tensor.atoms_of_findIdx?`, `Tensor.fitAll_of_findIdx?`).
-/

namespace Nock

theorem Noun.spine_eq (n : Noun) : n.spine = (n.heads, n.final) := by
  induction n with
  | atom a => rfl
  | cell h t _ iht => rw [spine_cell, iht]; rfl

theorem ElementType.holds_natCast_iff {signed : Bool} {bits a : Nat} :
    (integer signed bits).holds a = true ↔ (a : Int) ≤ greatest signed bits := by
  have hleast : least signed bits ≤ 0 := by
    cases signed with
    | true =>
      have hpos := Int.natCast_nonneg (Nat.pow 2 (bits - 1))
      simp only [least, if_true, Int.ofNat_eq_natCast]
      omega
    | false => exact Int.le_refl 0
  simp only [holds, Bool.and_eq_true, decide_eq_true_eq]
  omega

namespace Tensor

variable {form : ListForm} {index k : Nat} {done : List Nat} {items : List Noun} {numbers : List Nat}

theorem listItems_eq (form : ListForm) (n : Noun) : listItems form n =
    if form = .terminated ∧ n.final ≠ 0 then .error (.openList n.final) else .ok (form.itemsOf n) := by
  rw [listItems, n.spine_eq]
  cases form with
  | tuple => rfl
  | terminated =>
    by_cases h : n.final = 0
    · simp [h, ListForm.itemsOf]
    · simp [h]

theorem atoms_of_findIdx? (h : items.findIdx? Noun.isCell = some k) :
    atoms index done items = .error (.itemIsCell (index + k)) := by
  induction items generalizing index done k with
  | nil => cases h
  | cons x items ih =>
    rw [List.findIdx?_cons] at h
    cases x with
    | cell l r =>
      cases h
      rfl
    | atom a =>
      obtain ⟨j, hj, rfl⟩ := Option.map_eq_some_iff.1 h
      rw [atoms, ih hj]
      congr 2
      omega

theorem exists_atoms (h : items.findIdx? Noun.isCell = none) : ∃ as : List Nat, items = as.map .atom := by
  induction items with
  | nil => exact ⟨[], rfl⟩
  | cons x items ih =>
    rw [List.findIdx?_eq_none_iff, List.forall_mem_cons, ← List.findIdx?_eq_none_iff] at h
    obtain ⟨hx, hitems⟩ := h
    obtain ⟨as, rfl⟩ := ih hitems
    cases x with
    | cell l r => cases hx
    | atom a => exact ⟨a :: as, rfl⟩

theorem fitAll_of_findIdx? {type : ElementType} {a : Nat}
    (h : numbers.findIdx? (fun a : Nat => !type.holds a) = some k) (ha : numbers[k]? = some a) :
    fitAll type index numbers = .error (.doesNotFit (index + k) a type.name) := by
  induction numbers generalizing index k with
  | nil => cases h
  | cons b numbers ih =>
    rw [List.findIdx?_cons] at h
    cases hfit : type.holds b with
    | false =>
      rw [hfit] at h
      cases h
      cases ha
      rw [fitAll, hfit]
      rfl
    | true =>
      rw [hfit] at h
      obtain ⟨j, hj, rfl⟩ := Option.map_eq_some_iff.1 h
      rw [fitAll, if_pos hfit, ih hj ha]
      congr 2
      omega

variable {n : Noun} {signed : Bool} {bits : Nat} {typeName : String}

/-- Of a noun that is closed and flat, only the type can refuse the numbers. -/
theorem ofNoun_of_atoms (hclosed : ¬ (form = .terminated ∧ n.final ≠ 0))
    (hflat : form.itemsOf n = numbers.map .atom)
    (hname : ElementType.ofName? typeName = some (.integer signed bits)) : ofNoun form typeName n =
      (fitAll (.integer signed (min bits 32)) 0 numbers).map fun _ =>
        ⟨.integer signed (min bits 32), form.flatShape n numbers.length, numbers.map Int.ofNat⟩ := by
  have hatoms : atoms 0 [] (form.itemsOf n) = .ok numbers := atoms_eq_ok_iff.2 ⟨numbers, hflat, rfl⟩
  simp only [ofNoun, listItems_eq, if_neg hclosed, bind, Except.bind, hatoms, hname]
  rfl

/-- What is wrong with a noun is told in order: an atom other than 0 behind the items in terminated form, else
the first item that is a cell, else the first one that the narrow type is too small for. If nothing is wrong,
the items are the entries. -/
theorem faults_of_reading (form : ListForm) (n : Noun)
    (hname : ElementType.ofName? typeName = some (.integer signed bits)) :
    let r := (Value.ofNoun n).toListTensor form typeName
    let type := ElementType.integer signed (min bits 32)
    let beyond : Nat → Bool := fun a => ElementType.greatest signed (min bits 32) < a
    (form = .terminated ∧ n.final ≠ 0 → r = .error (.openList n.final)) ∧
    (¬ (form = .terminated ∧ n.final ≠ 0) →
      (∀ k, (form.itemsOf n).findIdx? Noun.isCell = some k → r = .error (.itemIsCell k)) ∧
      ((form.itemsOf n).findIdx? Noun.isCell = none → ∃ as : List Nat, form.itemsOf n = as.map .atom ∧
        (∀ k, as.findIdx? beyond = some k →
          ∃ a, as[k]? = some a ∧ r = .error (.doesNotFit k a type.name)) ∧
        (as.findIdx? beyond = none → r = .ok ⟨type, form.flatShape n as.length, as.map Int.ofNat⟩))) ∧
    (∀ a, (Error.openList a).kind = .value ∧ (Error.openList a).message? =
      some ("list does not end in 0 (ends in " ++ Text.decimal a ++ ")")) ∧
    (∀ k, (Error.itemIsCell k).kind = .nounType ∧ (Error.itemIsCell k).message? =
      some ("item " ++ toString k ++ " is a cell; only flat lists of atoms convert to arrays")) ∧
    ∀ k a s, (Error.doesNotFit k a s).kind = .value ∧ (Error.doesNotFit k a s).message? =
      some ("item " ++ toString k ++ " (" ++ Text.decimal a ++ ") does not fit " ++ s) := by
  intro r type beyond
  have hr : r = ofNoun form typeName n := toListTensor_ofNoun form typeName n
  have hbeyond : beyond = fun a : Nat => !type.holds a := by
    funext a
    rw [Bool.eq_iff_iff, decide_eq_true_iff, Bool.not_eq_true', ← Bool.not_eq_true,
      ElementType.holds_natCast_iff, Int.not_le]
  rw [hr, hbeyond]
  refine ⟨fun hopen => ?opened, fun hclosed => ⟨fun k hk => ?cell, fun hflat => ?flat⟩, ?texts⟩
  case opened =>
    rw [ofNoun, listItems_eq, if_pos hopen]
    rfl
  case cell =>
    have hcell : atoms 0 [] (form.itemsOf n) = .error (.itemIsCell k) := by
      rw [atoms_of_findIdx? hk, Nat.zero_add]
    simp only [ofNoun, listItems_eq, if_neg hclosed, bind, Except.bind, hcell]
  case flat =>
    obtain ⟨as, has⟩ := exists_atoms hflat
    have hof := ofNoun_of_atoms hclosed has hname
    refine ⟨as, has, fun k hk => ?_, fun hfit => ?_⟩
    · obtain ⟨hlt, -⟩ := List.findIdx?_eq_some_iff_getElem.1 hk
      have ha : as[k]? = some as[k] := List.getElem?_eq_getElem hlt
      refine ⟨as[k], ha, ?_⟩
      rw [hof, fitAll_of_findIdx? hk ha, Nat.zero_add]
      rfl
    · have hall : ∀ a ∈ as, type.holds a = true := by
        intro a ha
        have hholds := List.findIdx?_eq_none_iff.1 hfit a ha
        simpa using hholds
      rw [hof, fitAll_eq_ok_iff.2 hall]
      rfl
  case texts =>
    exact ⟨fun _ => ⟨rfl, rfl⟩, fun _ => ⟨rfl, rfl⟩,
      fun _ _ _ => ⟨rfl, congrArg some String.append_assoc.symm⟩⟩

/-- The same noun is refused for its end, for a cell in it where the end is an item, and without the cell for a
number that the narrow type is too small for. -/
theorem faults_of_reading_in_turn :
    let n : Noun := .cell 2147483648 (.cell (.cell 1 2) 5)
    let m : Noun := .cell 7 (.cell 2147483648 5)
    (Value.ofNoun n).toListTensor .terminated "int64" = .error (.openList 5) ∧
    (Value.ofNoun n).toListTensor .tuple "int64" = .error (.itemIsCell 1) ∧
    (Value.ofNoun m).toListTensor .tuple "int64" = .error (.doesNotFit 1 2147483648 "int32") := by
  intro n m
  have hname : ElementType.ofName? "int64" = some (.integer true 64) :=
    ElementType.ofName?_name (.integer true 64) (by decide)
  obtain ⟨hopen, -⟩ := faults_of_reading .terminated n hname
  obtain ⟨-, hclosed, -⟩ := faults_of_reading .tuple n hname
  obtain ⟨-, hclosed', -⟩ := faults_of_reading .tuple m hname
  obtain ⟨as, has, hbeyond, -⟩ := (hclosed' (by decide)).2 rfl
  obtain rfl : [7, 2147483648, 5] = as := List.map_injective_iff.2 (fun _ _ => Noun.atom.inj) has
  obtain ⟨a, ha, herror⟩ := hbeyond 1 rfl
  cases ha
  exact ⟨hopen ⟨rfl, by decide⟩, (hclosed (by decide)).1 1 rfl, herror⟩

end Tensor

end Nock

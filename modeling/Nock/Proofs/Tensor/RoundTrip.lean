import Nock.Proofs.Tensor.Spelling

/-!
# Arrays through list nouns and back

What a list noun of atoms is read into is the one array of its type and shape that the noun spells
(`Tensor.ofNoun_eq_ok_iff`), since the shapes that are read are just those of a list of atoms
(`Tensor.spells_iff_lists`). That is also what the noun of an array spells if narrowing leaves the array
alone, so each way back undoes the other.
-/

namespace Nock

namespace ListForm

variable {form : ListForm} {as : List Nat} {n : Noun} {shape : List Nat}

theorem Reads.allows (h : form.Reads shape) : form.Allows shape := by
  cases form with
  | terminated => trivial
  | tuple =>
    rcases h with rfl | ⟨d, hd, rfl⟩
    · exact List.forall_mem_nil _
    · exact List.forall_mem_singleton.2 hd

theorem lists_atoms : tuple.Lists (as.map .atom) n ↔
    ∃ front a, as = front ++ [a] ∧ n = Noun.nest (front.map .atom) (.atom a) := by
  constructor
  · rintro ⟨_, last, happ, rfl⟩
    obtain ⟨front, _, rfl, rfl, hlast⟩ := List.map_eq_append_iff.1 happ
    obtain ⟨a, rfl, rfl⟩ := List.map_eq_singleton_iff.1 hlast
    exact ⟨front, a, rfl, rfl⟩
  · rintro ⟨front, a, rfl, rfl⟩
    exact ⟨_, _, List.map_append, rfl⟩

theorem isCell_iff_of_lists (h : tuple.Lists (as.map .atom) n) : n.isCell = true ↔ 2 ≤ as.length := by
  obtain ⟨front, a, rfl, rfl⟩ := lists_atoms.1 h
  cases front with
  | nil => simp [Noun.isCell]
  | cons b front => simp [Noun.isCell]

end ListForm

namespace Tensor

variable {form : ListForm} {as : List Nat} {n : Noun} {shape : List Nat} {entries : List Int}
  {typeName : String} {t : Tensor}

theorem items_iff_map {blocks : List (List Int)} {items : List Noun} :
    List.Forall₂ (Spells form []) blocks items ↔
      ∃ as : List Nat, blocks = as.map (fun a => [Int.ofNat a]) ∧ items = as.map .atom := by
  induction blocks generalizing items with
  | nil =>
    rw [List.forall₂_nil_left_iff]
    constructor
    · rintro rfl
      exact ⟨[], rfl, rfl⟩
    · rintro ⟨as, hblocks, rfl⟩
      rw [List.map_eq_nil_iff.1 hblocks.symm]
      rfl
  | cons b blocks ih =>
    rw [List.forall₂_cons_left_iff]
    constructor
    · rintro ⟨m, items, ⟨a, rfl, rfl⟩, hitems, rfl⟩
      obtain ⟨as, rfl, rfl⟩ := ih.1 hitems
      exact ⟨a :: as, rfl, rfl⟩
    · rintro ⟨as, hblocks, rfl⟩
      cases as with
      | nil => cases hblocks
      | cons a as =>
        obtain ⟨rfl, rfl⟩ := List.cons.inj hblocks
        exact ⟨_, _, ⟨a, rfl, rfl⟩, ih.2 ⟨as, rfl, rfl⟩, rfl⟩

theorem spells_row {d : Nat} : Spells form [d] entries n ↔
    ∃ as : List Nat, entries = as.map Int.ofNat ∧ as.length = d ∧ form.Lists (as.map .atom) n := by
  have hflatten : ∀ as : List Nat, (as.map fun a => [Int.ofNat a]).flatten = as.map Int.ofNat := by
    intro as
    induction as with
    | nil => rfl
    | cons a as ih => rw [List.map_cons, List.flatten_cons, ih]; rfl
  constructor
  · rintro ⟨blocks, items, rfl, rfl, hitems, hlist⟩
    obtain ⟨as, rfl, rfl⟩ := items_iff_map.1 hitems
    exact ⟨as, hflatten as, (List.length_map _).symm, hlist⟩
  · rintro ⟨as, rfl, rfl, hlist⟩
    exact ⟨_, _, hflatten as, List.length_map _, items_iff_map.2 ⟨as, rfl, rfl⟩, hlist⟩

theorem spells_iff_lists : form.Reads shape ∧ Spells form shape entries n ↔
    ∃ as : List Nat, form.Lists (as.map .atom) n ∧ shape = form.flatShape n as.length ∧
      entries = as.map Int.ofNat := by
  cases form with
  | terminated =>
    constructor
    · rintro ⟨⟨d, rfl⟩, h⟩
      obtain ⟨as, hentries, rfl, hlist⟩ := spells_row.1 h
      exact ⟨as, hlist, rfl, hentries⟩
    · rintro ⟨as, hlist, rfl, hentries⟩
      exact ⟨⟨_, rfl⟩, spells_row.2 ⟨as, hentries, rfl, hlist⟩⟩
  | tuple =>
    constructor
    · rintro ⟨rfl | ⟨d, hd, rfl⟩, h⟩
      · obtain ⟨a, rfl, rfl⟩ := h
        exact ⟨[a], ⟨[], _, rfl, rfl⟩, rfl, rfl⟩
      · obtain ⟨as, hentries, rfl, hlist⟩ := spells_row.1 h
        have hcell : n.isCell = true := (ListForm.isCell_iff_of_lists hlist).2 hd
        exact ⟨as, hlist, by simp [ListForm.flatShape, hcell], hentries⟩
    · rintro ⟨as, hlist, rfl, rfl⟩
      cases n with
      | atom a =>
        -- Only a single atom is an atom as a list noun in tuple form.
        obtain ⟨front, b, rfl, hn⟩ := ListForm.lists_atoms.1 hlist
        cases front with
        | nil => exact ⟨.inl rfl, b, rfl, hn⟩
        | cons c front => cases hn
      | cell h t =>
        have hd : 2 ≤ as.length := (ListForm.isCell_iff_of_lists hlist).1 rfl
        exact ⟨.inr ⟨_, hd, rfl⟩, spells_row.2 ⟨as, rfl, rfl, hlist⟩⟩

theorem atoms_eq_ok_iff {index : Nat} {done ns : List Nat} {items : List Noun} :
    atoms index done items = .ok ns ↔ ∃ as, items = as.map .atom ∧ ns = done.reverse ++ as := by
  induction items generalizing index done with
  | nil => simp [atoms, eq_comm]
  | cons x items ih =>
    cases x with
    | cell h t =>
      have hmap : ∀ as : List Nat, ¬ .cell h t :: items = as.map Noun.atom := by
        intro as has
        obtain ⟨a, -, -, ha, -⟩ := List.map_eq_cons_iff.1 has.symm
        cases ha
      simp [atoms, hmap]
    | atom a =>
      rw [atoms, ih]
      constructor
      · rintro ⟨as, rfl, rfl⟩
        exact ⟨a :: as, rfl, by simp⟩
      · rintro ⟨as, hitems, rfl⟩
        obtain ⟨b, as, rfl, hb, rfl⟩ := List.map_eq_cons_iff.1 hitems.symm
        obtain rfl := Noun.atom.inj hb
        exact ⟨as, rfl, by simp⟩

theorem fitAll_eq_ok_iff {type : ElementType} {index : Nat} {numbers : List Nat} :
    fitAll type index numbers = .ok () ↔ ∀ a ∈ numbers, type.holds a = true := by
  induction numbers generalizing index with
  | nil => simp [fitAll]
  | cons a numbers ih =>
    rw [fitAll, List.forall_mem_cons]
    split
    next h => simp [h, ih]
    next h => simp [h]

theorem listItems_eq_ok_iff : listItems form n = .ok (as.map .atom) ↔ form.Lists (as.map .atom) n := by
  have hspine : Noun.nest n.spine.1 (.atom n.spine.2) = n := n.nest_spine
  cases form with
  | terminated =>
    simp only [listItems]
    constructor
    · intro h
      split at h
      next hlast =>
        rw [hlast, Except.ok.inj h] at hspine
        exact hspine.symm
      next => cases h
    · intro h
      have h : n = Noun.nest (as.map .atom) (.atom 0) := h
      rw [h, Noun.spine_nest]
      rfl
  | tuple =>
    constructor
    · intro h
      exact ⟨_, _, (Except.ok.inj h).symm, hspine.symm⟩
    · intro h
      obtain ⟨front, a, rfl, rfl⟩ := ListForm.lists_atoms.1 h
      simp [listItems, Noun.spine_nest]

theorem ofNoun_eq_ok_iff_lists : ofNoun form typeName n = .ok t ↔
    ∃ (as : List Nat) (type : ElementType), form.Lists (as.map .atom) n ∧
      ElementType.ofName? typeName = some type ∧ type.isInteger = true ∧
      (∀ a ∈ as, type.narrow.holds (Int.ofNat a) = true) ∧
      t = ⟨type.narrow, form.flatShape n as.length, as.map Int.ofNat⟩ := by
  simp only [ofNoun, Error.bind_eq_ok]
  constructor
  · rintro ⟨items, hitems, as, has, h⟩
    obtain ⟨_, rfl, rfl⟩ := atoms_eq_ok_iff.1 has
    cases hname : ElementType.ofName? typeName with
    | none =>
      rw [hname] at h
      cases h
    | some type =>
      simp only [hname] at h
      split at h
      next => cases h
      next hinteger =>
        obtain ⟨_, hfit, ht⟩ := Error.bind_eq_ok.1 h
        refine ⟨as, type, listItems_eq_ok_iff.1 hitems, rfl, ?_, fitAll_eq_ok_iff.1 hfit, ?_⟩
        · simpa [ElementType.isInteger_narrow] using hinteger
        · exact (Except.ok.inj ht).symm
  · rintro ⟨as, type, hlist, hname, hinteger, hfit, rfl⟩
    refine ⟨_, listItems_eq_ok_iff.2 hlist, as, atoms_eq_ok_iff.2 ⟨as, rfl, rfl⟩, ?_⟩
    rw [← ElementType.isInteger_narrow] at hinteger
    simp only [hname, hinteger]
    exact Error.bind_eq_ok.2 ⟨(), fitAll_eq_ok_iff.2 hfit, rfl⟩

theorem ofNoun_eq_ok_iff : ofNoun form typeName n = .ok t ↔
    ∃ type, ElementType.ofName? typeName = some type ∧ type.isInteger = true ∧ t.type = type.narrow ∧
      (∀ i ∈ t.entries, t.type.holds i = true) ∧ form.Reads t.shape ∧ Spells form t.shape t.entries n := by
  simp only [ofNoun_eq_ok_iff_lists, spells_iff_lists]
  constructor
  · rintro ⟨as, type, hlist, hname, hinteger, hfit, rfl⟩
    exact ⟨type, hname, hinteger, rfl, List.forall_mem_map.2 hfit, as, hlist, rfl, rfl⟩
  · obtain ⟨ttype, shape, entries⟩ := t
    rintro ⟨type, hname, hinteger, rfl, hholds, as, hlist, rfl, rfl⟩
    exact ⟨as, type, hlist, hname, hinteger, List.forall_mem_map.1 hholds, rfl⟩

theorem toListTensor_ofNoun (form : ListForm) (typeName : String) (n : Noun) :
    (Value.ofNoun n).toListTensor form typeName = ofNoun form typeName n := by
  rw [Value.toListTensor, Value.asNoun_ofNoun]
  rfl

theorem Valid.of_ofNoun (h : ofNoun form typeName n = .ok t) : t.Valid := by
  obtain ⟨type, hname, -, htype, hholds, -, hspells⟩ := ofNoun_eq_ok_iff.1 h
  refine ⟨?_, hspells.length_eq, hholds⟩
  rw [htype]
  exact ElementType.narrow_mem type (ElementType.mem_of_ofName? hname)

theorem Valid.narrow_eq_self (h : t.Valid) (htype : t.type.narrow = t.type) : t.narrow = t := by
  obtain ⟨type, shape, entries⟩ := t
  have htype : type.narrow = type := htype
  have hentries : entries.map type.wrap = entries :=
    (ElementType.map_wrap_eq_self_iff h.type_mem).2 h.holds
  rw [narrow, htype, hentries]

theorem toNoun_of_ofNoun (h : ofNoun form typeName n = .ok t) (place : String) :
    t.toNoun form place = .ok n := by
  have hvalid : t.Valid := .of_ofNoun h
  obtain ⟨type, -, hinteger, htype, -, hreads, hspells⟩ := ofNoun_eq_ok_iff.1 h
  have hcanonical : t.type.narrow = t.type := by
    rw [htype, ElementType.narrow_narrow]
  rw [toNoun_eq_ok_iff hvalid.length_eq, hvalid.narrow_eq_self hcanonical, htype,
    ElementType.isInteger_narrow]
  exact ⟨hinteger, hreads.allows, hspells⟩

theorem ofNoun_of_toNoun {place : String} (h : t.Valid) (htype : t.type.narrow = t.type)
    (hname : ElementType.ofName? typeName = some t.type) (hreads : form.Reads t.shape)
    (hn : t.toNoun form place = .ok n) : ofNoun form typeName n = .ok t := by
  obtain ⟨hinteger, -, hspells⟩ := (toNoun_eq_ok_iff h.length_eq).1 hn
  rw [h.narrow_eq_self htype] at hspells
  exact ofNoun_eq_ok_iff.2 ⟨t.type, hname, hinteger, htype.symm, h.holds, hreads, hspells⟩

/-- An array read from a list noun has the atoms of the list, in order, and becomes that noun again; and
the noun of an array of one of the shapes that are read, of a narrow integer type and without a negative
entry, is read as the same array. -/
theorem list_noun_round_trip (form : ListForm) :
    (∀ (typeName : String) (n : Noun) (t : Tensor),
      (Value.ofNoun n).toListTensor form typeName = .ok t →
        (∃ as : List Nat, form.Lists (as.map .atom) n ∧ t.entries = as.map Int.ofNat) ∧
          ∀ place, t.toNoun form place = .ok n) ∧
    ∀ (typeName : String) (t : Tensor), ElementType.ofName? typeName = some t.type → t.Valid →
      t.type.narrow = t.type → t.type.isInteger = true → (∀ i ∈ t.entries, 0 ≤ i) →
      form.Reads t.shape → ∀ place, ∃ n, t.toNoun form place = .ok n ∧
        (Value.ofNoun n).toListTensor form typeName = .ok t := by
  constructor
  · intro typeName n t h
    rw [toListTensor_ofNoun] at h
    obtain ⟨as, _, hlist, -, -, -, rfl⟩ := ofNoun_eq_ok_iff_lists.1 h
    exact ⟨⟨as, hlist, rfl⟩, toNoun_of_ofNoun h⟩
  · intro typeName t hname hvalid htype hinteger hpos hreads place
    have hnarrow : t.narrow = t := hvalid.narrow_eq_self htype
    obtain ⟨n, hn⟩ := exists_toNoun hvalid.length_eq hinteger (by rwa [hnarrow]) hreads.allows
    refine ⟨n, hn place, ?_⟩
    rw [toListTensor_ofNoun]
    exact ofNoun_of_toNoun hvalid htype hname hreads (hn place)

/-- A pair at the limit of the narrow type, and the empty list. -/
theorem list_noun_round_trip_at_limits :
    let n : Noun := .cell 2147483647 0
    let t : Tensor := ⟨.integer true 32, [2], [2147483647, 0]⟩
    let e : Tensor := ⟨.integer false 8, [0], []⟩
    (Value.ofNoun n).toListTensor .tuple "int64" = .ok t ∧ (∀ place, t.toNoun .tuple place = .ok n) ∧
      e.Valid ∧ ∃ m, e.toNoun .terminated "array" = .ok m ∧
        (Value.ofNoun m).toListTensor .terminated "uint8" = .ok e := by
  intro n t e
  have ht : (Value.ofNoun n).toListTensor .tuple "int64" = .ok t := by
    rw [toListTensor_ofNoun]
    decide
  have he : e.Valid := ⟨by decide, rfl, List.forall_mem_nil _⟩
  have hname : ElementType.ofName? "uint8" = some e.type := ElementType.ofName?_name e.type he.type_mem
  exact ⟨ht, ((list_noun_round_trip .tuple).1 "int64" n t ht).2, he,
    (list_noun_round_trip .terminated).2 "uint8" e hname he rfl rfl (List.forall_mem_nil _)
      ⟨0, rfl⟩ "array"⟩

end Tensor

end Nock

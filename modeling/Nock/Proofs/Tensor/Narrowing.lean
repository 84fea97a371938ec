import Nock.Proofs.Tensor.Spelling

/-!
# What narrowing does to entries

The refusal of negative entries and the conversion both look at the narrowed array. So an array is
refused for its narrowed entries, and its noun spells these; they are the entries given if and only if
the narrow type holds all of them. An entry beyond the narrow type is altered in silence unless some
narrowed entry is negative.
-/

namespace Nock.Tensor

open ElementType (map_wrap_eq_self_iff narrow_mem)

variable {form : ListForm} {place : String} {t : Tensor} {n : Noun}

theorem toNoun_isError_iff (hlen : t.entries.length = Rows.room t.shape)
    (hinteger : t.type.isInteger = true) : (∃ e, t.toNoun form place = .error e) ↔
      (∃ i ∈ t.narrow.entries, i < 0) ∨ ¬ form.Allows t.shape := by
  constructor
  · rintro ⟨e, he⟩
    by_contra hno
    rw [not_or, not_not] at hno
    obtain ⟨hnone, hallows⟩ := hno
    have hpos : ∀ i ∈ t.narrow.entries, 0 ≤ i := by
      intro i hi
      by_contra hneg
      exact hnone ⟨i, hi, by omega⟩
    obtain ⟨n, hn⟩ := (exists_toNoun_iff hlen hinteger hpos).2 hallows
    rw [he] at hn
    cases hn
  · intro h
    cases hok : t.toNoun form place with
    | error e => exact ⟨e, rfl⟩
    | ok n =>
      obtain ⟨-, hallows, hn⟩ := (toNoun_eq_ok_iff hlen).1 hok
      rcases h with ⟨i, hi, hneg⟩ | hshort
      · have hpos : 0 ≤ i := hn.nonneg i hi
        omega
      · exact absurd hallows hshort

theorem narrow_entries_eq_iff (h : t.type ∈ ElementType.all) :
    t.narrow.entries = t.entries ↔ ∀ i ∈ t.entries, t.type.narrow.holds i = true :=
  map_wrap_eq_self_iff (narrow_mem t.type h)

/-- An array is refused for a negative entry after narrowing and for a row that is too short, its noun
spells its entries after narrowing, and these are its own entries if and only if the narrow type holds
them or the array is refused. -/
theorem narrowed_entries_spelled (form : ListForm) (place : String) (t : Tensor) (h : t.Valid)
    (hinteger : t.type.isInteger = true) :
    ((∃ e, t.toNoun form place = .error e) ↔
      (∃ i ∈ t.narrow.entries, i < 0) ∨ ¬ form.Allows t.shape) ∧
    (∀ n, t.toNoun form place = .ok n → Spells form t.shape t.narrow.entries n) ∧
    ((∀ n, t.toNoun form place = .ok n → Spells form t.shape t.entries n) ↔
      (∀ i ∈ t.entries, t.type.narrow.holds i = true) ∨ ∃ e, t.toNoun form place = .error e) := by
  have hnarrowed : ∀ n, t.toNoun form place = .ok n → Spells form t.shape t.narrow.entries n :=
    fun n hn => ((toNoun_eq_ok_iff h.length_eq).1 hn).2.2
  refine ⟨toNoun_isError_iff h.length_eq hinteger, hnarrowed, ?_⟩
  rw [← narrow_entries_eq_iff h.type_mem]
  constructor
  · intro hown
    cases hok : t.toNoun form place with
    | error e => exact .inr ⟨e, rfl⟩
    | ok n => exact .inl ((hnarrowed n hok).entries_unique (hown n hok))
  · rintro (hsame | ⟨e, he⟩) n hn
    · rw [← hsame]
      exact hnarrowed n hn
    · rw [he] at hn
      cases hn

/-- Of two entries, the first is beyond the narrow type and comes back as 7. -/
theorem wrapped_entry_spelled :
    let t : Tensor := ⟨.integer false 64, [2], [4294967303, 5]⟩
    t.Valid ∧ t.toNoun .tuple "array" = .ok (.cell 7 5) ∧ Spells .tuple [2] [7, 5] (.cell 7 5) ∧
      ¬ ∀ n, t.toNoun .tuple "array" = .ok n → Spells .tuple t.shape t.entries n := by
  intro t
  have hvalid : t.Valid := ⟨by decide, rfl, by decide⟩
  have hn : t.toNoun .tuple "array" = .ok (.cell 7 5) := rfl
  obtain ⟨-, hnarrowed, hown⟩ := narrowed_entries_spelled .tuple "array" t hvalid rfl
  refine ⟨hvalid, hn, hnarrowed _ hn, fun hall => ?_⟩
  rcases hown.1 hall with hholds | ⟨e, he⟩
  · revert hholds
    decide
  · rw [hn] at he
    cases he

/-- A negative entry of the wide type is not refused if narrowing makes it 0. -/
theorem negative_entry_altered : ¬ ∀ (form : ListForm) (place : String) (t : Tensor) (n : Noun),
    t.Valid → t.type.isInteger = true → t.toNoun form place = .ok n → Spells form t.shape t.entries n := by
  intro h
  let t : Tensor := ⟨.integer true 64, [2], [-4294967296, 5]⟩
  have hspells : Spells .tuple [2] [-4294967296, 5] (.cell 0 5) :=
    h .tuple "array" t (.cell 0 5) ⟨by decide, rfl, by decide⟩ rfl rfl
  have hpos := hspells.nonneg (-4294967296) (List.mem_cons_self ..)
  omega

end Nock.Tensor

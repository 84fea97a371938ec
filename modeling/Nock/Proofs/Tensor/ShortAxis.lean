import Nock.Proofs.Tensor.RoundTrip

/-!
# Which short axis is reported

An array is refused in tuple form if some axis has fewer than two rows. Rows are built before what they are part
of, and the first row is the first to be built, so what is wrong with the rows is reported at the first of them;
and only below an axis that is not empty are there rows at all. So of the axes of a shape, an empty one is
reported before all below it, and one of length 1 after all below it (`Tensor.shortAxis_cons`), and the error
names that axis (`Rows.toNoun_of_shortAxis`).
-/

namespace Nock

open ListForm (tuple)
open Tensor (ShortAxis)

variable {shape : List Nat} {entries : List Int} {c k d : Nat} {place : String}

theorem ListForm.allows_tuple_iff : tuple.Allows shape ↔ 0 ∉ shape ∧ 1 ∉ shape := by
  constructor
  · intro h
    refine ⟨fun h0 => ?_, fun h1 => ?_⟩
    · have hlong : 2 ≤ 0 := h 0 h0
      omega
    · have hlong : 2 ≤ 1 := h 1 h1
      omega
  · rintro ⟨h0, h1⟩ d hd
    rcases d with _ | _ | d
    · exact absurd hd h0
    · exact absurd hd h1
    · exact Nat.le_add_left 2 d

namespace Tensor

theorem shortAxis_cons : ShortAxis (c :: shape) k d ↔
    (c = 0 ∧ k = 0 ∧ d = 0) ∨ (c = 1 ∧ k = 0 ∧ d = 1 ∧ tuple.Allows shape) ∨
      (c ≠ 0 ∧ ∃ j, k = j + 1 ∧ ShortAxis shape j d) := by
  constructor
  · intro h
    cases h with
    | empty hk hfirst =>
      rcases k with _ | k
      · exact .inl ⟨Option.some.inj hk, rfl, rfl⟩
      · have hc : c ≠ 0 := fun hc => hfirst 0 (Nat.succ_pos k) (congrArg some hc)
        exact .inr (.inr ⟨hc, k, rfl, .empty hk fun j hj => hfirst (j + 1) (Nat.succ_lt_succ hj)⟩)
    | single hempty hk hlast =>
      rw [List.mem_cons, not_or] at hempty
      obtain ⟨hc, hempty⟩ := hempty
      rcases k with _ | k
      · have hone : 1 ∉ shape := by
          intro hmem
          obtain ⟨j, hj⟩ := List.mem_iff_getElem?.1 hmem
          exact hlast (j + 1) (Nat.succ_pos j) hj
        exact .inr (.inl ⟨Option.some.inj hk, rfl, rfl, ListForm.allows_tuple_iff.2 ⟨hempty, hone⟩⟩)
      · refine .inr (.inr ⟨Ne.symm hc, k, rfl, .single hempty hk fun j hj => ?_⟩)
        exact hlast (j + 1) (Nat.succ_lt_succ hj)
  · rintro (⟨rfl, rfl, rfl⟩ | ⟨rfl, rfl, rfl, hallows⟩ | ⟨hc, j, rfl, h⟩)
    · exact .empty rfl fun j hj => absurd hj (Nat.not_lt_zero j)
    · obtain ⟨hempty, hone⟩ := ListForm.allows_tuple_iff.1 hallows
      refine .single (by simp [hempty]) rfl fun j hj hmem => ?_
      obtain ⟨j, rfl⟩ := Nat.exists_eq_add_one.2 hj
      exact hone (List.mem_of_getElem? hmem)
    · cases h with
      | empty hk hfirst =>
        refine .empty hk fun i hi => ?_
        rcases i with _ | i
        · exact fun h0 => hc (Option.some.inj h0)
        · exact hfirst i (Nat.lt_of_succ_lt_succ hi)
      | single hempty hk hlast =>
        refine .single (by simp [hempty, Ne.symm hc]) hk fun i hi => ?_
        rcases i with _ | i
        · exact absurd hi (Nat.not_lt_zero _)
        · exact hlast i (Nat.lt_of_succ_lt_succ hi)

theorem exists_shortAxis (h : ¬ tuple.Allows shape) : ∃ k d, ShortAxis shape k d := by
  induction shape with
  | nil => exact absurd (List.forall_mem_nil _) h
  | cons c shape ih =>
    rcases Nat.eq_zero_or_pos c with rfl | hc
    · exact ⟨0, 0, shortAxis_cons.2 (.inl ⟨rfl, rfl, rfl⟩)⟩
    by_cases hallows : tuple.Allows shape
    · have hone : c = 1 := by
        by_contra hne
        have hlong : tuple.Allows [c] := List.forall_mem_singleton.2 (by omega)
        exact h (ListForm.allows_cons.2 ⟨hlong, hallows⟩)
      exact ⟨0, 1, shortAxis_cons.2 (.inr (.inl ⟨hone, rfl, rfl, hallows⟩))⟩
    · obtain ⟨j, d, hbelow⟩ := ih hallows
      exact ⟨j + 1, d, shortAxis_cons.2 (.inr (.inr ⟨Nat.ne_of_gt hc, j, rfl, hbelow⟩))⟩

end Tensor

namespace Rows

theorem toNoun_rows_of_error {form : ListForm} {row : Rows} {rest : List Rows} {e : Error}
    (h : row.toNoun form (place ++ "[" ++ toString 0 ++ "]") = .error e) :
    (rows (row :: rest)).toNoun form place = .error e := by
  rw [toNoun, toNounsOnto, h]
  rfl

theorem toNoun_rows_single {row : Rows} {n : Noun}
    (h : row.toNoun .tuple (place ++ "[" ++ toString 0 ++ "]") = .ok n) :
    (rows [row]).toNoun .tuple place = .error (.shortRow place 1) := by
  rw [toNoun, toNounsOnto, h]
  rfl

theorem firstRow_succ (place : String) (k : Nat) :
    place ++ "[" ++ toString 0 ++ "]" ++ String.join (List.replicate k "[0]") =
      place ++ String.join (List.replicate (k + 1) "[0]") := by
  have hzero : "[" ++ (toString 0 ++ "]") = "[0]" := rfl
  rw [List.replicate_succ, String.join_cons, ← String.append_assoc, ← hzero]
  simp only [String.append_assoc]

theorem toNoun_of_shortAxis (hlen : entries.length = room shape) (hpos : ∀ i ∈ entries, 0 ≤ i)
    (h : ShortAxis shape k d) : (ofShape shape entries).toNoun .tuple place =
      .error (.shortRow (place ++ String.join (List.replicate k "[0]")) d) := by
  induction shape generalizing entries k place with
  | nil =>
    cases h with
    | empty hk => cases hk
    | single _ hk => cases hk
  | cons c shape ih =>
    rw [room_cons] at hlen
    have hlen' (c' : Nat) (hc : c = c' + 1) : (entries.take (room shape)).length = room shape := by
      rw [List.length_take, hlen, hc, Nat.succ_mul]
      omega
    have hpos' : ∀ i ∈ entries.take (room shape), 0 ≤ i := fun i hi => hpos i (List.mem_of_mem_take hi)
    have hroot : place ++ String.join (List.replicate 0 "[0]") = place := String.append_empty
    rcases Tensor.shortAxis_cons.1 h with ⟨rfl, rfl, rfl⟩ | ⟨rfl, rfl, rfl, hallows⟩ | ⟨hc, j, rfl, hbelow⟩
    · rw [hroot]
      rfl
    · obtain ⟨n, hn⟩ := Tensor.exists_spells (hlen' 0 rfl) hpos' hallows
      rw [hroot]
      exact toNoun_rows_single ((toNoun_ofShape_eq_ok_iff (hlen' 0 rfl) hpos').2 ⟨hn, hallows⟩)
    · -- there is a first row, and it is refused at its own place before its number is looked at
      obtain ⟨c, rfl⟩ := Nat.exists_eq_succ_of_ne_zero hc
      rw [← firstRow_succ]
      exact toNoun_rows_of_error (ih (hlen' c rfl) hpos' hbelow)

end Rows

namespace Tensor

variable {t : Tensor}

/-- An array of a narrow type without a negative entry becomes a noun in terminated form whatever its shape,
and in tuple form if and only if no axis is too short. Otherwise one axis is reported, at the first of its
rows: the first empty one, and if there is none the last one of length 1. -/
theorem noun_unless_short_axis (place : String) (h : t.Valid) (htype : t.type.narrow = t.type)
    (hinteger : t.type.isInteger = true) (hpos : ∀ i ∈ t.entries, 0 ≤ i) :
    (∃ n, t.toNoun .terminated place = .ok n) ∧
    ((∃ n, t.toNoun .tuple place = .ok n) ↔ ∀ d ∈ t.shape, 2 ≤ d) ∧
    (∀ e, t.toNoun .tuple place = .error e ↔ ∃ k d, ShortAxis t.shape k d ∧
      e = .shortRow (place ++ String.join (List.replicate k "[0]")) d) ∧
    ∀ place d, (Error.shortRow place d).kind = .value ∧ (Error.shortRow place d).message? =
      some (place ++ " has " ++ toString d ++
        " item(s); a tuple noun needs at least two (or use null_terminated=True)") := by
  have hnarrow : t.narrow = t := h.narrow_eq_self htype
  have hpos' : ∀ i ∈ t.narrow.entries, 0 ≤ i := by rwa [hnarrow]
  have hok (form : ListForm) : (∃ n, t.toNoun form place = .ok n) ↔ form.Allows t.shape :=
    exists_toNoun_iff h.length_eq hinteger hpos'
  have hshort {k d : Nat} (haxis : ShortAxis t.shape k d) : t.toNoun .tuple place =
      .error (.shortRow (place ++ String.join (List.replicate k "[0]")) d) := by
    rw [toNoun_eq_rows hinteger hpos', hnarrow]
    exact Rows.toNoun_of_shortAxis h.length_eq hpos haxis
  refine ⟨(hok .terminated).2 trivial, hok .tuple, fun e => ⟨fun he => ?_, ?_⟩, fun _ _ => ⟨rfl, rfl⟩⟩
  · have hallows : ¬ tuple.Allows t.shape := by
      intro hallows
      obtain ⟨n, hn⟩ := (hok .tuple).2 hallows
      rw [he] at hn
      cases hn
    obtain ⟨k, d, haxis⟩ := exists_shortAxis hallows
    exact ⟨k, d, haxis, Except.error.inj (he.symm.trans (hshort haxis))⟩
  · rintro ⟨k, d, haxis, rfl⟩
    exact hshort haxis

/-- The rows of length 1 are reported at the first of them, and so is an empty row, before the axis above it,
which is too short as well. -/
theorem noun_unless_short_axis_of_boxes :
    let t : Tensor := ⟨.integer true 16, [2, 1, 3], [1, 2, 3, 4, 5, 6]⟩
    let e : Tensor := ⟨.integer false 8, [1, 0, 1], []⟩
    t.Valid ∧ (∃ n, t.toNoun .terminated "box" = .ok n) ∧
      t.toNoun .tuple "box" = .error (.shortRow "box[0]" 1) ∧
    e.Valid ∧ e.toNoun .tuple "box" = .error (.shortRow "box[0]" 0) := by
  intro t e
  have ht : t.Valid := ⟨by decide, rfl, by decide⟩
  have he : e.Valid := ⟨by decide, rfl, by decide⟩
  have hlong : tuple.Allows [3] := List.forall_mem_singleton.2 (by decide)
  have hsingle : ShortAxis [1, 3] 0 1 := shortAxis_cons.2 (.inr (.inl ⟨rfl, rfl, rfl, hlong⟩))
  have haxis : ShortAxis t.shape 1 1 := shortAxis_cons.2 (.inr (.inr ⟨by decide, 0, rfl, hsingle⟩))
  have hempty : ShortAxis [0, 1] 0 0 := shortAxis_cons.2 (.inl ⟨rfl, rfl, rfl⟩)
  have haxis' : ShortAxis e.shape 1 0 := shortAxis_cons.2 (.inr (.inr ⟨by decide, 0, rfl, hempty⟩))
  obtain ⟨hnoun, -, herror, -⟩ := noun_unless_short_axis "box" ht rfl rfl (by decide)
  obtain ⟨-, -, herror', -⟩ := noun_unless_short_axis "box" he rfl rfl (by decide)
  exact ⟨ht, hnoun, (herror _).2 ⟨1, 1, haxis, rfl⟩, he, (herror' _).2 ⟨1, 0, haxis', rfl⟩⟩

end Tensor

end Nock

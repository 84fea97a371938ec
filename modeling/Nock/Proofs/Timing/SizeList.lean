import Mathlib.Data.List.Forall2
import Nock.Proofs.Text.Numeral
import Nock.Timing.Sizes

/-!
# Reading size lists back

The parts of a size list are what stands between its commas and is not blank (`sizeParts`, `parts_eq_splitOn`).
All of them are read before the first size is looked at: a part that is no numeral is the error even where an
earlier size is too small (`readParts_of_unread`), and numerals give their integers in order
(`readParts_of_numerals`). A numeral has a digit in it and no comma, so splitting and passing over blanks give
back the numerals that were joined (`sizeParts_intercalate`, `WritesSizes.numerals`).
-/

namespace Nock

namespace Text

variable {cs : List Char} {i : Int}

theorem IntNumeral.comma_notMem (h : IntNumeral cs i) : ',' ∉ cs := by
  cases h with
  | mk hbefore hmark hrun hafter =>
    simp only [List.mem_append]
    rintro ((hc | hc | hc) | hc)
    · cases hbefore _ hc
    · cases hmark <;> simp at hc
    · obtain hc | ⟨d, hc⟩ := hrun.mem_cases hc
      · cases hc
      · cases hc
    · cases hafter _ hc

theorem IntNumeral.all_isBlank (h : IntNumeral cs i) : cs.all isBlank = false := by
  cases h with
  | mk hbefore hmark hrun hafter =>
    obtain ⟨c, rest, d, ds, rfl, -, hd⟩ := hrun.exists_digit
    refine List.all_eq_false.2 ⟨c, by simp, ?_⟩
    rw [isBlank_of_digitValue? hd]
    decide

end Text

namespace Timing

open Text

/-- What stands between the commas of a text and is not blank. -/
def sizeParts (text : String) : List (List Char) := (text.toList.splitOn ',').filter fun p => !p.all isBlank

/-- Parts that write some positive sizes, with padding around the numerals and blank parts anywhere. -/
inductive WritesSizes : List Nat → List String → Prop
  | nil : WritesSizes [] []
  | blank {sizes : List Nat} {ps : List String} {p : String} : (∀ c ∈ p.toList, isBlank c) →
      WritesSizes sizes ps → WritesSizes sizes (p :: ps)
  | size {sizes : List Nat} {ps : List String} {before after : String} {n : Nat} : 1 ≤ n →
      (∀ c ∈ before.toList, isPadding c) → (∀ c ∈ after.toList, isPadding c) →
      WritesSizes sizes ps → WritesSizes (n :: sizes) ((before ++ toString n ++ after) :: ps)

variable {text : String} {p : List Char} {ps : List (List Char)} {is : List Int}

/-! ### Parts -/

theorem parts_eq_splitOn (cs : List Char) : parts cs = cs.splitOn ',' := by
  induction cs with
  | nil => rfl
  | cons c cs ih =>
    rw [parts, List.splitOn_eq_splitOnP, List.splitOnP_cons_eq_if_modifyHead, ← List.splitOn_eq_splitOnP, ih]
    by_cases hc : c = ','
    · rw [if_pos hc, if_pos (beq_iff_eq.2 hc)]
    · obtain ⟨p, ps, hps⟩ := List.exists_cons_of_ne_nil (List.splitOnP_ne_nil (· == ',') cs)
      rw [if_neg hc, if_neg (mt beq_iff_eq.1 hc), List.splitOn_eq_splitOnP, hps]
      rfl

theorem readSizes_eq (text : String) : readSizes text = readParts (sizeParts text) >>= fun sizes =>
    if sizes = [] ∨ ∃ i ∈ sizes, i < 1 then .error .badSizes else .ok sizes := by
  rw [readSizes, parts_eq_splitOn]
  refine bind_congr fun sizes => ?_
  by_cases h : sizes = [] ∨ ∃ i ∈ sizes, i < 1
  · rw [if_pos h, if_pos (by simpa using h)]
    rfl
  · rw [if_neg h, if_neg (by simpa using h)]
    rfl

/-- The first part that is no numeral is the error. -/
theorem readParts_of_unread (h : ∃ p ∈ ps, ∀ i, ¬ IntNumeral p i) :
    ∃ front p back, ps = front ++ p :: back ∧ (∀ q ∈ front, ∃ i, IntNumeral q i) ∧ (∀ i, ¬ IntNumeral p i) ∧
      readParts ps = .error (.badNumeral (shownPart p)) := by
  induction ps with
  | nil => simp at h
  | cons q ps ih =>
    by_cases hq : ∃ i, IntNumeral q i
    · obtain ⟨i, hi⟩ := hq
      have hrest : ∃ p ∈ ps, ∀ i, ¬ IntNumeral p i := by
        obtain ⟨p, hp, hunread⟩ := h
        rcases List.mem_cons.1 hp with rfl | hp
        · exact absurd hi (hunread i)
        · exact ⟨p, hp, hunread⟩
      obtain ⟨front, p, back, rfl, hfront, hunread, herror⟩ := ih hrest
      refine ⟨q :: front, p, back, rfl, List.forall_mem_cons.2 ⟨⟨i, hi⟩, hfront⟩, hunread, ?_⟩
      rw [readParts, hi.readInt?_eq, herror]
      rfl
    · have hnone : readInt? q = none :=
        Option.eq_none_iff_forall_ne_some.2 fun i hi => hq ⟨i, readInt?_eq_some_iff.1 hi⟩
      refine ⟨[], q, ps, rfl, by simp, not_exists.1 hq, ?_⟩
      rw [readParts, hnone]

theorem readParts_of_numerals (h : List.Forall₂ IntNumeral ps is) : readParts ps = .ok is := by
  induction h with
  | nil => rfl
  | cons hp _ ih =>
    rw [readParts, hp.readInt?_eq, ih]
    rfl

theorem readSizes_of_numerals (h : List.Forall₂ IntNumeral (sizeParts text) is) : readSizes text =
    if is = [] ∨ ∃ i ∈ is, i < 1 then .error .badSizes else .ok is := by
  rw [readSizes_eq, readParts_of_numerals h]
  rfl

theorem exists_numerals (h : ∀ p ∈ ps, ∃ i, IntNumeral p i) : ∃ is, List.Forall₂ IntNumeral ps is := by
  induction ps with
  | nil => exact ⟨[], .nil⟩
  | cons p ps ih =>
    obtain ⟨i, hi⟩ := h p List.mem_cons_self
    obtain ⟨is, his⟩ := ih fun q hq => h q (List.mem_cons_of_mem p hq)
    exact ⟨i :: is, .cons hi his⟩

/-! ### Parts that write sizes -/

theorem sizeParts_intercalate {ps : List String} (hne : ps ≠ []) (h : ∀ p ∈ ps, ',' ∉ p.toList) :
    sizeParts (",".intercalate ps) = (ps.map String.toList).filter fun p => !p.all isBlank := by
  have hsplit : ([','].intercalate (ps.map String.toList)).splitOn ',' = ps.map String.toList :=
    List.splitOn_intercalate ',' (by simpa using h) (by simpa using hne)
  have hjoin : (",".intercalate ps).toList = [','].intercalate (ps.map String.toList) :=
    String.toList_intercalate
  rw [sizeParts, hjoin, hsplit]

namespace WritesSizes

variable {sizes : List Nat} {ps : List String}

theorem comma_notMem (h : WritesSizes sizes ps) : ∀ p ∈ ps, ',' ∉ p.toList := by
  induction h with
  | nil => simp
  | blank hp _ ih =>
    refine List.forall_mem_cons.2 ⟨fun hc => ?_, ih⟩
    cases hp _ hc
  | size _ hbefore hafter _ ih =>
    refine List.forall_mem_cons.2 ⟨?_, ih⟩
    rw [String.toList_append, String.toList_append]
    exact (intNumeral_toString hbefore _ hafter).comma_notMem

theorem numerals (h : WritesSizes sizes ps) :
    List.Forall₂ IntNumeral ((ps.map String.toList).filter fun p => !p.all isBlank) (sizes.map Int.ofNat) := by
  induction h with
  | nil => exact .nil
  | blank hp _ ih =>
    rw [List.map_cons, List.filter_cons_of_neg (by simpa using hp)]
    exact ih
  | @size _ _ before after n _ hbefore hafter _ ih =>
    have hnumeral := intNumeral_toString hbefore n hafter
    rw [List.map_cons, List.map_cons, String.toList_append, String.toList_append,
      List.filter_cons_of_pos (by rw [hnumeral.all_isBlank]; rfl)]
    exact .cons hnumeral ih

theorem one_le (h : WritesSizes sizes ps) : ∀ n ∈ sizes, 1 ≤ n := by
  induction h with
  | nil => simp
  | blank _ _ ih => exact ih
  | size hn _ _ _ ih => exact List.forall_mem_cons.2 ⟨hn, ih⟩

theorem readSizes_eq (h : WritesSizes sizes ps) (hne : sizes ≠ []) :
    readSizes (",".intercalate ps) = .ok (sizes.map Int.ofNat) := by
  have hps : ps ≠ [] := by
    rintro rfl
    cases h
    exact hne rfl
  have hbig : ¬(sizes.map Int.ofNat = [] ∨ ∃ i ∈ sizes.map Int.ofNat, i < 1) := by
    have hpos := h.one_le
    simp only [List.map_eq_nil_iff, List.mem_map, Int.ofNat_eq_natCast]
    rintro (hnil | ⟨_, ⟨n, hn, rfl⟩, hlt⟩)
    · exact hne hnil
    · have hn := hpos n hn
      omega
  have hnumerals : List.Forall₂ IntNumeral (sizeParts (",".intercalate ps)) (sizes.map Int.ofNat) := by
    rw [sizeParts_intercalate hps h.comma_notMem]
    exact h.numerals
  rw [readSizes_of_numerals hnumerals, if_neg hbig]

end WritesSizes

end Timing

open Timing Text

/-- Sizes written in decimal, with padding around each of them and blank parts anywhere, are read back. For every
text, some part between commas that is neither blank nor a numeral makes a value error that shows the first such
part, whatever the sizes are. Otherwise the numerals are the sizes in order, and it is an argument error that
there is none or that one of them is below 1. -/
theorem Timing.size_list_read_back :
    (∀ c ∈ [' ', '\t', '\n', '\x0b', '\x0c', '\r', '\u0085', '\u2028', '\u2029'], isPadding c) ∧
    (∀ (sizes : List Nat) (ps : List String), sizes ≠ [] → WritesSizes sizes ps →
      readSizes (",".intercalate ps) = .ok (sizes.map Int.ofNat)) ∧
    ∀ text,
      ((∃ p ∈ sizeParts text, ∀ i, ¬ IntNumeral p i) →
        ∃ front p back, sizeParts text = front ++ p :: back ∧ (∀ q ∈ front, ∃ i, IntNumeral q i) ∧
          (∀ i, ¬ IntNumeral p i) ∧ readSizes text = .error (.badNumeral (shownPart p)) ∧
          (Error.badNumeral (shownPart p)).kind = .value) ∧
      ((∀ p ∈ sizeParts text, ∃ i, IntNumeral p i) →
        ∃ sizes, List.Forall₂ IntNumeral (sizeParts text) sizes ∧
          ((sizeParts text = [] ∨ ∃ i ∈ sizes, i < 1) →
            readSizes text = .error .badSizes ∧ Error.badSizes.kind = .argument) ∧
          (sizeParts text ≠ [] → (∀ i ∈ sizes, 1 ≤ i) → readSizes text = .ok sizes)) := by
  refine ⟨List.all_eq_true.1 (by decide), fun sizes ps hne h => h.readSizes_eq hne, fun text => ⟨fun h => ?_, fun h => ?_⟩⟩
  · obtain ⟨front, p, back, hparts, hfront, hunread, herror⟩ := readParts_of_unread h
    refine ⟨front, p, back, hparts, hfront, hunread, ?_, rfl⟩
    rw [readSizes_eq, herror]
    rfl
  · obtain ⟨sizes, hsizes⟩ := exists_numerals h
    have hnil : sizeParts text = [] ↔ sizes = [] := by
      rw [← List.length_eq_zero_iff, hsizes.length_eq, List.length_eq_zero_iff]
    refine ⟨sizes, hsizes, fun hbad => ⟨?_, rfl⟩, fun hne hbig => ?_⟩
    · rw [hnil] at hbad
      rw [readSizes_of_numerals hsizes, if_pos hbad]
    · rw [readSizes_of_numerals hsizes, if_neg]
      rintro (hempty | ⟨i, hi, hlt⟩)
      · exact hne (hnil.2 hempty)
      · exact absurd hlt (Int.not_lt.2 (hbig i hi))

theorem Timing.size_list_read_back_short :
    readSizes " 5,,\t12\n" = .ok [5, 12] ∧ (∃ e, readSizes "0,x" = .error e ∧ e.kind = .value) ∧
      readSizes ", 0" = .error .badSizes := by
  have hwritten : WritesSizes [5, 12] [" " ++ toString 5 ++ "", "", "\t" ++ toString 12 ++ "\n"] :=
    .size (by decide) (List.all_eq_true.1 (by decide)) (by simp) <| .blank (by simp) <|
      .size (by decide) (List.all_eq_true.1 (by decide)) (List.all_eq_true.1 (by decide)) .nil
  have hx : ∀ i, ¬ IntNumeral ['x'] i := fun i h => by
    have hnone : readInt? ['x'] = none := by decide
    cases hnone.symm.trans h.readInt?_eq
  have hsmall : sizeParts ", 0" = [[' ', '0']] := by decide
  have hread : IntNumeral [' ', '0'] 0 := readInt?_eq_some_iff.1 (by decide)
  obtain ⟨-, hround, htext⟩ := size_list_read_back
  refine ⟨hround [5, 12] _ (by decide) hwritten, ?_, ?_⟩
  · obtain ⟨-, p, -, -, -, -, herror, hkind⟩ := (htext "0,x").1 ⟨['x'], by decide, hx⟩
    exact ⟨_, herror, hkind⟩
  · obtain ⟨sizes, hsizes, hbad, -⟩ := (htext ", 0").2 (by rw [hsmall]; simpa using ⟨0, hread⟩)
    rw [hsmall] at hsizes
    obtain ⟨i, is, hi, his, rfl⟩ := List.forall₂_cons_left_iff.1 hsizes
    have hzero : i = 0 := Option.some.inj (hi.readInt?_eq.symm.trans hread.readInt?_eq)
    exact (hbad (.inr ⟨i, by simp, by omega⟩)).1

end Nock

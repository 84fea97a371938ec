import Nock.Tensor.ElementType

/-!
# Integers of an element type

`wrap` gives integers that the type holds (`holds_wrap`), so it leaves alone those that the type holds
and no others (`wrap_eq_self_iff`). Narrowing stays among the types there are and is done once and for
all (`narrow_mem`, `narrow_narrow`). Every type is found under its own name (`ofName?_name`).
-/

namespace Nock.ElementType

variable {t : ElementType} {signed : Bool} {bits : Nat} {i : Int}

theorem ofName?_name : ∀ t ∈ all, ofName? t.name = some t := by decide

theorem mem_of_ofName? {s : String} (h : ofName? s = some t) : t ∈ all := by
  rcases Option.or_eq_some_iff.1 h with h | ⟨-, h⟩
  · exact List.mem_of_find?_eq_some h
  · have hfurther : ∀ p ∈ furtherNames, p.1 ∈ all := by decide
    obtain ⟨p, hp, rfl⟩ := Option.map_eq_some_iff.1 h
    exact hfurther p (List.mem_of_find?_eq_some hp)

theorem narrow_mem : ∀ t ∈ all, t.narrow ∈ all := by decide

theorem narrow_narrow (t : ElementType) : t.narrow.narrow = t.narrow := by
  cases t with
  | integer s b => simp only [narrow, Nat.min_assoc, Nat.min_self]
  | _ => rfl

theorem isInteger_narrow (t : ElementType) : t.narrow.isInteger = t.isInteger := by
  cases t <;> rfl

theorem bits_pos (h : integer signed bits ∈ all) : 0 < bits := by
  have hall : ∀ t ∈ all, ∀ s b, t = integer s b → 0 < b := by
    simp [all]
  exact hall _ h _ _ rfl

theorem holds_signed_iff (h : 0 < bits) : (integer true bits).holds i = true ↔
    -(Nat.pow 2 bits : Int) ≤ i * 2 ∧ i * 2 < Nat.pow 2 bits := by
  have hpow : Nat.pow 2 bits = 2 * Nat.pow 2 (bits - 1) := by
    obtain ⟨b, rfl⟩ := Nat.exists_eq_add_one.2 h
    exact Nat.pow_succ'
  rw [hpow]
  simp only [holds, least, greatest, if_true, Bool.and_eq_true, decide_eq_true_eq, Int.ofNat_eq_natCast]
  omega

theorem holds_unsigned_iff : (integer false bits).holds i = true ↔ 0 ≤ i ∧ i < Nat.pow 2 bits := by
  simp only [holds, least, greatest, Bool.false_eq_true, if_false, Bool.and_eq_true,
    decide_eq_true_eq, Int.ofNat_eq_natCast]
  omega

theorem holds_wrap (h : t ∈ all) (i : Int) : t.holds (t.wrap i) = true := by
  cases t with
  | integer signed bits =>
    have hpos : 0 < Nat.pow 2 bits := Nat.two_pow_pos bits
    cases signed with
    | true =>
      rw [holds_signed_iff (bits_pos h)]
      have hle : -(Nat.pow 2 bits / 2 : Int) ≤ i.bmod (Nat.pow 2 bits) := Int.le_bmod hpos
      have hlt : i.bmod (Nat.pow 2 bits) < (Nat.pow 2 bits + 1) / 2 := Int.bmod_lt hpos
      simp only [wrap]
      omega
    | false =>
      have hpos : (0 : Int) < Nat.pow 2 bits := Int.natCast_pos.2 hpos
      exact holds_unsigned_iff.2 ⟨Int.emod_nonneg i (Int.ne_of_gt hpos), Int.emod_lt_of_pos i hpos⟩
  | _ => rfl

theorem wrap_of_holds (h : t ∈ all) (hi : t.holds i = true) : t.wrap i = i := by
  cases t with
  | integer signed bits =>
    cases signed with
    | true =>
      obtain ⟨hle, hlt⟩ := (holds_signed_iff (bits_pos h)).1 hi
      exact Int.bmod_eq_of_le_mul_two hle hlt
    | false =>
      obtain ⟨hle, hlt⟩ := holds_unsigned_iff.1 hi
      exact Int.emod_eq_of_lt hle hlt
  | _ => rfl

theorem wrap_eq_self_iff (h : t ∈ all) : t.wrap i = i ↔ t.holds i = true := by
  constructor
  · intro hi
    rw [← hi]
    exact holds_wrap h i
  · exact wrap_of_holds h

theorem map_wrap_eq_self_iff (h : t ∈ all) {entries : List Int} :
    entries.map t.wrap = entries ↔ ∀ i ∈ entries, t.holds i = true := by
  have hmap : entries.map t.wrap = entries.map id ↔ ∀ i ∈ entries, t.wrap i = i := List.map_inj_left
  rw [List.map_id] at hmap
  exact hmap.trans (forall₂_congr fun i _ => wrap_eq_self_iff h)

end Nock.ElementType

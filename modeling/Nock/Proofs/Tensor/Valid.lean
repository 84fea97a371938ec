import Nock.Proofs.Tensor.ElementType
import Nock.Tensor.Rules

/-!
# Arrays from outside

The arrays that are built from entries are valid (`Tensor.Valid.of_ofEntries`): an entry is taken only if
the type holds what it becomes, and a length that is left open is what the entries leave for it.
-/

namespace Nock

namespace ElementType

variable {t : ElementType} {i j : Int}

theorem holds_of_entryOf? (h : t ∈ all) (hj : t.entryOf? i = some j) : t.holds j = true := by
  cases t with
  | integer signed bits =>
    have hj : (if (integer signed bits).isSmall then
        if (integer true 64).holds i then some ((integer signed bits).wrap i) else none
      else if (integer signed bits).holds i then some i else none) = some j := hj
    split at hj
    · split at hj
      · obtain rfl := Option.some.inj hj
        exact holds_wrap h i
      · cases hj
    · split at hj
      next hholds =>
        obtain rfl := Option.some.inj hj
        exact hholds
      next => cases hj
  | _ => rfl

theorem holds_of_mapM_entryOf? (h : t ∈ all) {is js : List Int}
    (hjs : is.mapM t.entryOf? = some js) : ∀ j ∈ js, t.holds j = true := by
  induction is generalizing js with
  | nil =>
    obtain rfl := Option.some.inj hjs
    exact List.forall_mem_nil _
  | cons i is ih =>
    rw [List.mapM_cons] at hjs
    obtain ⟨j, hj, hjs⟩ := Option.bind_eq_some_iff.1 hjs
    obtain ⟨js, his, hjs⟩ := Option.bind_eq_some_iff.1 hjs
    obtain rfl := Option.some.inj hjs
    exact List.forall_mem_cons.2 ⟨holds_of_entryOf? h hj, ih his⟩

end ElementType

namespace Tensor

open Rows (room)

theorem room_fill (q : Nat) (shape : List Int) :
    room (shape.map fun d => if d < 0 then q else d.toNat) =
      Nat.pow q (shape.countP (· < 0)) * room ((shape.filter (0 ≤ ·)).map Int.toNat) := by
  induction shape with
  | nil => rfl
  | cons d shape ih =>
    by_cases hd : d < 0
    · have hd' : ¬ 0 ≤ d := by omega
      simp [hd, hd', ih, Nat.pow_succ', Nat.mul_assoc]
    · have hd' : 0 ≤ d := by omega
      simp [hd, hd', ih, Nat.mul_left_comm]

theorem room_of_lengths? {shape : List Int} {count : Nat} {dims : List Nat}
    (h : lengths? shape count = some dims) : room dims = count := by
  simp only [lengths?] at h
  split at h
  next hnone =>
    have hroom := room_fill 0 shape
    have htoNat : (fun d : Int => if d < 0 then 0 else d.toNat) = Int.toNat := by
      funext d
      split <;> omega
    rw [hnone, htoNat] at hroom
    split at h
    next hcount =>
      obtain rfl := Option.some.inj h
      rw [hroom, hcount]
      exact Nat.one_mul count
    next => cases h
  next hone =>
    split at h
    next => cases h
    next hdvd =>
      obtain rfl := Option.some.inj h
      have hpow : ∀ q, Nat.pow q 1 = q := Nat.pow_one
      rw [room_fill, hone, hpow]
      have hmod : count % room ((shape.filter (0 ≤ ·)).map Int.toNat) = 0 := by
        by_contra hne
        exact hdvd (by simp [hne])
      exact Nat.div_mul_cancel (Nat.dvd_of_mod_eq_zero hmod)
  next => cases h

theorem Valid.of_ofEntries {type : ElementType} {shape entries : List Int} {t : Tensor}
    (htype : type ∈ ElementType.all) (h : ofEntries type shape entries = .ok t) : t.Valid := by
  unfold ofEntries at h
  cases hmap : entries.mapM type.entryOf? with
  | none =>
    rw [hmap] at h
    cases h
  | some entries' =>
    simp only [hmap] at h
    split at h
    next dims hdims =>
      split at h
      · cases h
      · cases h
        exact ⟨htype, (room_of_lengths? hdims).symm, ElementType.holds_of_mapM_entryOf? htype hmap⟩
    next => cases h

end Tensor

end Nock

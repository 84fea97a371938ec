import Nock.Proofs.Axis.Compose
import Nock.Proofs.Cell

/-!
# Axes of list positions

A list of nouns is nested to the right, so the way to an item goes to the tail once for each item in front of it,
and then to the head unless the item is the last one. As binary numbers these axes are ones only, with a zero
at the end for a head (`Axis.turns?_ones`, `Axis.turns?_ones_head`). Past some items in front, a lookup goes on in
what stands behind them, and an edit keeps them (`Noun.find?_past`, `Noun.replace?_past`).
-/

namespace Nock

namespace Axis

theorem turns?_ones (k : Nat) : turns? (Nat.pow 2 (k + 1) - 1) = some (List.replicate k .tail) := by
  induction k with
  | zero => rfl
  | succ k ih =>
    have hpow : Nat.pow 2 (k + 2) = 2 * Nat.pow 2 (k + 1) := Nat.mul_comm _ _
    have hlong : 2 ≤ Nat.pow 2 (k + 1) := Nat.le_mul_of_pos_left 2 (Nat.two_pow_pos k)
    have hdigit : Nat.pow 2 (k + 2) - 1 = 2 * (Nat.pow 2 (k + 1) - 1) + 1 := by omega
    rw [hdigit, turns?_double_succ (by omega), ih, Option.map_some, List.replicate_succ']

theorem turns?_ones_head (k : Nat) :
    turns? (Nat.pow 2 (k + 2) - 2) = some (List.replicate k .tail ++ [.head]) := by
  have hpow : Nat.pow 2 (k + 2) = 2 * Nat.pow 2 (k + 1) := Nat.mul_comm _ _
  have hlong : 2 ≤ Nat.pow 2 (k + 1) := Nat.le_mul_of_pos_left 2 (Nat.two_pow_pos k)
  have hdigit : Nat.pow 2 (k + 2) - 2 = 2 * (Nat.pow 2 (k + 1) - 1) := by omega
  rw [hdigit, turns?_double (by omega), turns?_ones, Option.map_some]

end Axis

namespace Noun

theorem find?_past (front : List Noun) (behind : Noun) (way : List Turn) :
    find? (List.replicate front.length .tail ++ way) (nest front behind) = find? way behind := by
  induction front with
  | nil => rfl
  | cons x front ih => exact ih

theorem replace?_past (front : List Noun) (behind leaf : Noun) (way : List Turn) :
    replace? (List.replicate front.length .tail ++ way) leaf (nest front behind) =
      (replace? way leaf behind).map (nest front) := by
  induction front with
  | nil => exact Option.map_id'.symm
  | cons x front ih =>
    have hcons := replace?_cons ⟨.tail, x⟩ (List.replicate front.length .tail ++ way) leaf (nest front behind)
    rw [ih, Option.map_map] at hcons
    exact hcons

theorem findAt?_item (before : List Noun) (x behind : Noun) :
    findAt? (atom (Nat.pow 2 (before.length + 2) - 2)) (nest before (cell x behind)) = some x := by
  rw [findAt?_of_turns? (Axis.turns?_ones_head before.length), find?_past]
  rfl

theorem replaceAt?_item (before : List Noun) (x behind v : Noun) :
    replaceAt? (atom (Nat.pow 2 (before.length + 2) - 2)) v (nest before (cell x behind)) =
      some (nest before (cell v behind)) := by
  rw [replaceAt?, Axis.turns?_ones_head, Option.bind_some, replace?_past]
  rfl

theorem findAt?_last (front : List Noun) (last : Noun) :
    findAt? (atom (Nat.pow 2 (front.length + 1) - 1)) (nest front last) = some last := by
  have hpast := find?_past front last []
  rw [List.append_nil] at hpast
  rw [findAt?_of_turns? (Axis.turns?_ones front.length), hpast]
  rfl

theorem replaceAt?_last (front : List Noun) (last v : Noun) :
    replaceAt? (atom (Nat.pow 2 (front.length + 1) - 1)) v (nest front last) = some (nest front v) := by
  have hpast := replace?_past front last v []
  rw [List.append_nil] at hpast
  rw [replaceAt?, Axis.turns?_ones, Option.bind_some, hpast]
  rfl

end Noun

/-- The item at index `k` of a list of nouns, if it is not the last one, is at axis `2 ^ (k + 2) - 2`, and the
last item at the axis that is, in binary, as many ones as there are items. To put a noun there is to build the
cell with the noun in place of the item. -/
theorem list_positions {items : List Noun} (h : 2 ≤ items.length) :
    ∃ t, Value.nest (items.map .ofNoun) = .ok t ∧
      (∀ (k : Nat) (hk : k + 1 < items.length),
        (Value.int (Nat.pow 2 (k + 2) - 2 : Nat)).findAt (.ofNoun t) = .ofNoun items[k] ∧
        ∀ v, ∃ t', Value.nest ((items.set k v).map .ofNoun) = .ok t' ∧
          (Value.int (Nat.pow 2 (k + 2) - 2 : Nat)).replaceAt (.ofNoun v) (.ofNoun t) = .ok (.ofNoun t')) ∧
      (Value.int (Nat.pow 2 items.length - 1 : Nat)).findAt (.ofNoun t) = .ofNoun items[items.length - 1] ∧
      ∀ v, ∃ t', Value.nest ((items.dropLast ++ [v]).map .ofNoun) = .ok t' ∧
        (Value.int (Nat.pow 2 items.length - 1 : Nat)).replaceAt (.ofNoun v) (.ofNoun t) =
          .ok (.ofNoun t') := by
  obtain rfl | ⟨front, last, rfl⟩ := items.eq_nil_or_concat
  · cases h
  simp only [List.concat_eq_append, List.length_append, List.length_singleton] at h ⊢
  have hne : front ≠ [] := List.length_pos_iff.1 (Nat.le_of_succ_le_succ h)
  refine ⟨.nest front last, Value.nest_ofNoun_concat hne last, fun k hk => ?item, ?last, fun v => ?edit⟩
  case item =>
    obtain ⟨before, x, after, rfl, rfl⟩ : ∃ before x after, front = before ++ x :: after ∧ before.length = k := by
      have hk' : k < front.length := by simpa using hk
      refine ⟨front.take k, front[k], front.drop (k + 1), ?_, List.length_take_of_le (Nat.le_of_lt hk')⟩
      rw [List.getElem_cons_drop, List.take_append_drop]
    rw [Noun.nest_append, Noun.nest_cons]
    refine ⟨?_, fun v => ⟨.nest before (.cell v (.nest after last)), ?_, ?_⟩⟩
    · rw [Value.findAt_int, Noun.findAt?_item]
      simp [Value.ofResult]
    · have hset : (before ++ x :: after ++ [last]).set before.length v = (before ++ v :: after) ++ [last] := by
        simp
      rw [hset, Value.nest_ofNoun_concat (by simp), Noun.nest_append, Noun.nest_cons]
    · rw [Value.replaceAt_int, Noun.replaceAt?_item]
      rfl
  case last =>
    rw [Value.findAt_int, Noun.findAt?_last]
    simp [Value.ofResult]
  case edit =>
    refine ⟨.nest front v, ?_, ?_⟩
    · rw [List.dropLast_concat, Value.nest_ofNoun_concat hne]
    · rw [Value.replaceAt_int, Noun.replaceAt?_last]
      rfl

/-- Of three items, the second is at axis 6 and the last one at axis 7. -/
theorem list_positions_of_three :
    let items : List Noun := [1, .cell 2 2, 3]
    2 ≤ items.length ∧ 1 + 1 < items.length ∧ ∃ t, Value.nest (items.map .ofNoun) = .ok t ∧
      (Value.int 6).findAt (.ofNoun t) = .ofNoun (.cell 2 2) ∧
      (Value.int 7).replaceAt (.int 9) (.ofNoun t) = .ok (.ofNoun (.cell 1 (.cell (.cell 2 2) 9))) := by
  intro items
  have h : 2 ≤ items.length := by decide
  have hk : 1 + 1 < items.length := by decide
  obtain ⟨t, ht, hitem, -, hlast⟩ := list_positions h
  obtain ⟨t', ht', hedit⟩ := hlast 9
  cases ht'
  exact ⟨h, hk, t, ht, (hitem 1 hk).1, hedit⟩

end Nock

import Nock.Proofs.Axis.Lookup

/-!
# Lookups along composed axes

The digits of `b` after its leading one, written behind those of `a`, make one axis. They are taken on one by
one, and each is one more turn, so the way to this axis is the way to `a` and from there the way to `b`
(`Axis.below_compose`). Hence a lookup there is a lookup at `b` in what is found at `a`
(`Noun.findAt?_of_below`, `Value.findAt_of_below`); one more digit looks up a half of a cell.
-/

namespace Nock

namespace Axis

theorem exists_turns? {a : Nat} (h : 0 < a) : ∃ way, turns? a = some way := by
  rw [turns?, if_neg (by omega)]
  exact ⟨_, rfl⟩

/-- A digit behind the lower axis is a digit behind both. -/
theorem Below.digit {a b c digit : Nat} (h : Below a b c) (hb : 0 < b) (hc : 0 < c) (hd : digit < 2) :
    Below a (2 * b + digit) (2 * c + digit) := by
  obtain ⟨way, way', ha, hb', hc'⟩ := h
  refine ⟨way, way' ++ [Turn.ofDigit digit], ha, ?_, ?_⟩
  · rw [turns?_digit hb hd, hb']
    rfl
  · rw [turns?_digit hc hd, hc', Option.map_some, List.append_assoc]

/-- The digits of `b` after the leading one, which are `k`, written behind `a`. -/
theorem below_compose {a b k : Nat} (ha : 0 < a) (hb : Nat.pow 2 k ≤ b) (hb' : b < Nat.pow 2 (k + 1)) :
    Below a b (a * Nat.pow 2 k + (b - Nat.pow 2 k)) := by
  induction k generalizing b with
  | zero =>
    obtain rfl : b = 1 := by
      have : Nat.pow 2 0 = 1 := rfl
      have : Nat.pow 2 (0 + 1) = 2 := rfl
      omega
    obtain ⟨way, hway⟩ := exists_turns? ha
    exact ⟨way, [], hway, rfl, by simpa [Nat.pow] using hway⟩
  | succ k ih =>
    -- the last digit of `b` is the last digit of the composed axis
    have hpow (j : Nat) : Nat.pow 2 (j + 1) = 2 * Nat.pow 2 j := Nat.mul_comm _ _
    have hpos : 0 < Nat.pow 2 k := Nat.two_pow_pos k
    have hhalf : Nat.pow 2 k ≤ b / 2 := by rw [hpow] at hb; omega
    have hhalf' : b / 2 < Nat.pow 2 (k + 1) := by rw [hpow (k + 1)] at hb'; omega
    have hc : 0 < a * Nat.pow 2 k + (b / 2 - Nat.pow 2 k) := Nat.add_pos_left (Nat.mul_pos ha hpos) _
    have h := (ih hhalf hhalf').digit (by omega) hc (Nat.mod_lt b Nat.two_pos)
    have hcomp : 2 * (a * Nat.pow 2 k + (b / 2 - Nat.pow 2 k)) + b % 2 =
        a * Nat.pow 2 (k + 1) + (b - Nat.pow 2 (k + 1)) := by
      rw [hpow, Nat.mul_left_comm a 2]
      omega
    rwa [hcomp, Nat.div_add_mod] at h

end Axis

namespace Noun

theorem findAt?_of_turns? {a : Nat} {way : List Turn} (h : Axis.turns? a = some way) :
    findAt? (atom a) = find? way := by
  funext tree
  rw [findAt?, h, Option.bind_some]

theorem findAt?_of_below {a b c : Nat} (h : Axis.Below a b c) (tree : Noun) :
    findAt? (atom c) tree = (findAt? (atom a) tree).bind (findAt? (atom b)) := by
  obtain ⟨way, way', ha, hb, hc⟩ := h
  rw [findAt?_of_turns? ha, findAt?_of_turns? hb, findAt?_of_turns? hc]
  exact find?_append way way' tree

end Noun

namespace Value

theorem findAt_crash (axis : Value) : axis.findAt crash = crash := by
  unfold findAt
  split
  · rfl
  · next h => cases h
  · rfl

/-- A value that is no cell has no places below its root. -/
theorem findAt_of_not_isCell {a : Nat} {way : List Turn} {tree : Value} (ha : Axis.turns? a = some way)
    (h : tree.isCell = false) : (ofNoun (.atom a)).findAt tree = if way = [] then tree else crash := by
  unfold findAt
  rw [turns?_ofNoun_atom, ha]
  cases way with
  | nil => rfl
  | cons d way =>
    cases tree with
    | cell h t => cases h
    | _ => rfl

theorem findAt_of_below {a b c : Nat} (h : Axis.Below a b c) (tree : Value) :
    (ofNoun (.atom c)).findAt tree = (ofNoun (.atom b)).findAt ((ofNoun (.atom a)).findAt tree) := by
  cases hcell : tree.isCell with
  | true =>
    obtain ⟨n, rfl⟩ : ∃ n, tree = ofNoun n := by
      cases tree with
      | cell l r => exact ⟨.cell l r, rfl⟩
      | _ => cases hcell
    rw [findAt_ofNoun, findAt_ofNoun, Noun.findAt?_of_below h]
    cases (Noun.atom a).findAt? n with
    | none => exact (findAt_crash _).symm
    | some u => exact (findAt_ofNoun (.atom b) u).symm
  | false =>
    obtain ⟨way, way', ha, hb, hc⟩ := h
    rw [findAt_of_not_isCell hc hcell, findAt_of_not_isCell ha hcell]
    cases way with
    | nil => exact (findAt_of_not_isCell hb hcell).symm
    | cons d way => exact (findAt_crash _).symm

end Value

open Noun (atom cell findAt?)

/-- The axis made of the digits of `a` and, after its leading one, those of `b`, which are `k`, is the place `b`
below the place `a`: nothing is found there if nothing is found at `a`, and otherwise what is found at `b` in
what is found at `a`. Values are looked up in the same way, nouns or not. One digit more finds a half of the
cell that is found at `a`, and nothing if no cell is found there. -/
theorem lookup_composes {a b k : Nat} (ha : 0 < a) (hb : Nat.pow 2 k ≤ b) (hb' : b < Nat.pow 2 (k + 1)) :
    Axis.Below a b (a * Nat.pow 2 k + (b - Nat.pow 2 k)) ∧
    (∀ tree, findAt? (atom (a * Nat.pow 2 k + (b - Nat.pow 2 k))) tree =
      match findAt? (atom a) tree with
      | none => none
      | some u => findAt? (atom b) u) ∧
    (∀ tree : Value, (Value.ofNoun (atom (a * Nat.pow 2 k + (b - Nat.pow 2 k)))).findAt tree =
      match (Value.ofNoun (atom a)).findAt tree with
      | .crash => .crash
      | v => (Value.ofNoun (atom b)).findAt v) ∧
    (∀ tree, findAt? (atom (2 * a)) tree =
      match findAt? (atom a) tree with
      | some (cell h _) => some h
      | _ => none) ∧
    ∀ tree, findAt? (atom (2 * a + 1)) tree =
      match findAt? (atom a) tree with
      | some (cell _ t) => some t
      | _ => none := by
  have hbelow := Axis.below_compose ha hb hb'
  refine ⟨hbelow, fun tree => ?noun, fun tree => ?value, fun tree => ?head, fun tree => ?tail⟩
  case noun =>
    rw [Noun.findAt?_of_below hbelow]
    cases findAt? (atom a) tree <;> rfl
  case value =>
    rw [Value.findAt_of_below hbelow]
    split
    · next h => rw [h, Value.findAt_crash]
    · rfl
  case head =>
    rw [Noun.findAt?_double ha]
    rcases findAt? (atom a) tree with _ | _ | _ <;> rfl
  case tail =>
    rw [Noun.findAt?_double_succ ha]
    rcases findAt? (atom a) tree with _ | _ | _ <;> rfl

/-- Axis 14 is axis 6 below axis 3, the head of the tail of a tail. -/
theorem lookup_composes_at_tail : 0 < 3 ∧ Nat.pow 2 2 ≤ 6 ∧ 6 < Nat.pow 2 3 ∧
    findAt? 3 (cell 1 (cell 2 (cell 3 4))) = some (cell 2 (cell 3 4)) ∧
    findAt? 6 (cell 2 (cell 3 4)) = some 3 ∧ findAt? 14 (cell 1 (cell 2 (cell 3 4))) = some 3 := by
  have ha : 0 < 3 := by decide
  have hb : Nat.pow 2 2 ≤ 6 := by decide
  have hb' : 6 < Nat.pow 2 3 := by decide
  have h := (lookup_composes ha hb hb').2.1 (cell 1 (cell 2 (cell 3 4)))
  exact ⟨ha, hb, hb', rfl, rfl, h.trans rfl⟩

end Nock

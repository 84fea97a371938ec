import Mathlib.Data.Nat.Size
import Mathlib.Data.Set.Card
import Nock.Noun.Measure
import Nock.Proofs.Axis.Compose

/-!
# Counting axes

Ways down and axes go together one to one (`Axis.turns?_eq_some_iff`), so the axes of subtrees with a property
are as many as the ways to them. The ways into a cell are the one to the cell itself, those into its head and
those into its tail, no two of them alike (`Noun.encard_waysWhere_cell`). That is how the size and the leaves of
a noun are counted as well; and the longest way has as many turns as the noun is deep.
-/

namespace Nock

namespace Axis

theorem ofTurns_injective : Function.Injective ofTurns := by
  intro way way' h
  have hway : turns? (ofTurns way') = some way := turns?_eq_some_iff.2 h.symm
  exact Option.some.inj (hway.symm.trans (turns?_ofTurns way'))

/-- The binary digits of an axis are one more than the turns of the way to it. -/
theorem size_ofTurns (way : List Turn) : (ofTurns way).size = way.length + 1 := by
  induction way using List.reverseRecOn with
  | nil => exact Nat.size_one
  | append_singleton way d ih =>
    have hpos := ofTurns_pos way
    rw [List.length_append, List.length_singleton, ← ih]
    cases d with
    | head =>
      have hbit : Nat.bit false (ofTurns way) = 2 * ofTurns way := Nat.bit_val ..
      rw [ofTurns_head, ← hbit]
      exact Nat.size_bit (by omega)
    | tail =>
      have hbit : Nat.bit true (ofTurns way) = 2 * ofTurns way + 1 := Nat.bit_val ..
      rw [ofTurns_tail, ← hbit]
      exact Nat.size_bit (by omega)

end Axis

namespace Noun

variable {way : List Turn} {n u : Noun}

/-- The ways down to the subtrees with a property. -/
def waysWhere (p : Noun → Prop) (n : Noun) : Set (List Turn) := {way | ∃ u, find? way n = some u ∧ p u}

theorem waysWhere_atom (p : Noun → Prop) (a : Nat) :
    waysWhere p (atom a) = {way | way = [] ∧ p (atom a)} := by
  ext way
  constructor
  · rintro ⟨u, hu, hp⟩
    cases way with
    | nil =>
      cases hu
      exact ⟨rfl, hp⟩
    | cons d way => cases hu
  · rintro ⟨rfl, hp⟩
    exact ⟨_, rfl, hp⟩

theorem waysWhere_cell (p : Noun → Prop) (h t : Noun) : waysWhere p (cell h t) =
    {way | way = [] ∧ p (cell h t)} ∪
      (List.cons .head '' waysWhere p h ∪ List.cons .tail '' waysWhere p t) := by
  ext way
  constructor
  · rintro ⟨u, hu, hp⟩
    rcases way with _ | ⟨_ | _, way⟩
    · cases hu
      exact .inl ⟨rfl, hp⟩
    · exact .inr (.inl ⟨way, ⟨u, hu, hp⟩, rfl⟩)
    · exact .inr (.inr ⟨way, ⟨u, hu, hp⟩, rfl⟩)
  · rintro (⟨rfl, hp⟩ | ⟨way, ⟨u, hu, hp⟩, rfl⟩ | ⟨way, ⟨u, hu, hp⟩, rfl⟩)
    · exact ⟨_, rfl, hp⟩
    · exact ⟨u, hu, hp⟩
    · exact ⟨u, hu, hp⟩

theorem encard_waysWhere_cell (p : Noun → Prop) (h t : Noun) : (waysWhere p (cell h t)).encard =
    {way : List Turn | way = [] ∧ p (cell h t)}.encard +
      ((waysWhere p h).encard + (waysWhere p t).encard) := by
  have hroot : Disjoint {way : List Turn | way = [] ∧ p (cell h t)}
      (List.cons .head '' waysWhere p h ∪ List.cons .tail '' waysWhere p t) := by
    rw [Set.disjoint_left]
    rintro way ⟨rfl, -⟩ (⟨way, -, hway⟩ | ⟨way, -, hway⟩) <;> cases hway
  have hhalves : Disjoint (List.cons Turn.head '' waysWhere p h) (List.cons Turn.tail '' waysWhere p t) := by
    rw [Set.disjoint_left]
    rintro way ⟨way, -, rfl⟩ ⟨way', -, hway⟩
    cases hway
  rw [waysWhere_cell, Set.encard_union_eq hroot, Set.encard_union_eq hhalves,
    List.cons_injective.encard_image, List.cons_injective.encard_image]

theorem encard_ways (n : Noun) : (waysWhere (fun _ => True) n).encard = n.size := by
  induction n with
  | atom a => simp [waysWhere_atom]
  | cell h t ihh iht =>
    have hroot : {way : List Turn | way = [] ∧ True}.encard = 1 := by simp
    rw [encard_waysWhere_cell, ihh, iht, hroot, size_cell, add_comm]
    rfl

theorem encard_leafWays (n : Noun) : (waysWhere (fun u => ∃ b, u = atom b) n).encard = n.leaves := by
  induction n with
  | atom a => simp [waysWhere_atom, leaves]
  | cell h t ihh iht =>
    have hroot : {way : List Turn | way = [] ∧ ∃ b, cell h t = atom b}.encard = 0 := by simp
    rw [encard_waysWhere_cell, ihh, iht, hroot, zero_add, leaves]
    rfl

theorem length_le_depth (hu : find? way n = some u) : way.length ≤ n.depth := by
  induction n generalizing way with
  | atom a =>
    cases way with
    | nil => exact Nat.le_refl 0
    | cons d way => cases hu
  | cell h t ihh iht =>
    rcases way with _ | ⟨_ | _, way⟩
    · exact Nat.zero_le _
    · have hle : way.length ≤ h.depth := ihh hu
      exact Nat.succ_le_succ (Nat.le_trans hle (Nat.le_max_left ..))
    · have hle : way.length ≤ t.depth := iht hu
      exact Nat.succ_le_succ (Nat.le_trans hle (Nat.le_max_right ..))

theorem exists_way_of_depth (n : Noun) : ∃ way u, find? way n = some u ∧ way.length = n.depth := by
  induction n with
  | atom a => exact ⟨[], _, rfl, rfl⟩
  | cell h t ihh iht =>
    obtain ⟨way, u, hu, hway⟩ := ihh
    obtain ⟨way', u', hu', hway'⟩ := iht
    rcases Nat.le_total h.depth t.depth with hle | hle
    · exact ⟨.tail :: way', u', hu', by rw [List.length_cons, hway', depth, Nat.max_eq_right hle]⟩
    · exact ⟨.head :: way, u, hu, by rw [List.length_cons, hway, depth, Nat.max_eq_left hle]⟩

/-- The axes of the subtrees with a property are those that the ways to them lead to. -/
theorem axes_eq (p : Noun → Prop) (n : Noun) :
    {a | ∃ u, findAt? (atom a) n = some u ∧ p u} = Axis.ofTurns '' waysWhere p n := by
  ext a
  constructor
  · rintro ⟨u, hu, hp⟩
    obtain ⟨way, hway, hu⟩ := Option.bind_eq_some_iff.1 hu
    exact ⟨way, ⟨u, hu, hp⟩, (Axis.turns?_eq_some_iff.1 hway).symm⟩
  · rintro ⟨way, ⟨u, hu, hp⟩, rfl⟩
    refine ⟨u, ?_, hp⟩
    rwa [findAt?_of_turns? (Axis.turns?_ofTurns way)]

end Noun

namespace Value

variable {r : Option Noun}

theorem ofResult_ne_crash_iff : ofResult r ≠ crash ↔ ∃ u, r = some u := by
  rcases r with _ | _ | _ <;> simp [ofResult, ofNoun]

theorem ofResult_eq_int_iff {b : Nat} : ofResult r = int b ↔ r = some (.atom b) := by
  rcases r with _ | _ | _ <;> simp [ofResult, ofNoun]

theorem measure_ofNoun (n : Noun) :
    (ofNoun n).measure = .ok (if n.isCell then .cell else .atom, n.measure) := by
  cases n <;> rfl

end Value

open Noun (atom cell findAt?)

/-- The size of a noun is the number of its axes, its leaves the number of axes at which an atom is found, and
its depth the greatest number of binary digits of its axes, less one. There is one leaf more than there are
cells. -/
theorem measure_counts_axes (n : Noun) :
    let axes := {a : Nat | 1 ≤ a ∧ (Value.int a).findAt (.ofNoun n) ≠ .crash}
    (Value.ofNoun n).measure = .ok (if n.isCell then .cell else .atom, n.measure) ∧
    axes.encard = n.measure.size ∧
    {a : Nat | 1 ≤ a ∧ ∃ b : Nat, (Value.int a).findAt (.ofNoun n) = .int b}.encard = n.measure.leaves ∧
    IsGreatest ((fun a : Nat => a.size - 1) '' axes) n.measure.depth ∧
    n.measure.size + 1 = 2 * n.measure.leaves := by
  intro axes
  have haxes : axes = Axis.ofTurns '' n.waysWhere fun _ => True := by
    rw [← Noun.axes_eq]
    ext a
    show 1 ≤ a ∧ (Value.int a).findAt (.ofNoun n) ≠ .crash ↔ ∃ u, findAt? (atom a) n = some u ∧ True
    simp only [Value.findAt_int, Value.ofResult_ne_crash_iff, and_true]
    exact and_iff_right_of_imp fun ⟨_, hu⟩ => Noun.pos_of_findAt? hu
  have hleaves : {a : Nat | 1 ≤ a ∧ ∃ b : Nat, (Value.int a).findAt (.ofNoun n) = .int b} =
      Axis.ofTurns '' n.waysWhere fun u => ∃ b, u = atom b := by
    rw [← Noun.axes_eq]
    ext a
    show 1 ≤ a ∧ (∃ b : Nat, (Value.int a).findAt (.ofNoun n) = .int b) ↔
      ∃ u, findAt? (atom a) n = some u ∧ ∃ b, u = atom b
    simp only [Value.findAt_int, Value.ofResult_eq_int_iff]
    constructor
    · rintro ⟨-, b, hb⟩
      exact ⟨_, hb, b, rfl⟩
    · rintro ⟨_, hb, b, rfl⟩
      exact ⟨Noun.pos_of_findAt? hb, b, hb⟩
  have hlength : (fun a : Nat => a.size - 1) ∘ Axis.ofTurns = List.length := by
    funext way
    rw [Function.comp_apply, Axis.size_ofTurns, Nat.add_sub_cancel]
  -- the axes are counted by the ways to them, whose lengths are those of the digits less one
  rw [Value.measure_ofNoun, haxes, hleaves, Axis.ofTurns_injective.encard_image,
    Axis.ofTurns_injective.encard_image, Noun.encard_ways, Noun.encard_leafWays, ← Set.image_comp, hlength,
    n.measure_eq]
  refine ⟨rfl, rfl, rfl, ⟨?reached, ?greatest⟩, n.size_eq_leaves⟩
  case reached =>
    obtain ⟨way, u, hu, hway⟩ := n.exists_way_of_depth
    exact ⟨way, ⟨u, hu, trivial⟩, hway⟩
  case greatest =>
    rintro _ ⟨way, ⟨u, hu, -⟩, rfl⟩
    exact Noun.length_le_depth hu

end Nock

import Nock.Axis
import Nock.Axis.Rules

/-!
# Axes by their numbers

A way down in two parts is followed and edited part by part (`find?_append`, `replace?_append`). Since
one more binary digit is one more turn, lookup and edit at `2n` and `2n + 1` are told by those at `n`,
and so by the rules of `Axis.Finds` and `Axis.Edits`.
-/

namespace Nock

theorem Axis.induction {P : (a : Nat) → 0 < a → Prop} (one : P 1 Nat.one_pos)
    (double : ∀ n (h : 0 < n), P n h → P (2 * n) (by omega))
    (double_succ : ∀ n (h : 0 < n), P n h → P (2 * n + 1) (Nat.succ_pos _)) (a : Nat) (h : 0 < a) :
    P a h := by
  induction a using Nat.strongRecOn with
  | ind a ih =>
    obtain ⟨n, hn⟩ | ⟨n, hn⟩ : (∃ n, a = 2 * n) ∨ ∃ n, a = 2 * n + 1 := by
      rcases Nat.mod_two_eq_zero_or_one a with hmod | hmod
      · exact .inl ⟨a / 2, by omega⟩
      · exact .inr ⟨a / 2, by omega⟩
    · subst hn
      exact double n (by omega) (ih n (by omega) (by omega))
    · subst hn
      rcases Nat.eq_zero_or_pos n with rfl | hpos
      · exact one
      · exact double_succ n hpos (ih n (by omega) hpos)

namespace Noun

theorem find?_append (way way' : List Turn) (n : Noun) :
    find? (way ++ way') n = (find? way n).bind (find? way') := by
  induction way generalizing n with
  | nil => rfl
  | cons d way ih =>
    cases n with
    | atom a => rfl
    | cell h t =>
      cases d with
      | head => exact ih h
      | tail => exact ih t

/-- Every cell is a crumb on either side, around the half that is taken. -/
theorem exists_crumb (d : Turn) (h t : Noun) : ∃ c n, Crumb.taken c = d ∧ c.around n = cell h t := by
  cases d with
  | head => exact ⟨⟨.head, t⟩, h, rfl, rfl⟩
  | tail => exact ⟨⟨.tail, h⟩, t, rfl, rfl⟩

theorem find?_cons (c : Crumb) (way : List Turn) (n : Noun) :
    find? (c.taken :: way) (c.around n) = find? way n := by
  obtain ⟨_ | _, left⟩ := c <;> rfl

theorem crumbs?_cons (c : Crumb) (way : List Turn) (n : Noun) (above : List Crumb) :
    crumbs? (c.taken :: way) (c.around n) above = crumbs? way n (c :: above) := by
  obtain ⟨_ | _, left⟩ := c <;> rfl

theorem crumbs?_above (way : List Turn) (n : Noun) (above : List Crumb) :
    crumbs? way n above = (crumbs? way n []).map (· ++ above) := by
  induction way generalizing n above with
  | nil => rfl
  | cons d way ih =>
    cases n with
    | atom a => rfl
    | cell h t =>
      obtain ⟨c, n, rfl, hc⟩ := exists_crumb d h t
      rw [← hc, crumbs?_cons, crumbs?_cons, ih n (c :: above), ih n [c], Option.map_map]
      congr 1
      funext crumbs
      simp

theorem replace?_nil (leaf tree : Noun) : replace? [] leaf tree = some leaf := rfl

theorem replace?_cons (c : Crumb) (way : List Turn) (leaf n : Noun) :
    replace? (c.taken :: way) leaf (c.around n) = (replace? way leaf n).map c.around := by
  rw [replace?, crumbs?_cons, crumbs?_above, Option.map_map, replace?, Option.map_map]
  congr 1
  funext crumbs
  simp

theorem replace?_append (way way' : List Turn) (leaf tree : Noun) :
    replace? (way ++ way') leaf tree = (find? way tree).bind fun below =>
      (replace? way' leaf below).bind fun new => replace? way new tree := by
  induction way generalizing tree with
  | nil => simp [find?, replace?_nil]
  | cons d way ih =>
    cases tree with
    | atom a => rfl
    | cell h t =>
      obtain ⟨c, n, rfl, hc⟩ := exists_crumb d h t
      simp only [List.cons_append, ← hc, replace?_cons, find?_cons, ih, Option.map_bind,
        Function.comp_def]

theorem findAt?_zero (tree : Noun) : findAt? (atom 0) tree = none := rfl

theorem findAt?_one (tree : Noun) : findAt? (atom 1) tree = some tree := rfl

theorem findAt?_turn {a b : Nat} {d : Turn} (h : Axis.turns? b = (Axis.turns? a).map (· ++ [d]))
    (tree : Noun) : findAt? (atom b) tree = (findAt? (atom a) tree).bind (find? [d]) := by
  simp only [findAt?, h]
  cases Axis.turns? a with
  | none => rfl
  | some way => exact find?_append way [d] tree

theorem findAt?_double {a : Nat} (h : 0 < a) (tree : Noun) :
    findAt? (atom (2 * a)) tree = (findAt? (atom a) tree).bind (find? [.head]) :=
  findAt?_turn (Axis.turns?_double h) tree

theorem findAt?_double_succ {a : Nat} (h : 0 < a) (tree : Noun) :
    findAt? (atom (2 * a + 1)) tree = (findAt? (atom a) tree).bind (find? [.tail]) :=
  findAt?_turn (Axis.turns?_double_succ h) tree

theorem replaceAt?_zero (leaf tree : Noun) : replaceAt? (atom 0) leaf tree = none := rfl

theorem replaceAt?_one (leaf tree : Noun) : replaceAt? (atom 1) leaf tree = some leaf := rfl

/-- To edit a half of a cell is to edit the cell. -/
theorem replaceAt?_turn {a b : Nat} {d : Turn} (h : Axis.turns? b = (Axis.turns? a).map (· ++ [d]))
    (leaf tree : Noun) : replaceAt? (atom b) leaf tree = (findAt? (atom a) tree).bind fun below =>
      (replace? [d] leaf below).bind fun new => replaceAt? (atom a) new tree := by
  simp only [replaceAt?, findAt?, h]
  cases Axis.turns? a with
  | none => rfl
  | some way => exact replace?_append way [d] leaf tree

theorem replaceAt?_double {a : Nat} (h : 0 < a) (leaf tree : Noun) :
    replaceAt? (atom (2 * a)) leaf tree =
      (findAt? (atom (2 * a + 1)) tree).bind fun u => replaceAt? (atom a) (cell leaf u) tree := by
  rw [replaceAt?_turn (Axis.turns?_double h), findAt?_double_succ h, Option.bind_assoc]
  congr 1
  funext below
  cases below <;> rfl

theorem replaceAt?_double_succ {a : Nat} (h : 0 < a) (leaf tree : Noun) :
    replaceAt? (atom (2 * a + 1)) leaf tree =
      (findAt? (atom (2 * a)) tree).bind fun u => replaceAt? (atom a) (cell u leaf) tree := by
  rw [replaceAt?_turn (Axis.turns?_double_succ h), findAt?_double h, Option.bind_assoc]
  congr 1
  funext below
  cases below <;> rfl

theorem pos_of_findAt? {a : Nat} {tree u : Noun} (h : findAt? (atom a) tree = some u) : 0 < a := by
  rcases Nat.eq_zero_or_pos a with rfl | hpos
  · rw [findAt?_zero] at h
    cases h
  · exact hpos

theorem pos_of_replaceAt? {a : Nat} {leaf tree u : Noun}
    (h : replaceAt? (atom a) leaf tree = some u) : 0 < a := by
  rcases Nat.eq_zero_or_pos a with rfl | hpos
  · rw [replaceAt?_zero] at h
    cases h
  · exact hpos

/-- The walk down the tree finds what the rules of axes say. -/
theorem findAt?_eq_some_iff {axis tree u : Noun} :
    findAt? axis tree = some u ↔ Axis.Finds axis tree u := by
  constructor
  · cases axis with
    | cell h t => intro hu; cases hu
    | atom a =>
      intro hu
      have ha := pos_of_findAt? hu
      induction a, ha using Axis.induction generalizing u with
      | one =>
        rw [findAt?_one] at hu
        cases hu
        exact .root
      | double n hn ih =>
        rw [findAt?_double hn] at hu
        obtain ⟨c, hc, hcu⟩ := Option.bind_eq_some_iff.1 hu
        cases c with
        | atom b => cases hcu
        | cell h t => cases hcu; exact .head (ih hc)
      | double_succ n hn ih =>
        rw [findAt?_double_succ hn] at hu
        obtain ⟨c, hc, hcu⟩ := Option.bind_eq_some_iff.1 hu
        cases c with
        | atom b => cases hcu
        | cell h t => cases hcu; exact .tail (ih hc)
  · intro h
    induction h with
    | root => exact findAt?_one _
    | head _ ih => rw [findAt?_double (pos_of_findAt? ih), ih]; rfl
    | tail _ ih => rw [findAt?_double_succ (pos_of_findAt? ih), ih]; rfl

theorem findAt?_eq_none_iff {axis tree : Noun} :
    findAt? axis tree = none ↔ ∀ u, ¬ Axis.Finds axis tree u := by
  simp only [Option.eq_none_iff_forall_ne_some, ne_eq, findAt?_eq_some_iff]

/-- The rebuilt spine is the edit that the rules of axes say. -/
theorem replaceAt?_eq_some_iff {axis leaf tree r : Noun} :
    replaceAt? axis leaf tree = some r ↔ Axis.Edits axis leaf tree r := by
  constructor
  · cases axis with
    | cell h t => intro hr; cases hr
    | atom a =>
      intro hr
      have ha := pos_of_replaceAt? hr
      induction a, ha using Axis.induction generalizing leaf with
      | one =>
        rw [replaceAt?_one] at hr
        cases hr
        exact .root
      | double n hn ih =>
        rw [replaceAt?_double hn] at hr
        obtain ⟨u, hu, hr⟩ := Option.bind_eq_some_iff.1 hr
        exact .head (findAt?_eq_some_iff.1 hu) (ih hr)
      | double_succ n hn ih =>
        rw [replaceAt?_double_succ hn] at hr
        obtain ⟨u, hu, hr⟩ := Option.bind_eq_some_iff.1 hr
        exact .tail (findAt?_eq_some_iff.1 hu) (ih hr)
  · intro h
    induction h with
    | root => exact replaceAt?_one _ _
    | head hu _ ih =>
      rw [replaceAt?_double (pos_of_replaceAt? ih), findAt?_eq_some_iff.2 hu]
      exact ih
    | tail hu _ ih =>
      rw [replaceAt?_double_succ (pos_of_replaceAt? ih), findAt?_eq_some_iff.2 hu]
      exact ih

theorem replaceAt?_eq_none_iff {axis leaf tree : Noun} :
    replaceAt? axis leaf tree = none ↔ ∀ r, ¬ Axis.Edits axis leaf tree r := by
  simp only [Option.eq_none_iff_forall_ne_some, ne_eq, replaceAt?_eq_some_iff]

end Noun

end Nock

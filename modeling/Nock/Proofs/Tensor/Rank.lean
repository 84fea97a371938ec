import Nock.Proofs.Tensor.RoundTrip

/-!
# The rank of an array tells its rows apart

In tuple form the last row has no mark behind it and runs on into the row that it is part of, so the items of a
list noun cannot be told from the noun alone. But the way down the heads of the noun of an array has as many
cells as the array has axes (`Tensor.Spells.headDepth_eq`), and items that agree in this number are told apart:
one that ran on into further items would have one cell more (`Noun.nest_inj_of_headDepth`). In terminated form
the items are all that stands in front of the 0. So the rows of an array follow from its noun and its rank
(`Tensor.Spells.ofShape_unique`), and so does its shape where no axis is empty (`Rows.shape_unique`).
-/

namespace Nock

namespace Noun

/-- The number of cells on the way down the heads. -/
def headDepth : Noun → Nat
  | atom _ => 0
  | cell h _ => h.headDepth + 1

theorem nest_inj_of_headDepth {r : Nat} {front front' : List Noun} {last last' : Noun}
    (hlast : last.headDepth = r) (hlast' : last'.headDepth = r)
    (hfront : ∀ x ∈ front, x.headDepth = r) (hfront' : ∀ x ∈ front', x.headDepth = r)
    (h : nest front last = nest front' last') : front = front' ∧ last = last' := by
  induction front generalizing front' with
  | nil =>
    rcases front' with _ | ⟨y, front'⟩
    · exact ⟨rfl, h⟩
    · -- `last` runs on into further items, and so is one cell deeper than they are
      have hy : y.headDepth = r := hfront' y (List.mem_cons_self ..)
      have hdeep : last.headDepth = y.headDepth + 1 := congrArg headDepth h
      omega
  | cons x front ih =>
    rcases front' with _ | ⟨y, front'⟩
    · have hx : x.headDepth = r := hfront x (List.mem_cons_self ..)
      have hdeep : x.headDepth + 1 = last'.headDepth := congrArg headDepth h
      omega
    · obtain ⟨rfl, hrest⟩ := cell.inj h
      obtain ⟨rfl, rfl⟩ := ih (List.forall_mem_cons.1 hfront).2 (List.forall_mem_cons.1 hfront').2 hrest
      exact ⟨rfl, rfl⟩

end Noun

namespace ListForm

variable {items items' : List Noun} {n : Noun}

theorem items_unique_of_terminated (h : terminated.Lists items n) (h' : terminated.Lists items' n) :
    items = items' := by
  have hspine (xs : List Noun) : (Noun.nest xs 0).spine.1 = xs := congrArg Prod.fst (Noun.spine_nest xs 0)
  have h : n = Noun.nest items 0 := h
  have h' : n = Noun.nest items' 0 := h'
  rw [← hspine items, ← h, h', hspine]

theorem items_unique_of_headDepth {r : Nat} (h : tuple.Lists items n) (h' : tuple.Lists items' n)
    (hdepth : ∀ x ∈ items, x.headDepth = r) (hdepth' : ∀ x ∈ items', x.headDepth = r) :
    items = items' := by
  obtain ⟨front, last, rfl, hn⟩ := h
  obtain ⟨front', last', rfl, hn'⟩ := h'
  obtain ⟨hfront, hlast⟩ := List.forall_mem_append.1 hdepth
  obtain ⟨hfront', hlast'⟩ := List.forall_mem_append.1 hdepth'
  obtain ⟨rfl, rfl⟩ := Noun.nest_inj_of_headDepth (hlast last (List.mem_singleton_self last))
    (hlast' last' (List.mem_singleton_self last')) hfront hfront' (hn.symm.trans hn')
  rfl

end ListForm

namespace Rows

variable {shape shape' : List Nat} {entries entries' : List Int}

theorem ofShape_flatten {blocks : List (List Int)} (h : ∀ b ∈ blocks, b.length = room shape) :
    ofShape (blocks.length :: shape) blocks.flatten = rows (blocks.map (ofShape shape)) := by
  rw [ofShape, chunks_flatten h]

/-- Where no axis is empty, every axis has a first row, and its length is seen there. -/
theorem shape_unique (h : ofShape shape entries = ofShape shape' entries')
    (hrank : shape.length = shape'.length) (hempty : 0 ∉ shape) : shape = shape' := by
  induction shape generalizing shape' entries entries' with
  | nil => exact (List.length_eq_zero_iff.1 hrank.symm).symm
  | cons d shape ih =>
    obtain ⟨d', shape', rfl⟩ := List.exists_cons_of_length_eq_add_one hrank.symm
    have hrows := rows.inj h
    obtain rfl : d = d' := by
      have hlen := congrArg List.length hrows
      rwa [List.length_map, List.length_map, length_chunks, length_chunks] at hlen
    rw [List.mem_cons, not_or] at hempty
    rcases d with _ | d
    · exact absurd rfl hempty.1
    · have hfirst := (List.cons.inj hrows).1
      rw [ih hfirst (Nat.succ.inj hrank) hempty.2]

end Rows

namespace Tensor

variable {form : ListForm} {shape shape' : List Nat} {entries entries' : List Int}
  {blocks blocks' : List (List Int)} {items items' : List Noun} {n : Noun}

theorem Spells.headDepth_eq (h : Spells .tuple shape entries n) (hallows : ListForm.tuple.Allows shape) :
    n.headDepth = shape.length := by
  induction shape generalizing entries n with
  | nil =>
    obtain ⟨a, -, rfl⟩ := h
    rfl
  | cons d shape ih =>
    obtain ⟨blocks, items, rfl, rfl, hitems, hlist⟩ := h
    obtain ⟨hlong, hshape⟩ := ListForm.allows_cons.1 hallows
    have hlen : 2 ≤ items.length := by
      rw [← hitems.length_eq]
      exact List.forall_mem_singleton.1 hlong
    obtain ⟨front, last, rfl, rfl⟩ := hlist
    rcases front with _ | ⟨x, front⟩
    · exact absurd hlen (by simp)
    · obtain ⟨b, -, hb, -, -⟩ := List.forall₂_cons_right_iff.1 hitems
      exact congrArg Nat.succ (ih hb hshape)

theorem headDepth_of_items (h : List.Forall₂ (Spells .tuple shape) blocks items)
    (hallows : ListForm.tuple.Allows shape) : ∀ x ∈ items, x.headDepth = shape.length :=
  ((List.forall₂_and_left _ _).1 (h.flip.imp fun _ _ hb => ⟨hb.headDepth_eq hallows, hb⟩)).1

theorem items_unique (h : List.Forall₂ (Spells form shape) blocks items)
    (h' : List.Forall₂ (Spells form shape') blocks' items') (hrank : shape.length = shape'.length)
    (hallows : form.Allows shape) (hallows' : form.Allows shape') (hlist : form.Lists items n)
    (hlist' : form.Lists items' n) : items = items' := by
  cases form with
  | terminated => exact ListForm.items_unique_of_terminated hlist hlist'
  | tuple =>
    have hdepth' : ∀ x ∈ items', x.headDepth = shape.length := by
      rw [hrank]
      exact headDepth_of_items h' hallows'
    exact ListForm.items_unique_of_headDepth hlist hlist' (headDepth_of_items h hallows) hdepth'

/-- What the blocks of the same items become is the same, if it is so for a single item. -/
theorem map_unique {α : Type} {R R' : List Int → Noun → Prop} {f f' : List Int → α}
    (h : List.Forall₂ R blocks items) (h' : List.Forall₂ R' blocks' items)
    (hitem : ∀ b b' m, R b m → R' b' m → f b = f' b') : blocks.map f = blocks'.map f' := by
  induction h generalizing blocks' with
  | nil =>
    obtain rfl := List.forall₂_nil_right_iff.1 h'
    rfl
  | cons hb _ ih =>
    obtain ⟨b', blocks', hb', hrest', rfl⟩ := List.forall₂_cons_right_iff.1 h'
    rw [List.map_cons, List.map_cons, hitem _ _ _ hb hb', ih hrest']

theorem Spells.ofShape_unique (h : Spells form shape entries n) (h' : Spells form shape' entries' n)
    (hrank : shape.length = shape'.length) (hallows : form.Allows shape) (hallows' : form.Allows shape') :
    Rows.ofShape shape entries = Rows.ofShape shape' entries' := by
  induction shape generalizing shape' entries entries' n with
  | nil =>
    obtain rfl := List.length_eq_zero_iff.1 hrank.symm
    rw [h.entries_unique h']
  | cons d shape ih =>
    obtain ⟨d', shape', rfl⟩ := List.exists_cons_of_length_eq_add_one hrank.symm
    obtain ⟨blocks, items, rfl, rfl, hitems, hlist⟩ := h
    obtain ⟨blocks', items', rfl, rfl, hitems', hlist'⟩ := h'
    have hrank : shape.length = shape'.length := Nat.succ.inj hrank
    obtain ⟨-, hallows⟩ := ListForm.allows_cons.1 hallows
    obtain ⟨-, hallows'⟩ := ListForm.allows_cons.1 hallows'
    -- the same items are spelled by both lists of blocks, which therefore pair up
    obtain rfl := items_unique hitems hitems' hrank hallows hallows' hlist hlist'
    have hrow : ∀ b b' m, Spells form shape b m → Spells form shape' b' m →
        Rows.ofShape shape b = Rows.ofShape shape' b' :=
      fun _ _ _ hb hb' => ih hb hb' hrank hallows hallows'
    rw [Rows.ofShape_flatten (forall_mem_of_items hitems fun _ _ hb => hb.length_eq),
      Rows.ofShape_flatten (forall_mem_of_items hitems' fun _ _ hb => hb.length_eq),
      map_unique hitems hitems' hrow]

/-- Two arrays of one rank with the same noun have the same rows, and if no axis of one of them is empty, they
have one shape and the same entries. The types are narrow, and need not be the same. -/
theorem rows_of_noun_unique (form : ListForm) {place place' : String} {t t' : Tensor} {n : Noun}
    (h : t.Valid) (h' : t'.Valid) (htype : t.type.narrow = t.type) (htype' : t'.type.narrow = t'.type)
    (hrank : t.shape.length = t'.shape.length) (hn : t.toNoun form place = .ok n)
    (hn' : t'.toNoun form place' = .ok n) :
    t.rows = t'.rows ∧ (0 ∉ t.shape → t.shape = t'.shape ∧ t.entries = t'.entries) := by
  obtain ⟨-, hallows, hspells⟩ := (toNoun_eq_ok_iff h.length_eq).1 hn
  obtain ⟨-, hallows', hspells'⟩ := (toNoun_eq_ok_iff h'.length_eq).1 hn'
  rw [h.narrow_eq_self htype] at hspells
  rw [h'.narrow_eq_self htype'] at hspells'
  have hrows : t.rows = t'.rows := hspells.ofShape_unique hspells' hrank hallows hallows'
  refine ⟨hrows, fun hempty => ?_⟩
  have hshape : t.shape = t'.shape := Rows.shape_unique hrows hrank hempty
  rw [← hshape] at hspells'
  exact ⟨hshape, hspells.entries_unique hspells'⟩

/-- Of the same matrix in two types, the last row runs on into the noun; and of the arrays without rows that
have no entries either, all become 0. -/
theorem rows_of_noun_unique_of_matrices :
    let t : Tensor := ⟨.integer true 32, [2, 2], [1, 2, 0, 4]⟩
    let t' : Tensor := ⟨.integer false 8, [2, 2], [1, 2, 0, 4]⟩
    let e : Tensor := ⟨.integer true 32, [0, 3], []⟩
    let e' : Tensor := ⟨.integer true 16, [0, 5], []⟩
    (t.toNoun .tuple "array" = .ok (.cell (.cell 1 2) (.cell 0 4)) ∧
      t'.toNoun .tuple "table" = .ok (.cell (.cell 1 2) (.cell 0 4)) ∧ t.shape = t'.shape ∧
      t.entries = t'.entries) ∧
    e.toNoun .terminated "array" = .ok 0 ∧ e'.toNoun .terminated "array" = .ok 0 ∧ e.rows = e'.rows := by
  intro t t' e e'
  have ht : t.Valid := ⟨by decide, rfl, by decide⟩
  have ht' : t'.Valid := ⟨by decide, rfl, by decide⟩
  have he : e.Valid := ⟨by decide, rfl, by decide⟩
  have he' : e'.Valid := ⟨by decide, rfl, by decide⟩
  have hn : t.toNoun .tuple "array" = .ok (.cell (.cell 1 2) (.cell 0 4)) := rfl
  have hn' : t'.toNoun .tuple "table" = .ok (.cell (.cell 1 2) (.cell 0 4)) := rfl
  obtain ⟨-, hsame⟩ := rows_of_noun_unique .tuple ht ht' rfl rfl rfl hn hn'
  have hempty : e.toNoun .terminated "array" = .ok 0 := rfl
  have hempty' : e'.toNoun .terminated "array" = .ok 0 := rfl
  obtain ⟨hrows, -⟩ := rows_of_noun_unique .terminated he he' rfl rfl rfl hempty hempty'
  exact ⟨⟨hn, hn', hsame (by decide)⟩, hempty, hempty', hrows⟩

end Tensor

end Nock

import Nock.Proofs.Tensor.ElementType
import Nock.Tensor.Rules

/-!
# The noun of an array spells its entries

An array becomes a noun if and only if the noun spells the entries that are left after narrowing, and no
row is too short (`Tensor.toNoun_eq_ok_iff`). For rows this is an induction on the shape, in which the
rows of an axis are the blocks that its entries fall into (`Rows.toNoun_ofShape_eq_ok_iff`); where a row
stands matters for errors only. A noun spells the entries of one array of a shape at most
(`Tensor.Spells.entries_unique`), and there is a noun for all entries that are not negative
(`Tensor.exists_spells`).
-/

namespace Nock

namespace ListForm

variable {form : ListForm} {items items' front : List Noun} {last n : Noun} {d : Nat} {shape : List Nat}

theorem lists_concat : tuple.Lists (front ++ [last]) n ↔ n = Noun.nest front last := by
  constructor
  · rintro ⟨front', last', happ, rfl⟩
    obtain ⟨rfl, hlast⟩ := List.append_inj' happ rfl
    rw [List.singleton_inj.1 hlast]
  · rintro rfl
    exact ⟨front, last, rfl, rfl⟩

theorem Lists.items_unique (h : form.Lists items n) (h' : form.Lists items' n)
    (hlen : items.length = items'.length) : items = items' := by
  cases form with
  | terminated => exact (Noun.nest_inj hlen (h.symm.trans h')).1
  | tuple =>
    obtain ⟨front, last, rfl, hn⟩ := h
    obtain ⟨front', last', rfl, hn'⟩ := h'
    rw [List.length_append, List.length_append] at hlen
    obtain ⟨rfl, rfl⟩ := Noun.nest_inj (Nat.add_right_cancel hlen) (hn.symm.trans hn')
    rfl

theorem allows_cons : form.Allows (d :: shape) ↔ form.Allows [d] ∧ form.Allows shape := by
  cases form with
  | terminated => exact (and_self_iff).symm
  | tuple => simp [Allows]

theorem exists_lists (h : form.Allows [items.length]) : ∃ n, form.Lists items n := by
  cases form with
  | terminated => exact ⟨_, rfl⟩
  | tuple =>
    have hlen : 2 ≤ items.length := h _ (List.mem_singleton_self _)
    have hne : items ≠ [] := List.ne_nil_of_length_pos (by omega)
    exact ⟨_, items.dropLast, items.getLast hne, (List.dropLast_append_getLast hne).symm, rfl⟩

theorem packReversed_eq_ok_iff {place : String} : form.packReversed place items = .ok n ↔
    form.Lists items.reverse n ∧ form.Allows [items.length] := by
  cases form with
  | terminated =>
    simp only [packReversed, Except.ok.injEq, Lists, Allows, and_true, Noun.nest, List.foldr_reverse,
      eq_comm]
  | tuple =>
    match items with
    | [] => simp [packReversed, Allows]
    | [_] => simp [packReversed, Allows]
    | last :: before :: rest =>
      have hlong : tuple.Allows [(last :: before :: rest).length] := by simp [Allows]
      rw [List.reverse_cons, lists_concat, and_iff_left hlong, Noun.nest, List.foldr_reverse]
      simp only [packReversed, Except.ok.injEq, eq_comm]

end ListForm

namespace Rows

variable {form : ListForm} {size count : Nat} {entries : List Int} {blocks : List (List Int)}

theorem length_chunks (size count : Nat) (entries : List Int) :
    (chunks size count entries).length = count := by
  induction count generalizing entries with
  | zero => rfl
  | succ count ih => exact congrArg Nat.succ (ih _)

theorem flatten_chunks (h : entries.length = count * size) :
    (chunks size count entries).flatten = entries := by
  induction count generalizing entries with
  | zero =>
    rw [Nat.zero_mul] at h
    exact (List.length_eq_zero_iff.1 h).symm
  | succ count ih =>
    have hdrop : (entries.drop size).length = count * size := by
      rw [List.length_drop, h, Nat.succ_mul, Nat.add_sub_cancel]
    rw [chunks, List.flatten_cons, ih hdrop, List.take_append_drop]

theorem length_of_mem_chunks (h : entries.length = count * size) :
    ∀ b ∈ chunks size count entries, b.length = size := by
  induction count generalizing entries with
  | zero => simp [chunks]
  | succ count ih =>
    rw [Nat.succ_mul] at h
    have hdrop : (entries.drop size).length = count * size := by
      rw [List.length_drop, h, Nat.add_sub_cancel]
    rw [chunks, List.forall_mem_cons]
    exact ⟨List.length_take_of_le (by omega), ih hdrop⟩

theorem chunks_flatten (h : ∀ b ∈ blocks, b.length = size) :
    chunks size blocks.length blocks.flatten = blocks := by
  induction blocks with
  | nil => rfl
  | cons b blocks ih =>
    obtain ⟨rfl, h⟩ := List.forall_mem_cons.1 h
    rw [List.length_cons, List.flatten_cons, chunks, List.take_left, List.drop_left, ih h]

/-- Rows become nouns one by one. -/
theorem toNounsOnto_eq_ok_iff {f : List Int → Rows} {R : List Int → Noun → Prop} {place : String}
    {index : Nat} {done ns : List Noun}
    (h : ∀ b ∈ blocks, ∀ place m, (f b).toNoun form place = .ok m ↔ R b m) :
    toNounsOnto form place index done (blocks.map f) = .ok ns ↔
      ∃ ms, List.Forall₂ R blocks ms ∧ ns = ms.reverse ++ done := by
  induction blocks generalizing index done with
  | nil => simp [toNounsOnto, eq_comm]
  | cons b blocks ih =>
    obtain ⟨hb, h⟩ := List.forall_mem_cons.1 h
    rw [List.map_cons, toNounsOnto, Error.bind_eq_ok]
    simp only [hb, ih h, List.forall₂_cons_left_iff]
    constructor
    · rintro ⟨m, hm, ms, hms, rfl⟩
      exact ⟨m :: ms, ⟨m, ms, hm, hms, rfl⟩, by simp⟩
    · rintro ⟨_, ⟨m, ms, hm, hms, rfl⟩, rfl⟩
      exact ⟨m, hm, ms, hms, by simp⟩

theorem toNoun_rows_eq_ok_iff {f : List Int → Rows} {R : List Int → Noun → Prop} {place : String}
    {n : Noun} (h : ∀ b ∈ blocks, ∀ place m, (f b).toNoun form place = .ok m ↔ R b m) :
    (rows (blocks.map f)).toNoun form place = .ok n ↔
      ∃ ms, List.Forall₂ R blocks ms ∧ form.Lists ms n ∧ form.Allows [ms.length] := by
  rw [toNoun, Error.bind_eq_ok]
  simp only [toNounsOnto_eq_ok_iff h, List.append_nil, ListForm.packReversed_eq_ok_iff]
  constructor
  · rintro ⟨_, ⟨ms, hms, rfl⟩, hn⟩
    rw [List.reverse_reverse, List.length_reverse] at hn
    exact ⟨ms, hms, hn⟩
  · rintro ⟨ms, hms, hn⟩
    refine ⟨_, ⟨ms, hms, rfl⟩, ?_⟩
    rwa [List.reverse_reverse, List.length_reverse]

end Rows

namespace Tensor

open Rows (room)

variable {form : ListForm} {shape : List Nat} {entries entries' : List Int} {n : Noun}

theorem forall_mem_of_items {blocks : List (List Int)} {items : List Noun} {p : List Int → Prop}
    (hitems : List.Forall₂ (Spells form shape) blocks items)
    (h : ∀ b m, Spells form shape b m → p b) : ∀ b ∈ blocks, p b :=
  ((List.forall₂_and_left _ _).1 (hitems.imp fun b m hb => ⟨h b m hb, hb⟩)).1

theorem Spells.length_eq (h : Spells form shape entries n) : entries.length = room shape := by
  induction shape generalizing entries n with
  | nil =>
    obtain ⟨a, rfl, -⟩ := h
    rfl
  | cons d shape ih =>
    obtain ⟨blocks, items, rfl, rfl, hitems, -⟩ := h
    have hlen : ∀ b ∈ blocks, b.length = room shape :=
      forall_mem_of_items hitems fun _ _ hb => ih hb
    rw [List.length_flatten, List.map_congr_left hlen, List.map_const', List.sum_replicate_nat]
    rfl

theorem Spells.nonneg (h : Spells form shape entries n) : ∀ i ∈ entries, 0 ≤ i := by
  induction shape generalizing entries n with
  | nil =>
    obtain ⟨a, rfl, -⟩ := h
    simp
  | cons d shape ih =>
    obtain ⟨blocks, items, rfl, -, hitems, -⟩ := h
    have hpos : ∀ b ∈ blocks, ∀ i ∈ b, 0 ≤ i := forall_mem_of_items hitems fun _ _ hb => ih hb
    intro i hi
    obtain ⟨b, hb, hib⟩ := List.mem_flatten.1 hi
    exact hpos b hb i hib

theorem Spells.entries_unique (h : Spells form shape entries n) (h' : Spells form shape entries' n) :
    entries = entries' := by
  induction shape generalizing entries entries' n with
  | nil =>
    obtain ⟨a, rfl, rfl⟩ := h
    obtain ⟨a', rfl, ha⟩ := h'
    rw [Noun.atom.inj ha]
  | cons d shape ih =>
    obtain ⟨blocks, items, rfl, rfl, hitems, hlist⟩ := h
    obtain ⟨blocks', items', rfl, hd, hitems', hlist'⟩ := h'
    have hlen : items.length = items'.length := by
      rw [← hitems.length_eq, ← hitems'.length_eq, hd]
    obtain rfl := hlist.items_unique hlist' hlen
    have huniq : Relator.LeftUnique (Spells form shape) := fun _ _ _ hb hb' => ih hb hb'
    rw [List.left_unique_forall₂' huniq hitems hitems']

theorem spells_nil {i : Int} : Spells form [] [i] n ↔ 0 ≤ i ∧ n = .atom i.toNat := by
  constructor
  · rintro ⟨a, ha, rfl⟩
    obtain rfl := List.singleton_inj.1 ha
    exact ⟨Int.natCast_nonneg a, rfl⟩
  · rintro ⟨hi, rfl⟩
    exact ⟨i.toNat, by rw [Int.ofNat_eq_natCast, Int.toNat_of_nonneg hi], rfl⟩

theorem exists_items {blocks : List (List Int)} (h : ∀ b ∈ blocks, ∃ m, Spells form shape b m) :
    ∃ items, List.Forall₂ (Spells form shape) blocks items := by
  induction blocks with
  | nil => exact ⟨[], .nil⟩
  | cons b blocks ih =>
    obtain ⟨hb, h⟩ := List.forall_mem_cons.1 h
    obtain ⟨m, hm⟩ := hb
    obtain ⟨items, hitems⟩ := ih h
    exact ⟨m :: items, .cons hm hitems⟩

theorem exists_spells (hlen : entries.length = room shape) (hpos : ∀ i ∈ entries, 0 ≤ i)
    (hallows : form.Allows shape) : ∃ n, Spells form shape entries n := by
  induction shape generalizing entries with
  | nil =>
    obtain ⟨i, rfl⟩ := List.length_eq_one_iff.1 hlen
    exact ⟨_, spells_nil.2 ⟨hpos i (List.mem_singleton_self i), rfl⟩⟩
  | cons d shape ih =>
    obtain ⟨hd, hshape⟩ := ListForm.allows_cons.1 hallows
    rw [Rows.room_cons] at hlen
    have hitem : ∀ b ∈ Rows.chunks (room shape) d entries, ∃ m, Spells form shape b m := by
      intro b hb
      refine ih (Rows.length_of_mem_chunks hlen b hb) (fun i hi => hpos i ?_) hshape
      rw [← Rows.flatten_chunks hlen]
      exact List.mem_flatten.2 ⟨b, hb, hi⟩
    obtain ⟨items, hitems⟩ := exists_items hitem
    have hlist : form.Allows [items.length] := by
      rwa [← hitems.length_eq, Rows.length_chunks]
    obtain ⟨n, hn⟩ := ListForm.exists_lists hlist
    exact ⟨n, _, items, Rows.flatten_chunks hlen, Rows.length_chunks .., hitems, hn⟩

end Tensor

theorem Rows.toNoun_ofShape_eq_ok_iff {form : ListForm} {shape : List Nat} {entries : List Int}
    {place : String} {n : Noun} (hlen : entries.length = room shape) (hpos : ∀ i ∈ entries, 0 ≤ i) :
    (ofShape shape entries).toNoun form place = .ok n ↔
      Tensor.Spells form shape entries n ∧ form.Allows shape := by
  induction shape generalizing entries place n with
  | nil =>
    obtain ⟨i, rfl⟩ := List.length_eq_one_iff.1 hlen
    have hi : 0 ≤ i := hpos i (List.mem_singleton_self i)
    have hform : form.Allows [] := by cases form <;> simp [ListForm.Allows]
    rw [Tensor.spells_nil]
    simp [ofShape, toNoun, hi, hform, eq_comm]
  | cons d shape ih =>
    rw [room_cons] at hlen
    have hrow : ∀ b ∈ chunks (room shape) d entries, ∀ place m,
        (ofShape shape b).toNoun form place = .ok m ↔
          form.Allows shape ∧ Tensor.Spells form shape b m := by
      intro b hb place m
      rw [ih (length_of_mem_chunks hlen b hb) fun i hi => hpos i ?_, and_comm]
      rw [← flatten_chunks hlen]
      exact List.mem_flatten.2 ⟨b, hb, hi⟩
    rw [ofShape, toNoun_rows_eq_ok_iff hrow]
    simp only [List.forall₂_and_left]
    constructor
    · rintro ⟨items, ⟨hrows, hitems⟩, hlist, hd⟩
      rw [← hitems.length_eq, length_chunks] at hd
      have hshape : form.Allows shape := by
        cases form with
        | terminated => trivial
        | tuple =>
          -- An axis of two or more rows has a first one, and that has the shape of all.
          have h2 : 2 ≤ d := hd d (List.mem_singleton_self d)
          have hrow : 0 < (chunks (room shape) d entries).length := by
            rw [length_chunks]
            omega
          exact hrows _ (List.getElem_mem hrow)
      exact ⟨⟨_, items, flatten_chunks hlen, length_chunks .., hitems, hlist⟩,
        ListForm.allows_cons.2 ⟨hd, hshape⟩⟩
    · rintro ⟨⟨blocks, items, rfl, rfl, hitems, hlist⟩, hallows⟩
      obtain ⟨hd, hshape⟩ := ListForm.allows_cons.1 hallows
      have hblocks : chunks (room shape) blocks.length blocks.flatten = blocks :=
        chunks_flatten (Tensor.forall_mem_of_items hitems fun _ _ hb => hb.length_eq)
      rw [hblocks]
      exact ⟨items, ⟨fun _ _ => hshape, hitems⟩, hlist, by rwa [← hitems.length_eq]⟩

namespace Tensor

variable {t : Tensor} {form : ListForm} {n : Noun}

/-- Of integers that are not negative, only the rows can be refused. -/
theorem toNoun_eq_rows {place : String} (hi : t.type.isInteger = true)
    (hpos : ∀ i ∈ t.narrow.entries, 0 ≤ i) : t.toNoun form place = t.narrow.rows.toNoun form place := by
  have hinteger : t.narrow.type.isInteger = t.type.isInteger := ElementType.isInteger_narrow t.type
  have hneg : ¬ t.narrow.entries.any (· < 0) = true := by
    simpa using hpos
  rw [toNoun, hinteger, hi, if_neg (by decide), if_neg hneg]

theorem toNoun_eq_ok_iff {place : String} (hlen : t.entries.length = Rows.room t.shape) :
    t.toNoun form place = .ok n ↔
      t.type.isInteger = true ∧ form.Allows t.shape ∧ Spells form t.shape t.narrow.entries n := by
  have hinteger : t.narrow.type.isInteger = t.type.isInteger := ElementType.isInteger_narrow t.type
  rw [← length_narrow] at hlen
  cases hi : t.type.isInteger with
  | false => simp [toNoun, hinteger, hi]
  | true =>
    by_cases hpos : ∀ i ∈ t.narrow.entries, 0 ≤ i
    · have hrows : t.narrow.rows.toNoun form place = .ok n ↔
          Spells form t.shape t.narrow.entries n ∧ form.Allows t.shape :=
        Rows.toNoun_ofShape_eq_ok_iff hlen hpos
      rw [toNoun_eq_rows hi hpos, eq_self, true_and, and_comm]
      exact hrows
    · have hno : ¬ Spells form t.shape t.narrow.entries n := fun h => hpos h.nonneg
      have hneg : t.narrow.entries.any (· < 0) = true := by
        simpa using hpos
      simp [toNoun, hinteger, hi, hneg, hno]

theorem exists_toNoun (hlen : t.entries.length = Rows.room t.shape) (hinteger : t.type.isInteger = true)
    (hpos : ∀ i ∈ t.narrow.entries, 0 ≤ i) (hallows : form.Allows t.shape) :
    ∃ n, ∀ place, t.toNoun form place = .ok n := by
  rw [← length_narrow] at hlen
  obtain ⟨n, hn⟩ := exists_spells hlen hpos hallows
  rw [length_narrow] at hlen
  exact ⟨n, fun place => (toNoun_eq_ok_iff hlen).2 ⟨hinteger, hallows, hn⟩⟩

theorem exists_toNoun_iff {place : String} (hlen : t.entries.length = Rows.room t.shape)
    (hinteger : t.type.isInteger = true) (hpos : ∀ i ∈ t.narrow.entries, 0 ≤ i) :
    (∃ n, t.toNoun form place = .ok n) ↔ form.Allows t.shape := by
  constructor
  · rintro ⟨n, hn⟩
    exact ((toNoun_eq_ok_iff hlen).1 hn).2.1
  · intro hallows
    obtain ⟨n, hn⟩ := exists_toNoun hlen hinteger hpos hallows
    exact ⟨n, hn place⟩

end Tensor

end Nock

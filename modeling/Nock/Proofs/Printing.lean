import Mathlib.Logic.Function.Basic
import Nock.Noun.Reader
import Nock.Value.Printer

/-!
# Printing loses nothing

The reader gives a noun back from its text (`Noun.ofText?_written`) and reads no other text
(`Noun.ofText?_eq_some_iff`). The first is by induction on the noun, for any brackets that are open
around it, and with it goes the same for what follows an item inside a bracket. The second is an
invariant of the reader: what it holds prints as what it has read (`Reader.text_read?`).
-/

namespace Nock

namespace Noun

/-- The items of a bracket in front of the last one, with a blank behind each. -/
def itemsText (items : List Noun) : String := String.join (items.map fun x => x.written ++ " ")

/-- What follows an item inside a bracket, if `n` is the tail behind it. -/
def restText (n : Noun) : String := " " ++ " ".intercalate n.itemTexts ++ "]"

theorem restText_cell (h t : Noun) : (cell h t).restText = " " ++ h.written ++ t.restText := by
  rw [restText, itemTexts, intercalate_itemTexts]
  simp [restText, String.append_assoc]

theorem written_cell (h t : Noun) : (cell h t).written = "[" ++ h.written ++ t.restText := by
  rw [written, intercalate_itemTexts]
  simp [restText, String.append_assoc]

theorem restText_nest (items : List Noun) (n : Nat) :
    (nest items (atom n)).restText = " " ++ itemsText items ++ toString n ++ "]" := by
  induction items with
  | nil => simp [restText, itemTexts, itemsText]
  | cons x items ih => simp [restText_cell, itemsText, ih, String.append_assoc]

theorem written_nest {items : List Noun} (h : items ≠ []) (n : Nat) :
    (nest items (atom n)).written = "[" ++ itemsText items ++ toString n ++ "]" := by
  obtain ⟨x, items, rfl⟩ := List.exists_cons_of_ne_nil h
  simp [written_cell, restText_nest, itemsText, String.append_assoc]

end Noun

namespace Reader

variable {row : List Noun} {d : Nat} {t u : String} {c : Char} {r r' r'' : Reader}

theorem exists_digitChar (h : c.isDigit) : ∃ d < 10, c = d.digitChar := by
  have hrange : 48 ≤ c.toNat ∧ c.toNat ≤ 57 := Char.isDigit_iff_toNat.1 h
  have hlt : c.toNat - 48 < 10 := by omega
  refine ⟨c.toNat - 48, hlt, Char.toNat_inj.1 ?_⟩
  rw [Nat.toNat_digitChar_of_lt_ten hlt]
  omega

theorem read?_of_isDigit (h : c.isDigit) : r.read? c = r.readDigit? (c.toNat - 48) := by
  unfold read?
  split
  case h_4 => rw [if_pos h]; rfl
  all_goals exact absurd h (by decide)

theorem read?_digitChar (h : d < 10) : r.read? d.digitChar = r.readDigit? d := by
  rw [read?_of_isDigit (by simpa using h), Nat.toNat_digitChar_sub_48_of_lt_ten h]

/-! ### Reading the text of a noun -/

/-- The text takes the reader from one state to another. -/
def Reads (t : String) (r r' : Reader) : Prop := t.toList.foldlM read? r = some r'

namespace Reads

theorem append (h : Reads t r r') (h' : Reads u r' r'') : Reads (t ++ u) r r'' := by
  rw [Reads, String.toList_append, List.foldlM_append, show t.toList.foldlM read? r = _ from h]
  exact h'

theorem opening (rows : List (List Noun)) : Reads "[" ⟨rows, none⟩ ⟨[] :: rows, none⟩ := rfl

theorem blank (row : List Noun) (rows : List (List Noun)) (x : Noun) :
    Reads " " ⟨row :: rows, some x⟩ ⟨(row ++ [x]) :: rows, none⟩ := rfl

theorem closing (h : row ≠ []) (rows : List (List Noun)) (n : Nat) :
    Reads "]" ⟨row :: rows, some (.atom n)⟩ ⟨rows, some (.nest row (.atom n))⟩ := by
  obtain ⟨x, row, rfl⟩ := List.exists_cons_of_ne_nil h
  rfl

theorem digit (h : r.readDigit? d = some r') (hd : d < 10) : Reads (toString d) r r' := by
  rw [Nat.toString_eq_repr, Nat.repr_of_lt hd]
  simp [Reads, read?_digitChar hd, h]

theorem numeral (rows : List (List Noun)) (n : Nat) :
    Reads (toString n) ⟨rows, none⟩ ⟨rows, some (.atom n)⟩ := by
  induction n using Nat.strongRecOn with
  | ind n ih =>
    by_cases hn : n < 10
    · exact digit rfl hn
    · have hten : 10 ≤ n := by omega
      rw [Nat.toString_eq_repr, Nat.repr_eq_repr_append_repr hten]
      refine append (ih (n / 10) (by omega)) (digit ?_ (Nat.mod_lt n (by decide)))
      obtain ⟨m, hm⟩ := Nat.exists_eq_succ_of_ne_zero (show n / 10 ≠ 0 by omega)
      rw [hm, readDigit?]
      congr 4
      omega

/-- The text of a noun is read as the noun, and what follows an item of an open bracket as the bracket. -/
theorem noun (n : Noun) : (∀ rows, Reads n.written ⟨rows, none⟩ ⟨rows, some n⟩) ∧
    ∀ row rows x, Reads n.restText ⟨row :: rows, some x⟩ ⟨rows, some (.nest (row ++ [x]) n)⟩ := by
  induction n with
  | atom n =>
    refine ⟨fun rows => numeral rows n, fun row rows x => ?_⟩
    exact ((blank row rows x).append (numeral _ n)).append (closing (by simp) rows n)
  | cell h t ihh iht =>
    constructor
    · intro rows
      rw [Noun.written_cell]
      exact ((opening rows).append (ihh.1 _)).append (iht.2 [] rows h)
    · intro row rows x
      rw [Noun.restText_cell]
      have hrest := ((blank row rows x).append (ihh.1 _)).append (iht.2 _ rows h)
      rw [Noun.nest_append] at hrest
      exact hrest

end Reads

/-! ### What has been read -/

def openText : List (List Noun) → String
  | [] => ""
  | row :: rows => openText rows ++ "[" ++ Noun.itemsText row

/-- The text behind which the reader stands. -/
def text (r : Reader) : String := openText r.rows ++ r.noun?.elim "" Noun.written

theorem text_readDigit? (h : r.readDigit? d = some r') (hd : d < 10) :
    r'.text = r.text ++ toString d := by
  unfold readDigit? at h
  split at h
  · cases h
    simp [text, Noun.written]
  · next rows n =>
    cases h
    have hdiv : (10 * (n + 1) + d) / 10 = n + 1 := by omega
    have hmod : (10 * (n + 1) + d) % 10 = d := by omega
    have happend := Nat.repr_eq_repr_append_repr (n := 10 * (n + 1) + d) (by omega)
    rw [hdiv, hmod] at happend
    simp [text, Noun.written, Nat.toString_eq_repr, happend, String.append_assoc]
  · cases h

/-- Each character that is read is added to the text. -/
theorem text_read? (h : r.read? c = some r') : r'.text = r.text ++ String.singleton c := by
  unfold read? at h
  split at h
  · cases h
    simp [text, openText, Noun.itemsText]
  · cases h
    simp [text, openText, Noun.itemsText, String.append_assoc]
  · next x row rows n =>
    cases h
    -- the noun that is closed has the text of its bracket, which was open until now
    show openText rows ++ (Noun.nest (x :: row) (.atom n)).written = _
    rw [Noun.written_nest (List.cons_ne_nil x row)]
    simp [text, openText, Noun.written, String.append_assoc]
  · split at h
    · next hdigit =>
      obtain ⟨d, hd, rfl⟩ := exists_digitChar hdigit
      rw [← Nat.repr_of_lt hd]
      refine text_readDigit? ?_ hd
      rwa [← Nat.toNat_digitChar_sub_48_of_lt_ten hd]
    · cases h

theorem Reads.text_eq (h : Reads t r r') : r'.text = r.text ++ t := by
  rw [Reads] at h
  rw [← String.toList_inj, String.toList_append]
  generalize t.toList = cs at h ⊢
  induction cs generalizing r with
  | nil => cases h; simp
  | cons c cs ih =>
    rw [List.foldlM_cons] at h
    obtain ⟨r₁, hr₁, h⟩ := Option.bind_eq_some_iff.1 h
    rw [ih h, text_read? hr₁]
    simp

end Reader

namespace Noun

theorem ofText?_eq_some_iff {t : String} {n : Noun} : ofText? t = some n ↔ t = n.written := by
  constructor
  · intro h
    unfold ofText? at h
    split at h
    · next hread =>
      cases h
      have := Reader.Reads.text_eq hread
      simpa [Reader.text, Reader.openText] using this.symm
    · cases h
  · rintro rfl
    have hread : n.written.toList.foldlM Reader.read? ⟨[], none⟩ = _ := (Reader.Reads.noun n).1 []
    rw [ofText?, hread]

theorem ofText?_written (n : Noun) : ofText? n.written = some n := ofText?_eq_some_iff.2 rfl

end Noun

theorem Value.format_ofNoun (n : Noun) : (ofNoun n).format = .ok n.written := by
  rw [format, ifFits, if_pos (fits_ofNoun n)]
  cases n with
  | atom n =>
    show Except.ok (Text.signedDecimal n) = _
    simp [Text.signedDecimal, Text.decimal_eq, Noun.written]
  | cell h t =>
    show Except.ok (Noun.cell h t).render = _
    rw [Noun.render_eq_written]

/-- The text of a noun, however deep it is and however large its atoms are, is read as that noun and no
other text is. So nouns of the same text are the same, and none prints as a crash does. -/
theorem format_lossless :
    (∀ n : Noun, ∃ t, (Value.ofNoun n).format = .ok t ∧ ∀ t', Noun.ofText? t' = some n ↔ t' = t) ∧
    (Function.Injective fun n : Noun => (Value.ofNoun n).format) ∧
    Value.crash.format = .ok "crash" ∧ ∀ n : Noun, (Value.ofNoun n).format ≠ .ok "crash" := by
  refine ⟨fun n => ⟨n.written, Value.format_ofNoun n, fun t' => Noun.ofText?_eq_some_iff⟩, ?_, rfl, ?_⟩
  · intro m n h
    simp only [Value.format_ofNoun, Except.ok.injEq] at h
    rw [← Option.some_inj, ← Noun.ofText?_written m, h, Noun.ofText?_written]
  · intro n h
    rw [Value.format_ofNoun, Except.ok.injEq] at h
    have hcrash : Noun.ofText? "crash" = none := by decide
    rw [← h, Noun.ofText?_written] at hcrash
    cases hcrash

end Nock

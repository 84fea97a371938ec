import Nock.Proofs.Cell
import Nock.Proofs.Printing

/-!
# Brackets in the text of a noun

The text that the loop of the printer writes (`Noun.render_eq_written`) is, of a cell, those of its items between
brackets (`Noun.written_eq_intercalate`). The rest is read off the reader, which reads the whole text: the rows
that it holds are the brackets that are open (`Reader.Reads.count_brackets`), and it closes a bracket only behind
an atom, of which it has just read the last digit (`Reader.Reads.exists_digit`).
-/

namespace Nock

/-- Up to no place are there more brackets that close than brackets that open, and in all there are as many. -/
def Text.Balanced (t : String) : Prop :=
  (∀ front, front <+: t.toList → front.count ']' ≤ front.count '[') ∧
    t.toList.count ']' = t.toList.count '['

/-- A digit stands in front of each bracket that closes. -/
def Text.ClosesBehindDigits (t : String) : Prop :=
  ∀ front back, t.toList = front ++ ']' :: back → ∃ before c, front = before ++ [c] ∧ c.isDigit = true

namespace Noun

theorem itemTexts_nest (items : List Noun) (n : Noun) :
    (nest items n).itemTexts = items.map written ++ n.itemTexts := by
  induction items with
  | nil => rfl
  | cons x items ih => rw [nest_cons, itemTexts, ih, List.map_cons, List.cons_append]

theorem written_eq_intercalate {items : List Noun} (h : items ≠ []) (n : Nat) :
    (nest items (atom n)).written = "[" ++ " ".intercalate ((items ++ [atom n]).map written) ++ "]" := by
  obtain ⟨x, items, rfl⟩ := List.exists_cons_of_ne_nil h
  rw [nest_cons, written, itemTexts_nest, List.map_append]
  rfl

end Noun

namespace Reader

variable {r r' r'' : Reader} {c : Char} {d n : Nat} {t : String} {front back : List Char}

theorem rows_readDigit? (h : r.readDigit? d = some r') : r'.rows = r.rows := by
  unfold readDigit? at h
  split at h <;> cases h <;> rfl

/-- A bracket that opens is one row more, one that closes a row less. -/
theorem rows_read? (h : r.read? c = some r') :
    [c].count '[' + r.rows.length = [c].count ']' + r'.rows.length := by
  unfold read? at h
  split at h
  · cases h
    simp [Nat.add_comm]
  · cases h
    simp
  · cases h
    simp [Nat.add_comm]
  · split at h
    · next hdigit =>
      have hcount : ∀ bracket : Char, bracket.isDigit = false → [c].count bracket = 0 := by
        intro bracket hbracket
        rw [List.count_eq_zero, List.mem_singleton]
        rintro rfl
        rw [hbracket] at hdigit
        cases hdigit
      rw [rows_readDigit? h, hcount '[' (by decide), hcount ']' (by decide)]
    · cases h

theorem eq_atom_of_closing (h : r.read? ']' = some r') : ∃ rows n, r = ⟨rows, some (.atom n)⟩ := by
  unfold read? at h
  split at h
  · next heq => cases heq
  · next heq => cases heq
  · exact ⟨_, _, rfl⟩
  · rw [if_neg (by decide)] at h
    cases h

theorem exists_last_digit (n : Nat) : ∃ ds c, (toString n).toList = ds ++ [c] ∧ c.isDigit = true := by
  rw [Nat.toString_eq_ofList_toDigits, String.toList_ofList]
  have hne : Nat.toDigits 10 n ≠ [] := Nat.toDigits_ne_nil
  refine ⟨_, _, (List.dropLast_concat_getLast hne).symm, ?_⟩
  exact Nat.isDigit_of_mem_toDigits (by decide) Nat.le.refl (List.getLast_mem hne)

namespace Reads

theorem split (h : Reads t r r'') (ht : t.toList = front ++ back) :
    ∃ r', Reads (String.ofList front) r r' ∧ Reads (String.ofList back) r' r'' := by
  rw [Reads, ht, List.foldlM_append] at h
  obtain ⟨r', hfront, hback⟩ := Option.bind_eq_some_iff.1 h
  exact ⟨r', by rwa [Reads, String.toList_ofList], by rwa [Reads, String.toList_ofList]⟩

/-- The rows are the brackets that are open. -/
theorem count_brackets (h : Reads t r r') :
    t.toList.count '[' + r.rows.length = t.toList.count ']' + r'.rows.length := by
  rw [Reads] at h
  generalize t.toList = cs at h
  induction cs generalizing r with
  | nil => cases h; rfl
  | cons c cs ih =>
    rw [List.foldlM_cons] at h
    obtain ⟨r₁, hr₁, h⟩ := Option.bind_eq_some_iff.1 h
    have hstep := rows_read? hr₁
    have hrest := ih h
    rw [← List.singleton_append, List.count_append, List.count_append]
    omega

theorem balanced {n : Noun} (h : Reads t ⟨[], none⟩ ⟨[], some n⟩) : Text.Balanced t := by
  refine ⟨?_, h.count_brackets.symm⟩
  rintro front ⟨back, hback⟩
  obtain ⟨r, hfront, -⟩ := h.split hback.symm
  have hcount := hfront.count_brackets
  rw [String.toList_ofList, List.length_nil] at hcount
  omega

/-- What has been read before a bracket closes ends with the digits of an atom. -/
theorem exists_digit (h : Reads t ⟨[], none⟩ r') (ht : t.toList = front ++ ']' :: back) :
    ∃ before c, front = before ++ [c] ∧ c.isDigit = true := by
  obtain ⟨r, hfront, hback⟩ := h.split ht
  rw [Reads, String.toList_ofList, List.foldlM_cons] at hback
  obtain ⟨_, hclosing, -⟩ := Option.bind_eq_some_iff.1 hback
  obtain ⟨rows, n, rfl⟩ := eq_atom_of_closing hclosing
  obtain ⟨ds, c, hdigits, hc⟩ := exists_last_digit n
  have htext : openText rows ++ toString n = String.ofList front := hfront.text_eq.trans String.empty_append
  rw [← String.toList_inj, String.toList_append, hdigits, String.toList_ofList] at htext
  exact ⟨(openText rows).toList ++ ds, c, by rw [List.append_assoc, htext], hc⟩

end Reads

end Reader

open Text (Balanced ClosesBehindDigits)

/-- The loop of the printer ends with the text of the noun: its numeral or, of a cell, the texts of the items of its
spine between brackets, with a blank between two. So its brackets are balanced, and each that closes stands behind
a digit; and a cell made of some items and an atom behind them prints as these, in one pair of brackets. -/
theorem format_by_items :
    (∀ n : Noun, n.render = n.written ∧ (Value.ofNoun n).format = .ok n.written) ∧
    (∀ n : Nat, (Noun.atom n).written = toString n) ∧
    (∀ h t : Noun, (Noun.cell h t).written = "[" ++ " ".intercalate
      (((Noun.cell h t).spine.1 ++ [Noun.atom (Noun.cell h t).spine.2]).map Noun.written) ++ "]") ∧
    (∀ n : Noun, Balanced n.written ∧ ClosesBehindDigits n.written) ∧
    ∀ (x : Noun) (items : List Noun) (y : Nat), ∃ n,
      Value.nest ((x :: items ++ [Noun.atom y]).map Value.ofNoun) = .ok n ∧ (Value.ofNoun n).format =
        .ok ("[" ++ " ".intercalate ((x :: items ++ [Noun.atom y]).map Noun.written) ++ "]") := by
  have hformat : ∀ n : Noun, (Value.ofNoun n).format = .ok n.written := by
    intro n
    rw [Value.format_ofNoun]
  refine ⟨fun n => ⟨?_, hformat n⟩, fun n => rfl, fun h t => ?_, fun n => ?_, fun x items y => ?_⟩
  · rw [Noun.render_eq_written]
  · have hne : (Noun.cell h t).spine.1 ≠ [] := by simp
    rw [← Noun.written_eq_intercalate hne, Noun.nest_spine]
  · have hread := (Reader.Reads.noun n).1 []
    exact ⟨hread.balanced, fun front back => hread.exists_digit⟩
  · have hne : x :: items ≠ [] := List.cons_ne_nil x items
    exact ⟨_, Value.nest_ofNoun_concat hne (.atom y), by rw [hformat, Noun.written_eq_intercalate hne]⟩

end Nock

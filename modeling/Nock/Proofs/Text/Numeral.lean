import Mathlib.Data.List.TakeWhile
import Nock.Text.Rules

/-!
# Reading numerals exactly

`readInt?` reads the texts that the rules call numerals, as the integers that they spell, and no others
(`readInt?_eq_some_iff`). No sign, digit or underscore is white space, so trimming leaves the sign and the digits
of a numeral (`trimBoth_append`), and digits are read to the end of them (`DigitRun.digitsThen_eq`). The decimal
numeral of a number is one of these texts (`digitRun_toDigits`).
-/

namespace Nock.Text

variable {c : Char} {d : Nat} {cs : List Char} {ds : List Nat} {i : Int}

/-! ### White space -/

theorem dropWhile_append_of_neg {p : Char → Bool} {front rest : List Char} (h : ∀ c ∈ front, p c = false)
    (hne : front ≠ []) : (front ++ rest).dropWhile p = front ++ rest := by
  obtain ⟨c, front, rfl⟩ := List.exists_cons_of_ne_nil hne
  exact List.dropWhile_cons_of_neg (by simp [h c])

theorem trimBoth_append {p : Char → Bool} {before middle after : List Char} (hbefore : ∀ c ∈ before, p c)
    (hmiddle : ∀ c ∈ middle, p c = false) (hafter : ∀ c ∈ after, p c) (hne : middle ≠ []) :
    trimBoth p (before ++ middle ++ after) = middle := by
  have hback : (middle.reverse ++ []).dropWhile p = middle.reverse ++ [] :=
    dropWhile_append_of_neg (by simpa using hmiddle) (by simpa using hne)
  rw [List.append_nil] at hback
  rw [trimBoth, List.append_assoc, List.dropWhile_append_of_pos hbefore, dropWhile_append_of_neg hmiddle hne,
    List.reverse_append, List.dropWhile_append_of_pos (by simpa using hafter), hback, List.reverse_reverse]

theorem exists_trimBoth (p : Char → Bool) (cs : List Char) :
    ∃ before after, cs = before ++ trimBoth p cs ++ after ∧ (∀ c ∈ before, p c) ∧ ∀ c ∈ after, p c := by
  let rest := (cs.dropWhile p).reverse
  refine ⟨cs.takeWhile p, (rest.takeWhile p).reverse, ?_, fun c hc => List.mem_takeWhile_imp hc, fun c hc => ?_⟩
  · rw [trimBoth, List.append_assoc, ← List.reverse_append, List.takeWhile_append_dropWhile,
      List.reverse_reverse, List.takeWhile_append_dropWhile]
  · exact List.mem_takeWhile_imp (List.mem_reverse.1 hc)

/-! ### Digits -/

/-- Every digit is one of the ten from a zero on. -/
theorem exists_first_of_digitValue? (h : digitValue? c = some d) :
    ∃ first ∈ digitZeros, ∃ k < 10, c = Char.ofNat (first + k) := by
  suffices hrange : ∃ first ∈ digitZeros, first ≤ c.toNat ∧ c.toNat < first + 10 by
    obtain ⟨first, hmem, hle, hlt⟩ := hrange
    exact ⟨first, hmem, c.toNat - first, by omega, by rw [Nat.add_sub_cancel' hle, Char.ofNat_toNat]⟩
  unfold digitValue? at h
  split at h
  · next hdigit =>
    obtain ⟨hle, hlt⟩ : 48 ≤ c.toNat ∧ c.toNat ≤ 57 := Char.isDigit_iff_toNat.1 hdigit
    exact ⟨48, by decide, hle, by omega⟩
  split at h
  · cases h
  · obtain ⟨first, hmem, -⟩ := Option.map_eq_some_iff.1 h
    exact ⟨first, List.mem_of_find?_eq_some hmem, by simpa using List.find?_some hmem⟩

theorem isBlank_of_digitValue? (h : digitValue? c = some d) : isBlank c = false := by
  obtain ⟨first, hmem, k, hk, rfl⟩ := exists_first_of_digitValue? h
  have hall : ∀ first ∈ digitZeros, ∀ k < 10, isBlank (Char.ofNat (first + k)) = false := by decide
  exact hall first hmem k hk

theorem digitValue?_digitChar (h : d < 10) : digitValue? d.digitChar = some d := by
  have hall : ∀ d < 10, digitValue? d.digitChar = some d := by decide
  exact hall d h

theorem ofDigits_concat (ds : List Nat) (d : Nat) : ofDigits (ds ++ [d]) = 10 * ofDigits ds + d :=
  List.foldl_append

namespace DigitRun

theorem mem_cases (h : DigitRun cs ds) (hc : c ∈ cs) : c = '_' ∨ ∃ d, digitValue? c = some d := by
  induction h with
  | last hd =>
    obtain rfl := List.mem_singleton.1 hc
    exact .inr ⟨_, hd⟩
  | next hd _ ih =>
    rcases List.mem_cons.1 hc with rfl | hc
    · exact .inr ⟨_, hd⟩
    · exact ih hc
  | gap hd _ ih =>
    rcases List.mem_cons.1 hc with rfl | hc
    · exact .inr ⟨_, hd⟩
    rcases List.mem_cons.1 hc with rfl | hc
    · exact .inl rfl
    · exact ih hc

theorem isBlank_of_mem (h : DigitRun cs ds) (hc : c ∈ cs) : isBlank c = false := by
  obtain rfl | ⟨d, hd⟩ := h.mem_cases hc
  · decide
  · exact isBlank_of_digitValue? hd

theorem exists_digit (h : DigitRun cs ds) :
    ∃ c rest d ds', cs = c :: rest ∧ ds = d :: ds' ∧ digitValue? c = some d := by
  cases h with
  | last hd => exact ⟨_, _, _, _, rfl, rfl, hd⟩
  | next hd _ => exact ⟨_, _, _, _, rfl, rfl, hd⟩
  | gap hd _ => exact ⟨_, _, _, _, rfl, rfl, hd⟩

theorem concat (h : DigitRun cs ds) (hd : digitValue? c = some d) : DigitRun (cs ++ [c]) (ds ++ [d]) := by
  induction h with
  | last hc => exact .next hc (.last hd)
  | next hc _ ih => exact .next hc ih
  | gap hc _ ih => exact .gap hc ih

end DigitRun

/-! ### Reading digits -/

theorem moreDigits_digit (h : digitValue? c = some d) (cs : List Char) :
    moreDigits (c :: cs) = (d :: (moreDigits cs).1, (moreDigits cs).2) := by
  have hne : c ≠ '_' := by
    rintro rfl
    cases h
  rw [moreDigits, h]
  rintro - - rfl
  exact absurd rfl hne

theorem moreDigits_gap (h : digitValue? c = some d) (cs : List Char) :
    moreDigits ('_' :: c :: cs) = (d :: (moreDigits cs).1, (moreDigits cs).2) := by
  rw [moreDigits, h]

theorem DigitRun.moreDigits_eq (h : DigitRun cs ds) :
    moreDigits cs = (ds, []) ∧ moreDigits ('_' :: cs) = (ds, []) := by
  induction h with
  | last hd => exact ⟨moreDigits_digit hd [], moreDigits_gap hd []⟩
  | next hd _ ih => rw [moreDigits_digit hd, moreDigits_gap hd, ih.1]; exact ⟨rfl, rfl⟩
  | gap hd _ ih => rw [moreDigits_digit hd, moreDigits_gap hd, ih.2]; exact ⟨rfl, rfl⟩

theorem digitsThen_digit (h : digitValue? c = some d) (cs : List Char) :
    digitsThen (c :: cs) = (d :: (moreDigits cs).1, (moreDigits cs).2) := by
  rw [digitsThen, h]

theorem DigitRun.digitsThen_eq (h : DigitRun cs ds) : digitsThen cs = (ds, []) := by
  cases h with
  | last hd => exact digitsThen_digit hd []
  | next hd h => rw [digitsThen_digit hd, h.moreDigits_eq.1]
  | gap hd h => rw [digitsThen_digit hd, h.moreDigits_eq.2]

theorem digitRun_of_moreDigits (hd : digitValue? c = some d) (h : moreDigits cs = (ds, [])) :
    DigitRun (c :: cs) (d :: ds) := by
  induction cs using moreDigits.induct generalizing c d ds with
  | case1 =>
    cases h
    exact .last hd
  | case2 c' rest d' hd' ih =>
    rw [moreDigits_gap hd'] at h
    obtain ⟨rfl, hnil⟩ := Prod.mk.inj h
    exact .gap hd (ih hd' (Prod.ext rfl hnil))
  | case3 c' rest hd' =>
    rw [moreDigits, hd'] at h
    cases h
  | case4 c' rest _ d' hd' ih =>
    rw [moreDigits_digit hd'] at h
    obtain ⟨rfl, hnil⟩ := Prod.mk.inj h
    exact .next hd (ih hd' (Prod.ext rfl hnil))
  | case5 c' rest hgap hd' =>
    rw [moreDigits.eq_3 _ _ hgap, hd'] at h
    cases h

theorem digitRun_of_digitsThen (h : digitsThen cs = (d :: ds, [])) : DigitRun cs (d :: ds) := by
  unfold digitsThen at h
  split at h
  · cases h
  · split at h
    · next hd =>
      obtain ⟨hds, hnil⟩ := Prod.mk.inj h
      obtain ⟨rfl, rfl⟩ := List.cons.inj hds
      exact digitRun_of_moreDigits hd (Prod.ext rfl hnil)
    · cases h

/-! ### Reading integers -/

theorem IsSign.isBlank_of_mem {mark : List Char} {negative : Bool} (h : IsSign mark negative)
    (hc : c ∈ mark) : isBlank c = false := by
  cases h with
  | none => cases hc
  | plus => exact List.mem_singleton.1 hc ▸ rfl
  | minus => exact List.mem_singleton.1 hc ▸ rfl

theorem sign_append {mark run : List Char} {negative : Bool} (hmark : IsSign mark negative)
    (hrun : DigitRun run ds) : sign (mark ++ run) = (negative, run) := by
  cases hmark with
  | plus => rfl
  | minus => rfl
  | none =>
    obtain ⟨c, rest, d, ds, rfl, rfl, hd⟩ := hrun.exists_digit
    rw [List.nil_append]
    unfold sign
    split
    · next h =>
      cases h
      cases hd
    · next h =>
      cases h
      cases hd
    · rfl

theorem exists_sign (cs : List Char) : ∃ mark, IsSign mark (sign cs).1 ∧ cs = mark ++ (sign cs).2 := by
  unfold sign
  split
  · exact ⟨['-'], .minus, rfl⟩
  · exact ⟨['+'], .plus, rfl⟩
  · exact ⟨[], .none, rfl⟩

theorem isPadding_of_not_isBlank (h : isBlank c = false) : isPadding c = false := by
  rw [isPadding, h]
  rfl

theorem intNumeral_of_readInt? (h : readInt? cs = some i) : IntNumeral cs i := by
  obtain ⟨before, after, hcs, hbefore, hafter⟩ := exists_trimBoth isPadding cs
  obtain ⟨mark, hmark, hsplit⟩ := exists_sign (trimBoth isPadding cs)
  unfold readInt? at h
  rw [hcs, hsplit]
  generalize sign (trimBoth isPadding cs) = signed at h hmark
  obtain ⟨negative, run⟩ := signed
  simp only at h
  split at h
  · next d ds hrun =>
    cases h
    exact .mk hbefore hmark (digitRun_of_digitsThen hrun) hafter
  · cases h

theorem IntNumeral.readInt?_eq (h : IntNumeral cs i) : readInt? cs = some i := by
  cases h with
  | @mk before mark run after negative ds hbefore hmark hrun hafter =>
    have hmiddle : ∀ c ∈ mark ++ run, isPadding c = false := by
      intro c hc
      rcases List.mem_append.1 hc with hc | hc
      · exact isPadding_of_not_isBlank (hmark.isBlank_of_mem hc)
      · exact isPadding_of_not_isBlank (hrun.isBlank_of_mem hc)
    obtain ⟨c, rest, d, ds, rfl, rfl, -⟩ := hrun.exists_digit
    have htrim := trimBoth_append hbefore hmiddle hafter (by simp)
    rw [readInt?, htrim, sign_append hmark hrun]
    simp only [hrun.digitsThen_eq]

/-- Just the numerals are read, each as the integer that it spells. -/
theorem readInt?_eq_some_iff : readInt? cs = some i ↔ IntNumeral cs i :=
  ⟨intNumeral_of_readInt?, IntNumeral.readInt?_eq⟩

/-! ### Decimal numerals -/

theorem digitRun_toDigits (n : Nat) : ∃ ds, DigitRun (Nat.toDigits 10 n) ds ∧ ofDigits ds = n := by
  induction n using Nat.strongRecOn with
  | ind n ih =>
    by_cases hn : n < 10
    · rw [Nat.toDigits_of_lt_base hn]
      exact ⟨[n], .last (digitValue?_digitChar hn), Nat.zero_add n⟩
    · have hten : 10 ≤ n := by omega
      obtain ⟨ds, hrun, hds⟩ := ih (n / 10) (by omega)
      rw [Nat.toDigits_of_base_le (by decide) hten]
      refine ⟨ds ++ [n % 10], hrun.concat (digitValue?_digitChar (Nat.mod_lt n (by decide))), ?_⟩
      rw [ofDigits_concat, hds, Nat.div_add_mod]

theorem intNumeral_toString {before after : List Char} (hbefore : ∀ c ∈ before, isPadding c) (n : Nat)
    (hafter : ∀ c ∈ after, isPadding c) : IntNumeral (before ++ (toString n).toList ++ after) n := by
  obtain ⟨ds, hrun, hds⟩ := digitRun_toDigits n
  have h := IntNumeral.mk hbefore .none hrun hafter
  rw [List.nil_append, hds] at h
  rwa [Nat.toString_eq_ofList_toDigits, String.toList_ofList]

end Nock.Text

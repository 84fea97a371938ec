import Nock.Digits

/-!
# Writing decimal numerals

The decimal numeral of a number, which is its digits without zeros in front (`decimal_eq`). A long
number is not taken apart digit by digit.
-/

namespace Nock.Text

/-- The digits of a number, found in a row that is long enough for them. -/
def longDecimal (n : Nat) : List Char :=
  ((Digits.last 10 (n.log2 / 3 + 1) n).dropWhile (· == 0)).map Nat.digitChar

/-- A number of so many binary digits is long. -/
def longBits : Nat := 256

/-- The decimal numeral of a number. -/
def decimal (n : Nat) : String :=
  if n.log2 < longBits then toString n else String.ofList (longDecimal n)

theorem dropWhile_last {count n : Nat} (hpos : 0 < n) (h : n < Nat.pow 10 count) :
    ((Digits.last 10 count n).dropWhile (· == 0)).map Nat.digitChar = Nat.toDigits 10 n := by
  induction count generalizing n with
  | zero => exact absurd h (by simp; omega)
  | succ count ih =>
    have hlt : n / 10 < Nat.pow 10 count := by
      have : Nat.pow 10 (count + 1) = Nat.pow 10 count * 10 := rfl
      omega
    rw [Digits.last_succ]
    by_cases hten : n < 10
    · have hzero : ∀ (c : Nat), (Digits.last 10 c 0).dropWhile (· == 0) = [] := by
        intro c
        induction c with
        | zero => rfl
        | succ c ihc =>
          rw [Digits.last_succ, List.dropWhile_append, Nat.zero_div, ihc]
          rfl
      rw [List.dropWhile_append, Nat.div_eq_of_lt hten, hzero, Nat.mod_eq_of_lt hten,
        Nat.toDigits_of_lt_base hten]
      have : (n == 0) = false := by simp; omega
      simp [List.dropWhile, this]
    · have hne : (Digits.last 10 count (n / 10)).dropWhile (· == 0) ≠ [] := by
        intro hnil
        have := ih (by omega) hlt
        rw [hnil] at this
        exact Nat.toDigits_ne_nil this.symm
      rw [List.dropWhile_append, if_neg (by simpa using hne), List.map_append, ih (by omega) hlt,
        Nat.toDigits_of_base_le (n := n) (by decide) (by omega)]
      rfl

theorem lt_ten_pow (n : Nat) : n < Nat.pow 10 (n.log2 / 3 + 1) := by
  have h : n < Nat.pow 2 (n.log2 + 1) := Nat.lt_log2_self
  have hle : Nat.pow 2 (n.log2 + 1) ≤ Nat.pow 2 (3 * (n.log2 / 3 + 1)) :=
    Nat.pow_le_pow_right (by decide) (by omega)
  have height : Nat.pow 2 (3 * (n.log2 / 3 + 1)) ≤ Nat.pow 10 (n.log2 / 3 + 1) := by
    have : Nat.pow 2 (3 * (n.log2 / 3 + 1)) = Nat.pow 8 (n.log2 / 3 + 1) := Nat.pow_mul 2 3 _
    rw [this]
    exact Nat.pow_le_pow_left (by decide) _
  omega

theorem decimal_eq (n : Nat) : decimal n = toString n := by
  rw [decimal]
  split
  · rfl
  next h =>
    have hpos : 0 < n := by
      rcases Nat.eq_zero_or_pos n with rfl | hn
      · exact absurd (by decide) h
      · exact hn
    rw [longDecimal, dropWhile_last hpos (lt_ten_pow n), Nat.toString_eq_ofList_toDigits]

/-- The decimal numeral of an integer, behind a minus sign if it is below zero. -/
def signedDecimal (i : Int) : String := if i < 0 then "-" ++ decimal i.natAbs else decimal i.natAbs

end Nock.Text

import Nock.Text.Numeral

/-!
# Rules of numerals

Which texts spell an integer, told by their parts: padding, a sign, digits with single underscores between some
of them, and padding again.
-/

namespace Nock.Text

/-- Digits with their values, and at most one underscore between two of them. -/
inductive DigitRun : List Char → List Nat → Prop
  | last {c : Char} {d : Nat} : digitValue? c = some d → DigitRun [c] [d]
  | next {c : Char} {d : Nat} {cs : List Char} {ds : List Nat} : digitValue? c = some d →
      DigitRun cs ds → DigitRun (c :: cs) (d :: ds)
  | gap {c : Char} {d : Nat} {cs : List Char} {ds : List Nat} : digitValue? c = some d →
      DigitRun cs ds → DigitRun (c :: '_' :: cs) (d :: ds)

/-- A sign, which may be missing; `true` is minus. -/
inductive IsSign : List Char → (negative : Bool) → Prop
  | none : IsSign [] false
  | plus : IsSign ['+'] false
  | minus : IsSign ['-'] true

/-- A text that spells an integer. -/
inductive IntNumeral : List Char → Int → Prop
  | mk {before mark run after : List Char} {negative : Bool} {ds : List Nat} :
      (∀ c ∈ before, isPadding c) → IsSign mark negative → DigitRun run ds → (∀ c ∈ after, isPadding c) →
      IntNumeral (before ++ (mark ++ run) ++ after) (if negative then -(ofDigits ds : Int) else ofDigits ds)

end Nock.Text

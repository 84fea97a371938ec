import Nock.Noun.Printer

/-!
# Reading nouns

Reads the text of a noun back, one character after another. The brackets that are open are kept with the
items in front of the last blank in them; a bracket closes behind an atom only, as a cell in that place
would have been printed without brackets of its own. For the same reason a bracket holds two items at
least, and a numeral has no zero in front: what is read is the text of a noun, and nothing else.
-/

namespace Nock

/-- The items of the brackets that are open, innermost first, and the noun read behind them. -/
structure Reader where
  rows : List (List Noun)
  noun? : Option Noun

namespace Reader

def readDigit? (d : Nat) : Reader → Option Reader
  | ⟨rows, none⟩ => some ⟨rows, some (.atom d)⟩
  | ⟨rows, some (.atom (n + 1))⟩ => some ⟨rows, some (.atom (10 * (n + 1) + d))⟩
  | _ => none

def read? : Reader → Char → Option Reader
  | ⟨rows, none⟩, '[' => some ⟨[] :: rows, none⟩
  | ⟨row :: rows, some x⟩, ' ' => some ⟨(row ++ [x]) :: rows, none⟩
  | ⟨(x :: row) :: rows, some (.atom n)⟩, ']' => some ⟨rows, some (.nest (x :: row) (.atom n))⟩
  | r, c => if c.isDigit then r.readDigit? (c.toNat - '0'.toNat) else none

end Reader

/-- The noun that a text is the text of. -/
def Noun.ofText? (t : String) : Option Noun :=
  match t.toList.foldlM Reader.read? ⟨[], none⟩ with
  | some ⟨[], some n⟩ => some n
  | _ => none

end Nock

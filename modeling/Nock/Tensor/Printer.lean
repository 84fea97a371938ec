import Nock.Tensor.Basic
import Nock.Text.Decimal

/-!
# Printing arrays

The text of an array of rank 0 or 1: its entries and its element type. Entries are aligned on the right
and set in lines of a fixed width, and of a very long array only the first and last few are shown.
-/

namespace Nock

namespace Text

/-- Sets words in lines with a comma behind each but the last. A word that would end beyond the width
goes on a new line, unless the line is still empty but for the indent. -/
def setWords (indent width : Nat) (done line : String) : List String → String
  | [] => done ++ line
  | word :: rest =>
    let ended := if rest.isEmpty then word else word ++ ", "
    if width < line.length + word.length && indent < line.length then
      let full := String.ofList line.toList.dropLast
      setWords indent width (done ++ full ++ "\n") ("".pushn ' ' indent ++ ended) rest
    else setWords indent width done (line ++ ended) rest

/-- Words of one width, with blanks in front. -/
def alignRight (words : List String) : List String :=
  let width := words.foldl (fun n w => max n w.length) 0
  words.map fun w => "".pushn ' ' (width - w.length) ++ w

end Text

namespace Tensor

/-- So many columns are in a line. -/
def lineWidth : Nat := 75

/-- An array with more entries than these is shown by its ends. -/
def mostShown : Nat := 1000

/-- So many entries are shown at each end. -/
def endShown : Nat := 3

def opening : String := "Array("

/-- The texts of the entries that are shown. -/
def words (entries : List Int) : List String :=
  if entries.length ≤ mostShown then Text.alignRight (entries.map Text.signedDecimal)
  else
    let last := entries.drop (entries.length - endShown)
    let ws := Text.alignRight ((entries.take endShown ++ last).map Text.signedDecimal)
    ws.take endShown ++ "..." :: ws.drop endShown

/-- The entries of an array of rank 1 in lines, between brackets. -/
def brackets (entries : List Int) : String :=
  let indent := opening.length + 1
  let lines := Text.setWords indent (lineWidth - 2) "" ("".pushn ' ' indent) (words entries)
  "[" ++ String.ofList (lines.toList.drop indent) ++ "]"

/-- The text of an array. The element type is set off where it does not fit into the last line. -/
def display (t : Tensor) : String :=
  let body := if t.shape.isEmpty then Text.signedDecimal (t.entries.headD 0) else brackets t.entries
  let lastLine := (body.toList.reverse.takeWhile (· != '\n')).length
  let typeText := "dtype=" ++ t.type.name ++ ")"
  let gap := if lineWidth < lastLine + typeText.length + 3 then opening.length else 1
  opening ++ body ++ "," ++ "".pushn ' ' gap ++ typeText

end Tensor

end Nock

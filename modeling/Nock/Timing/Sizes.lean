import Nock.Error
import Nock.Text.Numeral

/-!
# Size lists

Positive sizes between commas. Parts that are blank are passed over, and there must be another one. A
part that spells no integer is shown between quotes, as far as two hundred characters go.
-/

namespace Nock.Timing

def parts : List Char → List (List Char)
  | [] => [[]]
  | c :: cs =>
    if c = ',' then [] :: parts cs
    else
      match parts cs with
      | p :: ps => (c :: p) :: ps
      | [] => [[c]]

/-- What is shown of a part that spells no integer. -/
def shownPart (p : List Char) : String :=
  String.ofList ((Text.quote (String.ofList p)).toList.take 200)

def readParts : List (List Char) → Except Error (List Int)
  | [] => .ok []
  | p :: ps =>
    match Text.readInt? p with
    | none => .error (.badNumeral (shownPart p))
    | some i => do
      let is ← readParts ps
      return i :: is

def readSizes (text : String) : Except Error (List Int) := do
  let sizes ← readParts ((parts text.toList).filter fun p => !p.all Text.isBlank)
  if sizes.isEmpty || sizes.any (· < 1) then throw .badSizes
  return sizes

end Nock.Timing

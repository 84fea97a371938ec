import Nock.Binary.Printer
import Nock.Noun.Printer
import Nock.Text.Quoted
import Nock.Value.Nesting

/-!
# Printing values

A value has two texts: `display` marks text by quotes and elements of arrays by their type, and
`plain` leaves text and elements bare when they are the whole value. Nouns print alike in both. A
result of an evaluation prints as `formatted`, where a crash has its own word. What is nested too deep
has no text (`shown`, `format`).
-/

namespace Nock

/-- Real elements are written with an exponent from as many digits on as their type is sure to hold; in
the double format, from one more. -/
def ElementType.layout : ElementType → Binary.Layout
  | .half => ⟨3, true⟩
  | .single => ⟨6, true⟩
  | .complexSingle => ⟨6, false⟩
  | .complexDouble => ⟨16, false⟩
  | _ => .double

namespace Scalar

/-- The text of an element without its type. -/
def plain : Scalar → String
  | whole .truth i => if i = 0 then "False" else "True"
  | whole _ i => Text.signedDecimal i
  | real .brief x => x.rounded 6
  | real t x =>
    let s := x.shortest t.layout (t.format?.getD .double)
    if t = .complexSingle || t = .complexDouble then
      if x.isPositiveZero then "0j" else "(" ++ s ++ "+0j)"
    else s

/-- The text of an element with its type; the types with less than a byte and the sixteen-bit format
with a long range have none. -/
def display (s : Scalar) : String :=
  match s with
  | whole .truth i => if i = 0 then "np.False_" else "np.True_"
  | real .brief _ => s.plain
  | _ =>
    if s.type.isSmall then s.plain
    else
      let inner := s.plain
      "np." ++ s.type.name ++ if inner.startsWith "(" then inner else "(" ++ inner ++ ")"

end Scalar

namespace Value

mutual

def display : Value → String
  | int i => Text.signedDecimal i
  | bool b => if b then "True" else "False"
  | null => "None"
  | text s => Text.quote s
  | number x => x.shortest .double .double
  | list items => "[" ++ ", ".intercalate (displayAll items) ++ "]"
  | tuple [item] => "(" ++ display item ++ ",)"
  | tuple items => "(" ++ ", ".intercalate (displayAll items) ++ ")"
  | dict => "\x7b\x7d"
  | scalar s => s.display
  | crash => "CRASH"
  | cell h t => (Noun.cell h t).render

def displayAll : List Value → List String
  | [] => []
  | item :: items => display item :: displayAll items

end

def plain : Value → String
  | text s => s
  | scalar s => s.plain
  | v => v.display

/-- The text of a result. -/
def formatted : Value → String
  | crash => "crash"
  | v => v.plain

/-- A text of a value that there is room for. -/
def ifFits (v : Value) (text : Value → String) : Except Error String :=
  if v.fits .visit then .ok (text v) else .error (.nestedTooDeep false)

def shown (v : Value) : Except Error String := v.ifFits display

def format (v : Value) : Except Error String := v.ifFits formatted

end Value

end Nock

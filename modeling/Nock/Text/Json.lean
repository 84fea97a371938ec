import Nock.Binary.Printer
import Nock.Text.Decimal

/-!
# JSON

Documents of numbers, text, lists and fields, written with one item a line and two blanks of indent a
level. Text is written in ASCII: other characters are escaped by their number, as two escapes where a
number has more than sixteen bits.
-/

namespace Nock

inductive Json where
  | null
  | int (i : Int)
  | number (x : Binary)
  | text (s : String)
  | list (items : List Json)
  | fields (items : List (String × Json))

namespace Json

/-- An escape of sixteen bits. -/
def escape16 (n : Nat) : List Char :=
  let ds := Nat.toDigits 16 n
  '\\' :: 'u' :: List.replicate (4 - ds.length) '0' ++ ds

def escape (c : Char) : List Char :=
  if c = '"' || c = '\\' then ['\\', c]
  else if c = '\n' then ['\\', 'n']
  else if c = '\r' then ['\\', 'r']
  else if c = '\t' then ['\\', 't']
  else if c = '\x08' then ['\\', 'b']
  else if c = '\x0c' then ['\\', 'f']
  else if 0x20 ≤ c.toNat && c.toNat < 0x7f then [c]
  else if c.toNat < 0x10000 then escape16 c.toNat
  else
    let n := c.toNat - 0x10000
    escape16 (0xd800 + n / 0x400) ++ escape16 (0xdc00 + n % 0x400)

def quote (s : String) : String := String.ofList ('"' :: s.toList.flatMap escape ++ ['"'])

/-- Items between brackets, one a line, at a level. -/
def bracket (opening closing : String) (level : Nat) (items : List String) : String :=
  if items.isEmpty then opening ++ closing
  else
    let newline (level : Nat) := "\n" ++ "".pushn ' ' (2 * level)
    opening ++ newline (level + 1) ++ ("," ++ newline (level + 1)).intercalate items ++
      newline level ++ closing

mutual

def render (level : Nat) : Json → String
  | null => "null"
  | int i => Text.signedDecimal i
  | number x => x.shortest .double .double
  | text s => quote s
  | list items => bracket "[" "]" level (renderAll (level + 1) items)
  | fields items => bracket "\x7b" "\x7d" level (renderFields (level + 1) items)

def renderAll (level : Nat) : List Json → List String
  | [] => []
  | j :: rest => render level j :: renderAll level rest

def renderFields (level : Nat) : List (String × Json) → List String
  | [] => []
  | (name, j) :: rest => (quote name ++ ": " ++ render level j) :: renderFields level rest

end

end Json

end Nock

import Nock.Binary.Basic

/-!
# Element types

The types that the elements of an array may have. Integers have one of six widths, with or without a
sign. Arrays are held in at most thirty-two bits an element (and twice that for complex numbers), so
wider types are narrowed, and an integer of a wider type is taken modulo the narrow width.

A whole number becomes an element (`ElementType.integerOf?`, `ElementType.realOf?`) if the type holds
it; only the types with less than a byte take it modulo their width. A real element is rounded from the
double format, the sixteen-bit one with a long range in two steps.
-/

namespace Nock

inductive ElementType where
  | integer (signed : Bool) (bits : Nat)
  | truth
  | half
  | brief
  | single
  | double
  | complexSingle
  | complexDouble
deriving DecidableEq

namespace ElementType

def all : List ElementType :=
  [2, 4, 8, 16, 32, 64].flatMap (fun bits => [integer true bits, integer false bits]) ++
    [truth, half, brief, single, double, complexSingle, complexDouble]

def name : ElementType → String
  | integer true bits => "int" ++ toString bits
  | integer false bits => "uint" ++ toString bits
  | truth => "bool"
  | half => "float16"
  | brief => "bfloat16"
  | single => "float32"
  | double => "float64"
  | complexSingle => "complex64"
  | complexDouble => "complex128"

def furtherNames : List (ElementType × List String) :=
  [(integer true 8, ["byte", "b", "i1"]), (integer false 8, ["ubyte", "B", "u1"]),
    (integer true 16, ["short", "h", "i2"]), (integer false 16, ["ushort", "H", "u2"]),
    (integer true 32, ["intc", "i", "i4"]), (integer false 32, ["uintc", "I", "u4"]),
    (integer true 64, ["int", "int_", "intp", "long", "longlong", "l", "q", "p", "n", "i8"]),
    (integer false 64, ["uint", "uintp", "ulong", "ulonglong", "L", "Q", "P", "N", "u8"]),
    (truth, ["bool_", "?", "b1"]), (half, ["half", "e", "f2"]), (single, ["single", "f", "f4"]),
    (double, ["float", "double", "d", "f8"]), (complexSingle, ["csingle", "F", "c8"]),
    (complexDouble, ["complex", "cdouble", "D", "c16"])]

/-- A name without the mark of the byte order that arrays are held in. -/
def unmarked (s : String) : String :=
  match s.toList with
  | '<' :: cs | '=' :: cs | '|' :: cs => if 2 ≤ cs.length && cs.length ≤ 3 then String.ofList cs else s
  | _ => s

def ofName? (s : String) : Option ElementType :=
  (all.find? (·.name == s)).or
    ((furtherNames.find? fun (_, names) => names.contains (unmarked s)).map Prod.fst)

def narrow : ElementType → ElementType
  | integer signed bits => integer signed (min bits 32)
  | double => single
  | complexDouble => complexSingle
  | t => t

def isInteger : ElementType → Bool
  | integer _ _ => true
  | _ => false

def least (signed : Bool) (bits : Nat) : Int := if signed then -Int.ofNat (Nat.pow 2 (bits - 1)) else 0

def greatest (signed : Bool) (bits : Nat) : Int :=
  Int.ofNat (Nat.pow 2 (if signed then bits - 1 else bits)) - 1

/-- Whether a type can hold an integer; only the integer types have bounds. -/
def holds : ElementType → Int → Bool
  | integer signed bits, i => least signed bits ≤ i && i ≤ greatest signed bits
  | _, _ => true

/-- The integer of a type that has the same low bits. -/
def wrap : ElementType → Int → Int
  | integer true bits, i => i.bmod (Nat.pow 2 bits)
  | integer false bits, i => i % Int.ofNat (Nat.pow 2 bits)
  | _, i => i

/-- Whether the integers of a type have less than a byte. -/
def isSmall : ElementType → Bool
  | integer _ bits => bits < 8
  | _ => false

/-- The integer or truth value that a whole number becomes. -/
def integerOf? (t : ElementType) (i : Int) : Option Int :=
  match t with
  | integer _ _ =>
    if t.isSmall then if (integer true 64).holds i then some (t.wrap i) else none
    else if t.holds i then some i else none
  | truth => some (if i = 0 then 0 else 1)
  | _ => none

def format? : ElementType → Option Format
  | half => some .half
  | brief => some .brief
  | single | complexSingle => some .single
  | double | complexDouble => some .double
  | _ => none

/-- The number of a real type that a number of the double format becomes. -/
def round (t : ElementType) (x : Binary) : Binary :=
  if t = brief then (x.round .single).round .brief else t.format?.elim x x.round

/-- The number of a real type that a whole number becomes. -/
def realOf? (t : ElementType) (i : Int) : Option Binary :=
  let x := Binary.ofInt .double i
  if x.isFinite then some (t.round x) else none

/-- The entry of an array that a whole number becomes; that of a real type plays no part. -/
def entryOf? (t : ElementType) (i : Int) : Option Int :=
  if t.format?.isSome then (t.realOf? i).map fun _ => i else t.integerOf? i

end ElementType

/-- A single element of a type: a whole number, 0 or 1 for a truth value, or a number of its format. -/
inductive Scalar where
  | whole (type : ElementType) (value : Int)
  | real (type : ElementType) (value : Binary)
deriving DecidableEq

namespace Scalar

def type : Scalar → ElementType
  | whole t _ => t
  | real t _ => t

def ofInt? (t : ElementType) (i : Int) : Option Scalar :=
  if t.format?.isSome then (t.realOf? i).map (real t) else (t.integerOf? i).map (whole t)

end Scalar

end Nock

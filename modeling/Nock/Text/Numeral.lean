import Nock.Binary.Basic
import Nock.Text.Blank
import Nock.Text.DecimalDigit

/-!
# Reading numerals

An integer numeral is a sign, which may be missing, and decimal digits, with padding around it. A
single underscore may stand between two digits. A decimal numeral may have a point and an exponent
too, or be the name of an infinity or of no number.
-/

namespace Nock.Text

/-- The values of further digits, an underscore in front of any of them; what follows is left. -/
def moreDigits : List Char → List Nat × List Char
  | [] => ([], [])
  | '_' :: c :: rest =>
    match digitValue? c with
    | some d => let r := moreDigits rest; (d :: r.1, r.2)
    | none => ([], '_' :: c :: rest)
  | c :: rest =>
    match digitValue? c with
    | some d => let r := moreDigits rest; (d :: r.1, r.2)
    | none => ([], c :: rest)

/-- The values of the digits in front; what follows is left. -/
def digitsThen : List Char → List Nat × List Char
  | [] => ([], [])
  | c :: rest =>
    match digitValue? c with
    | some d => let r := moreDigits rest; (d :: r.1, r.2)
    | none => ([], c :: rest)

/-- The number that digits spell. -/
def ofDigits (ds : List Nat) : Nat := ds.foldl (fun n d => 10 * n + d) 0

/-- Takes a sign off; `true` is minus. -/
def sign : List Char → Bool × List Char
  | '-' :: rest => (true, rest)
  | '+' :: rest => (false, rest)
  | cs => (false, cs)

/-- The integer that a text spells. -/
def readInt? (cs : List Char) : Option Int :=
  let (negative, cs) := sign (trimBoth isPadding cs)
  match digitsThen cs with
  | (d :: ds, []) =>
    let n := ofDigits (d :: ds)
    some (if negative then -n else n)
  | _ => none

/-- The digits after a point. -/
def fraction (cs : List Char) : List Nat × List Char :=
  match cs with
  | '.' :: rest => digitsThen rest
  | _ => ([], cs)

/-- The exponent behind the digits, 0 if there is none. -/
def exponent? (cs : List Char) : Option Int :=
  match cs with
  | [] => some 0
  | e :: rest =>
    if e = 'e' || e = 'E' then
      let (negative, cs) := sign rest
      match digitsThen cs with
      | (d :: ds, []) => let n := ofDigits (d :: ds); some (if negative then -n else n)
      | _ => none
    else none

/-- The value of the double format nearest to `m * 10 ^ e`. Far beyond its range the power is not
taken. -/
def scaleTen (negative : Bool) (m : Nat) (e : Int) : Binary :=
  let size := (Nat.toDigits 10 m).length + e
  if m = 0 || size < -400 then .ofQuotient .double negative 0 1
  else if 400 < size then .infinite negative
  else
    match e with
    | .ofNat k => .ofQuotient .double negative (m * Nat.pow 10 k) 1
    | .negSucc k => .ofQuotient .double negative m (Nat.pow 10 (k + 1))

/-- The number of the double format nearest to what a text spells. -/
def readBinary? (s : String) : Option Binary :=
  let (negative, cs) := sign (trimBoth isPadding s.toList)
  let word := String.ofList (cs.map Char.toLower)
  if word = "inf" || word = "infinity" then some (.infinite negative)
  else if word = "nan" then some .nan
  else
    let (whole, rest) := digitsThen cs
    let (places, rest) := fraction rest
    if whole.isEmpty && places.isEmpty then none
    else (exponent? rest).map fun e =>
      scaleTen negative (ofDigits (whole ++ places)) (e - places.length)

end Nock.Text

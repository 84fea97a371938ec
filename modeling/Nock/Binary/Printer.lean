import Nock.Binary.Basic

/-!
# Printing binary numbers in decimal

Three texts of a binary number. `Binary.shortest` has the fewest digits that still round to the number
in its format, and of those the digits nearest to it. `Binary.rounded` has a given number of digits and
`Binary.fixed` a given number of places, both rounded from the exact value with a half to the even
neighbour. How digits are laid out, with or without an exponent, is told by a `Layout`.
-/

namespace Nock.Binary

/-- Decimal digits with the power of ten of the last one. -/
structure Decimal where
  digits : Nat
  exponent : Int

/-- The quotient `num / den / 10 ^ g` as one of natural numbers. -/
def overTen (num den : Nat) (g : Int) : Nat × Nat :=
  match g with
  | .ofNat k => (num, den * Nat.pow 10 k)
  | .negSucc k => (num * Nat.pow 10 (k + 1), den)

/-- The power of ten of the first decimal digit of `num / den`; `bits` is that of two. -/
def leadingTen (num den : Nat) (bits : Int) : Int :=
  let guess := (bits * 30103).fdiv 100000
  let (n, d) := overTen num den (guess + 1)
  if d ≤ n then guess + 1 else guess

/-- The quotients that round to a number: those between `low` and `high`, over `den`, with the ends
if `closed`. -/
structure Interval where
  low : Nat
  value : Nat
  high : Nat
  den : Nat
  closed : Bool

/-- What rounds to `m * 2 ^ e`. Below a power of two the neighbour is half as far. -/
def interval (f : Format) (m : Nat) (e : Int) : Interval :=
  let below := if m = Nat.pow 2 (f.precision - 1) && f.least < e then 1 else 2
  let (n, d) := descale 1 1 (2 - e)
  ⟨(4 * m - below) * n, 4 * m * n, (4 * m + 2) * n, d, m % 2 = 0⟩

def Interval.holds (i : Interval) (c : Nat) (g : Int) : Bool :=
  let (c, d) := match g with
    | .ofNat k => (c * Nat.pow 10 k, 1)
    | .negSucc k => (c, Nat.pow 10 (k + 1))
  let x := c * i.den
  if i.closed then i.low * d ≤ x && x ≤ i.high * d else i.low * d < x && x < i.high * d

/-- The nearest point to the value on the grid of multiples of `10 ^ g`, of the two beside it that
lie in the interval. -/
def Interval.nearest? (i : Interval) (g : Int) : Option Nat :=
  let (n, d) := overTen i.value i.den g
  let floor := n / d
  let up := Rounding.halfEven n d
  let other := if up = floor then floor + 1 else floor
  if i.holds up g then some up else if i.holds other g then some other else none

/-- The first grid that has a point in the interval, from `count` digits on. -/
def Interval.search (i : Interval) (lead : Int) : (grids count : Nat) → Decimal
  | 0, count =>
    let g := lead - count + 1
    let (n, d) := overTen i.value i.den g
    ⟨Rounding.halfEven n d, g⟩
  | grids + 1, count =>
    let g := lead - count + 1
    match i.nearest? g with
    | some c => ⟨c, g⟩
    | none => i.search lead grids (count + 1)

def Decimal.strip (x : Decimal) : Decimal :=
  if x.digits = 0 then ⟨0, 0⟩
  else if x.digits % 10 = 0 then Decimal.strip ⟨x.digits / 10, x.exponent + 1⟩ else x
termination_by x.digits
decreasing_by omega

/-- The fewest digits that round to `m * 2 ^ e`, which is not zero. -/
def shortestDecimal (f : Format) (m : Nat) (e : Int) : Decimal :=
  let i := interval f m e
  (i.search (leadingTen i.value i.den (m.log2 + e)) 17 1).strip

def zeros (n : Nat) : List Char := List.replicate n '0'

/-- The text of an exponent: a sign and two digits at least. -/
def exponentText (x : Int) : List Char :=
  let ds := Nat.toDigits 10 x.natAbs
  'e' :: (if x < 0 then '-' else '+') :: zeros (2 - ds.length) ++ ds

structure Layout where
  /-- The point is set among the digits when the first one stands for at least 10⁻⁴ and for less than
  this power of ten; otherwise it follows the first digit, and an exponent follows. -/
  exponentFrom : Int
  /-- Whether a whole number without an exponent has a point and a zero behind it. -/
  pointed : Bool
deriving DecidableEq

namespace Layout

def double : Layout := ⟨16, true⟩

def write (l : Layout) (x : Decimal) : List Char :=
  let ds := Nat.toDigits 10 x.digits
  let lead := x.exponent + ds.length - 1
  if lead < -4 || l.exponentFrom ≤ lead then
    let rest := ds.drop 1
    ds.take 1 ++ (if rest.isEmpty then [] else '.' :: rest) ++ exponentText lead
  else if lead < 0 then '0' :: '.' :: zeros (-lead - 1).toNat ++ ds
  else if 0 ≤ x.exponent then ds ++ zeros x.exponent.toNat ++ if l.pointed then ['.', '0'] else []
  else ds.take (lead + 1).toNat ++ '.' :: ds.drop (lead + 1).toNat

end Layout

/-- The text of a number; `decimal` finds the digits of one that is not zero. -/
def write (l : Layout) (decimal : Nat → Int → Decimal) : Binary → String
  | finite negative m e =>
    (if negative then "-" else "") ++
      String.ofList (l.write (if m = 0 then ⟨0, 0⟩ else decimal m e))
  | infinite negative => if negative then "-inf" else "inf"
  | nan => "nan"

/-- The text with the fewest digits that read back in the format. -/
def shortest (l : Layout) (f : Format) (x : Binary) : String := x.write l (shortestDecimal f)

/-- The value `m * 2 ^ e`, which is not zero, rounded to so many digits. -/
def roundedDecimal (count m : Nat) (e : Int) : Decimal :=
  let (n, d) := descale m 1 (-e)
  let g := leadingTen n d (m.log2 + e) - count + 1
  let (n, d) := overTen n d g
  Decimal.strip ⟨Rounding.halfEven n d, g⟩

/-- The text with so many digits at most, and with an exponent if the number has more before the
point. -/
def rounded (count : Nat) (x : Binary) : String := x.write ⟨count, false⟩ (roundedDecimal count)

/-- The text with so many places behind the point. -/
def fixed (places : Nat) : Binary → String
  | finite negative m e =>
    let (n, d) := descale (m * Nat.pow 10 places) 1 (-e)
    let ds := Nat.toDigits 10 (Rounding.halfEven n d)
    let ds := zeros (places + 1 - ds.length) ++ ds
    let whole := ds.take (ds.length - places)
    let rest := ds.drop (ds.length - places)
    let ds := whole ++ if places = 0 then [] else '.' :: rest
    (if negative then "-" else "") ++ String.ofList ds
  | infinite negative => if negative then "-inf" else "inf"
  | nan => "nan"

end Nock.Binary

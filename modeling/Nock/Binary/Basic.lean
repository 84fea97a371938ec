import Nock.Rounding

/-!
# Binary floating point

A `Binary` is a sign, a natural number of digits and an exponent of two, or an infinity, or no number.
`Binary.ofQuotient` rounds an exact quotient to a format, to the nearest value and a tie to even
digits. In the double format every finite value is a whole number of least steps (`Binary.steps`), so
sums and squares are taken exactly, in integers, and rounded once.
-/

namespace Nock

/-- How many binary digits a number has, and the exponents of its least and greatest step. -/
structure Format where
  precision : Nat
  least : Int
  greatest : Int
deriving DecidableEq

namespace Format

def half : Format := ⟨11, -24, 5⟩

/-- The sixteen-bit format with the range of single precision. -/
def brief : Format := ⟨8, -133, 120⟩

def single : Format := ⟨24, -149, 104⟩

def double : Format := ⟨53, -1074, 971⟩

end Format

inductive Binary where
  /-- The value is `digits` times two to the power `exponent`, with a sign that zero has too. -/
  | finite (negative : Bool) (digits : Nat) (exponent : Int)
  | infinite (negative : Bool)
  | nan
deriving DecidableEq

namespace Binary

/-- The quotient `num / den / 2 ^ q` as one of natural numbers. -/
def descale (num den : Nat) (q : Int) : Nat × Nat :=
  match q with
  | .ofNat k => (num, den * Nat.pow 2 k)
  | .negSucc k => (num * Nat.pow 2 (k + 1), den)

/-- The exponent of the step of the format that `num / den` is rounded to. -/
def stepExponent (f : Format) (num den : Nat) : Int :=
  let guess := max f.least ((num.log2 : Int) - den.log2 - f.precision)
  let (n, d) := descale num den guess
  if d * Nat.pow 2 f.precision ≤ n then guess + 1 else guess

/-- The value of a format that is nearest to `num / den`, of two the one with even digits. -/
def ofQuotient (f : Format) (negative : Bool) (num den : Nat) : Binary :=
  let q := stepExponent f num den
  let (n, d) := descale num den q
  let m := Rounding.halfEven n d
  let (m, q) := if m = Nat.pow 2 f.precision then (Nat.pow 2 (f.precision - 1), q + 1) else (m, q)
  if f.greatest < q then infinite negative else finite negative m q

def ofInt (f : Format) (i : Int) : Binary := ofQuotient f (i < 0) i.natAbs 1

def round (f : Format) : Binary → Binary
  | finite negative m e =>
    let (n, d) := descale m 1 (-e)
    ofQuotient f negative n d
  | x => x

def isFinite : Binary → Bool
  | finite .. => true
  | _ => false

def isPositiveZero : Binary → Bool
  | finite false 0 _ => true
  | _ => false

/-- How many least steps of the double format are one. -/
def unit : Nat := Nat.pow 2 1074

/-- A number of least steps of the double format, over `den`. -/
def ofSteps (steps : Int) (den : Nat) : Binary :=
  ofQuotient .double (steps < 0) steps.natAbs (den * unit)

/-- How many least steps of the double format a finite value is. -/
def steps? : Binary → Option Int
  | finite negative m e =>
    let size := Int.ofNat (m * Nat.pow 2 (e + 1074).toNat)
    some (if negative then -size else size)
  | _ => none

def toInt? (x : Binary) : Option Int :=
  x.steps?.bind fun s => if s % Int.ofNat unit = 0 then some (s / Int.ofNat unit) else none

/-- Numeric equality: the two zeros are equal, and what is no number equals nothing. -/
def numEq (x y : Binary) : Bool :=
  match x, y with
  | finite .., finite .. => x.steps? == y.steps?
  | infinite a, infinite b => a == b
  | _, _ => false

/-- The order of the numbers; what is no number is below and above all. -/
def le (x y : Binary) : Bool :=
  match x, y with
  | infinite a, y => a || y == infinite false
  | x, infinite b => !b || x == infinite true
  | x, y =>
    match x.steps?, y.steps? with
    | some a, some b => a ≤ b
    | _, _ => true

/-- The square root of a quotient, rounded to the double format. The root is taken to sixty-four
places more than the integer has; what is cut off is marked by one more half place, which is enough
to round it as the exact root is rounded. -/
def sqrtQuotient (num den : Nat) : Binary :=
  if num = 0 then ofSteps 0 1
  else
    let k := den.log2 + 64
    let radicand := num * Nat.pow 4 k
    let root := Rounding.floorSqrt (radicand / den)
    let marked := if root * root * den = radicand then 2 * root else 2 * root + 1
    ofQuotient .double false marked (Nat.pow 2 (k + 1))

end Binary

end Nock

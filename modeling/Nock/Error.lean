import Nock.Text.Decimal
import Nock.Text.Quoted

/-!
# Errors

What is refused, and why. Every error is of a kind, and the kinds are ordered: an error about the type
of a noun is also an error about a type. A crash of an evaluation is no error unless it is asked to be
one (`Error.crashed`). Where what is given cannot be worked with at all, an error has a kind and no
message (`Error.unexplained`).

A `place` says which argument, or which part of one, is meant.
-/

namespace Nock

namespace Error

inductive Kind where
  | any
  | nock
  | nounType
  | crashed
  | nesting
  | type
  | value
  | overflow
  | recursion
  | runtime
  | missing
  | statistics
  | frozen
  | argument
  | attribute
  /-- There is no type that holds the elements of two arrays. -/
  | promotion
  /-- What the file system refuses. -/
  | system
  | directory
  | unfinished
deriving DecidableEq, Repr

namespace Kind

def parents : Kind → List Kind
  | any => []
  | nounType => [nock, type]
  | crashed => [nock]
  | nesting => [nock, recursion]
  | recursion => [runtime]
  | promotion => [value]
  | directory => [system]
  | _ => [any]

/-- Whether every error of kind `a` is one of kind `b`; three steps reach all kinds above. -/
def isA (a b : Kind) : Bool :=
  let up (ks : List Kind) := ks ++ ks.flatMap parents
  (up (up (up [a]))).contains b

end Kind

end Error

inductive Error where
  | negativeAtom (place : String) (value : Int)
  /-- A crash is given where a noun is needed. -/
  | crashGiven (place : String)
  /-- A crash is given to be stored in a cell. -/
  | crashStored (place : String)
  | notNoun (place typeName : String)
  | noKind (typeName : String)
  | tooFewNouns
  /-- An item of a list that is to be flat. -/
  | itemIsCell (index : Nat)
  | crashed (message shown : String)
  | tooDeep
  | unfinished
  | notInteger (place typeName : String)
  | negative (place : String) (value : Int)
  | shortSequence (place : String) (count : Nat)
  | unknownEngine (shown : String) (known : List String)
  | unhashable (typeName : String)
  | elementType (place typeName : String)
  | negativeEntries (place : String)
  | shortRow (place : String) (count : Nat)
  /-- A list that does not end in 0. -/
  | openList (last : Nat)
  | doesNotFit (index value : Nat) (typeName : String)
  /-- What is given cannot be worked with, and only the kind of the error tells why. -/
  | unexplained (kind : Error.Kind)
  /-- Values of two types are in no order. -/
  | unordered (sign left right : String)
  /-- A value is nested too deep to be compared, or to be printed. -/
  | nestedTooDeep (compared : Bool)
  /-- A whole number is beyond all real numbers. -/
  | tooLarge
  /-- Several truth values stand where one is needed. -/
  | manyTruths
  /-- No truth value stands where one is needed. -/
  | noTruths
  /-- The items of a sequence have different shapes; they share the lengths given. -/
  | unevenItems (lengths : List Nat)
  | badNumeral (shown : String)
  | badSizes
  | noSamples
  | frozenField (deleted : Bool) (field : String)
  | packageMissing (function : String)
  | partMissing (name : String)
deriving DecidableEq

namespace Error

def kind : Error → Kind
  | negativeAtom .. | crashGiven .. | crashStored .. | notNoun .. | noKind .. | tooFewNouns
  | itemIsCell .. => .nounType
  | crashed .. => .crashed
  | tooDeep => .nesting
  | unfinished => .unfinished
  | notInteger .. | unhashable .. | elementType .. | unordered .. => .type
  | negative .. | shortSequence .. | unknownEngine .. | negativeEntries .. | shortRow ..
  | openList .. | doesNotFit .. | badNumeral .. | manyTruths | noTruths | unevenItems .. => .value
  | unexplained k => k
  | nestedTooDeep _ => .recursion
  | tooLarge => .overflow
  | badSizes => .argument
  | noSamples => .statistics
  | frozenField .. => .frozen
  | packageMissing .. | partMissing .. => .missing

/-- The lengths of a shape between parentheses, with a comma behind a single one. -/
def shapeText : List Nat → String
  | [d] => "(" ++ Text.decimal d ++ ",)"
  | ds => "(" ++ ", ".intercalate (ds.map Text.decimal) ++ ")"

def message? : Error → Option String
  | negativeAtom place v => some (place ++ " is a negative atom (" ++ Text.signedDecimal v ++ ")")
  | crashGiven place => some s!"{place} is a crash, not a noun"
  | crashStored place => some s!"{place} is a crash; crashes cannot be stored in a cell"
  | notNoun place t => some s!"{place} has unsupported noun type {t}"
  | noKind t => some s!"value of type {t} is not a noun"
  | tooFewNouns => some "cell() needs at least two nouns"
  | itemIsCell i => some s!"item {i} is a cell; only flat lists of atoms convert to arrays"
  | crashed message shown => some s!"{message}: {shown}"
  | tooDeep =>
    some "recursive engine exhausted the host stack; use engine='stack' for deep programs"
  | unfinished => some "stack engine ran out of steps"
  | notInteger place t => some s!"{place} has unsupported runtime type {t}"
  | negative place v =>
    some (place ++ " is negative (" ++ Text.signedDecimal v ++ "); atoms are non-negative")
  | shortSequence place n => some s!"{place} has {n} item(s); a cell needs at least two"
  | unknownEngine shown known =>
    some ("unknown engine " ++ shown ++ "; expected one of " ++ ", ".intercalate known)
  | unhashable t => some s!"unhashable type: '{t}'"
  | elementType place t => some s!"{place} must have an integer dtype, got {t}"
  | negativeEntries place => some s!"{place} has negative entries; atoms are non-negative"
  | shortRow place n =>
    some s!"{place} has {n} item(s); a tuple noun needs at least two (or use null_terminated=True)"
  | openList last => some ("list does not end in 0 (ends in " ++ Text.decimal last ++ ")")
  | doesNotFit i v t => some (s!"item {i} (" ++ Text.decimal v ++ s!") does not fit {t}")
  | unexplained _ => none
  | unordered sign left right =>
    some s!"'{sign}' not supported between instances of '{left}' and '{right}'"
  | nestedTooDeep compared =>
    some ("maximum recursion depth exceeded " ++
      if compared then "in comparison" else "while getting the repr of an object")
  | tooLarge => some "int too large to convert to float"
  | manyTruths =>
    some ("The truth value of an array with more than one element is ambiguous. " ++
      "Use a.any() or a.all()")
  | noTruths =>
    some ("The truth value of an empty array is ambiguous. " ++
      "Use `array.size > 0` to check that an array is not empty.")
  | unevenItems lengths =>
    some ("setting an array element with a sequence. The requested array has an inhomogeneous shape " ++
      s!"after {lengths.length} dimensions. The detected shape was " ++ shapeText lengths ++
      " + inhomogeneous part.")
  | badNumeral shown => some ("invalid literal for int() with base 10: " ++ shown)
  | badSizes => some "sizes must be a comma-separated list of positive integers"
  | noSamples => none
  | frozenField deleted field =>
    some ((if deleted then "cannot delete field " else "cannot assign to field ") ++ Text.quote field)
  | packageMissing f => some s!"jax is required for {f}(). Install runtime deps first."
  | partMissing name => some s!"import of {name} halted; None in sys.modules"

/-- Steps in a row give a value if none of them is refused. -/
theorem bind_eq_ok {ε α β : Type} {x : Except ε α} {f : α → Except ε β} {b : β} :
    (x >>= f) = .ok b ↔ ∃ a, x = .ok a ∧ f a = .ok b := by
  cases x with
  | error e =>
    constructor
    · intro h
      cases h
    · rintro ⟨a, ha, -⟩
      cases ha
  | ok a =>
    constructor
    · intro h
      exact ⟨a, rfl, h⟩
    · rintro ⟨a, ⟨rfl⟩, h⟩
      exact h

theorem bind_eq_error {ε α β : Type} {x : Except ε α} {f : α → Except ε β} {e : ε} :
    (x >>= f) = .error e ↔ x = .error e ∨ ∃ a, x = .ok a ∧ f a = .error e := by
  cases x with
  | error e' =>
    constructor
    · intro h
      cases h
      exact .inl rfl
    · rintro (h | ⟨a, ha, -⟩)
      · cases h
        rfl
      · cases ha
  | ok a =>
    constructor
    · exact fun h => .inr ⟨a, rfl, h⟩
    · rintro (h | ⟨a, ha, h⟩)
      · cases h
      · cases ha
        exact h

end Error

end Nock

import Nock.Error

/-!
# Parts that may be missing

The library is loaded part by part, and a caller may find some parts missing. Without one of its own
parts nothing loads, and the first one that is missing is named. Without the package that holds arrays,
only the conversions of arrays are refused, and only when they are called.
-/

namespace Nock

inductive Part where
  | library
  | axes
  | nouns
  | errors
  | evaluation
  | primitives
  | arrays
  /-- The package that holds arrays, or a part of it. -/
  | arrayPackage
deriving DecidableEq

/-- A part that is missing, with the name that the caller has for it. -/
structure MissingPart where
  part : Part
  name : String

namespace Part

/-- The library's own parts, in the order in which they load. -/
def own : List Part := [library, axes, nouns, errors, evaluation, primitives, arrays]

/-- Whether a function can be called with some parts missing. -/
def check (missing : List MissingPart) (function : String) (convertsArrays : Bool) : Except Error Unit :=
  match own.findSome? fun p => missing.find? (·.part = p) with
  | some m => .error (.partMissing m.name)
  | none =>
    if convertsArrays && missing.any (·.part = .arrayPackage) then .error (.packageMissing function)
    else .ok ()

end Part

end Nock

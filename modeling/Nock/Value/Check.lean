import Nock.Error
import Nock.Noun.Measure
import Nock.Value.Basic

/-!
# Values as nouns

A value that is to be a noun is checked, and refused with its place if it is none. Cells are built of
checked halves, the head first; a list of items is nested from its end, so the last two items are
checked before the ones in front of them, and each head before what stands behind it is complete.
-/

namespace Nock

inductive NounKind where
  | atom
  | cell
deriving DecidableEq, Repr

namespace Value

/-- The noun that a value is, to be stored in a cell. -/
def component (place : String) (v : Value) : Except Error Noun :=
  match v with
  | int i => if i < 0 then .error (.negativeAtom place i) else .ok (.atom i.toNat)
  | cell h t => .ok (.cell h t)
  | crash => .error (.crashStored place)
  | v => .error (.notNoun place v.typeName)

theorem component_ofNoun (place : String) (n : Noun) : (ofNoun n).component place = .ok n := by
  cases n with
  | atom a => simp [ofNoun, component]
  | cell h t => rfl

/-- The noun that a value is. -/
def asNoun (place : String) (v : Value) : Except Error Noun :=
  match v with
  | int i => if i < 0 then .error (.negativeAtom place i) else .ok (.atom i.toNat)
  | cell h t => .ok (.cell h t)
  | crash => .error (.crashGiven place)
  | v => .error (.notNoun place v.typeName)

theorem asNoun_ofNoun (place : String) (n : Noun) : (ofNoun n).asNoun place = .ok n := by
  cases n with
  | atom a => simp [ofNoun, asNoun]
  | cell h t => rfl

def nounKind (v : Value) : Except Error NounKind :=
  match v.toNoun? with
  | some (.atom _) => .ok .atom
  | some (.cell _ _) => .ok .cell
  | none => .error (.noKind v.typeName)

/-- The size, depth and leaves of a value that is a noun. -/
def measure (v : Value) : Except Error (NounKind × Measure) := do
  let kind ← v.nounKind
  return (kind, ((v.toNoun?.getD 0).measure))

def pair (head tail : Value) : Except Error Noun := do
  let h ← head.component "cell head"
  let t ← tail.component "cell tail"
  return .cell h t

theorem pair_ofNoun (h t : Noun) : pair (ofNoun h) (ofNoun t) = .ok (.cell h t) := by
  rw [pair, component_ofNoun, component_ofNoun]
  rfl

/-- Puts items, given from the last to the first, in front of a value. -/
def pairOnto (tail : Value) : List Value → Except Error Value
  | [] => .ok tail
  | item :: items => do
    let n ← pair item tail
    pairOnto (ofNoun n) items

/-- The right-nested cell of two or more values. -/
def nest (items : List Value) : Except Error Noun :=
  match items.reverse with
  | last :: before :: rest => do
    let v ← pairOnto last (before :: rest)
    v.component "cell tail"
  | _ => .error .tooFewNouns

theorem pairOnto_ofNoun (tail : Noun) (items : List Noun) :
    pairOnto (ofNoun tail) (items.map ofNoun) = .ok (ofNoun (items.foldl (fun t h => .cell h t) tail)) := by
  induction items generalizing tail with
  | nil => rfl
  | cons item items ih =>
    rw [List.map_cons, pairOnto, pair_ofNoun]
    exact ih (.cell item tail)

/-- Two or more values that are nouns make a cell; they are given from the last to the first. -/
theorem nest_ofNoun (last before : Noun) (items : List Noun) :
    nest ((last :: before :: items).reverse.map ofNoun) =
      .ok ((before :: items).foldl (fun t h => .cell h t) last) := by
  rw [List.map_reverse, nest, List.reverse_reverse]
  show (pairOnto (ofNoun last) ((before :: items).map ofNoun) >>= (·.component "cell tail")) = _
  rw [pairOnto_ofNoun]
  exact component_ofNoun _ _

end Value

end Nock

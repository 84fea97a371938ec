import Nock.Binary.Basic

/-!
# Sums of doubles

The sum of some numbers of the double format, rounded once. The numbers are added one by one to a list
of partial sums, and what a rounding cuts off stays behind as a partial sum of its own, so nothing is
lost on the way (`total_addPartial?`). Only a partial sum that is too large for the format stops the
addition. Infinities and what is no number are set apart, and make the sum what they make it.
-/

namespace Nock.Binary

/-- The number of the double format nearest to some least steps, in least steps, unless it is
infinite. -/
def roundSteps? (steps : Int) : Option Int := (ofSteps steps 1).steps?

def total (is : List Int) : Int := is.foldr (fun i s => i + s) 0

/-- Adds `x` to partial sums, the smallest first. -/
def addPartial? (x : Int) : List Int → Option (List Int)
  | [] => some [x]
  | y :: rest => do
    let sum ← roundSteps? (x + y)
    let sums ← addPartial? sum rest
    return if x + y = sum then sums else (x + y - sum) :: sums

theorem total_addPartial? {x : Int} {sums sums' : List Int} (h : addPartial? x sums = some sums') :
    total sums' = x + total sums := by
  induction sums generalizing x sums' with
  | nil => simp only [addPartial?, Option.some.injEq] at h; subst h; rfl
  | cons y rest ih =>
    simp only [addPartial?, Option.bind_eq_bind, Option.bind_eq_some_iff, Option.pure_def,
      Option.some.injEq] at h
    obtain ⟨sum, _, sums, hrest, rfl⟩ := h
    have := ih hrest
    simp only [total] at this ⊢
    split <;> simp only [List.foldr_cons] at * <;> omega

structure Adder where
  /-- The partial sums in least steps, the smallest first. -/
  sums : List Int := []
  /-- The numbers met that are not finite. -/
  special : List Binary := []

/-- Adds a number; `none` if a partial sum is too large. -/
def Adder.add (a : Adder) (x : Binary) : Option Adder :=
  match x.steps? with
  | some steps => (addPartial? steps a.sums).map fun sums => { a with sums := sums.filter (· ≠ 0) }
  | none => some { sums := [], special := x :: a.special }

inductive SumError where
  /-- A partial sum is too large. -/
  | overflow
  /-- Infinities of both signs are met. -/
  | opposed
deriving DecidableEq

def sum (xs : List Binary) : Except SumError Binary :=
  match xs.foldlM Adder.add {} with
  | none => .error .overflow
  | some ⟨sums, []⟩ => .ok (ofSteps (total sums) 1)
  | some ⟨_, special⟩ =>
    if special.contains (infinite true) && special.contains (infinite false) then .error .opposed
    else if special.contains nan then .ok nan else .ok (special.headD nan)

end Nock.Binary

import Nock.Binary.Basic
import Nock.Error

/-!
# Clocks

A clock tells how many nanoseconds each timed call takes. Its durations come over and over, and calls
that only warm up are not timed.
-/

namespace Nock.Timing

structure Clock where
  durations : List Int
  /-- How many calls have been timed. -/
  timed : Nat := 0

/-- Nanoseconds as milliseconds. -/
def milliseconds (nanoseconds : Int) : Except Error Binary :=
  match (Binary.ofInt .double nanoseconds).steps? with
  | some steps => .ok (.ofSteps steps 1000000)
  | none => .error .tooLarge

namespace Clock

/-- The next time, and the clock after it. -/
def next (c : Clock) : Except Error (Binary × Clock) := do
  let t ← milliseconds ((c.durations[c.timed % c.durations.length]?).getD 0)
  return (t, { c with timed := c.timed + 1 })

/-- The next times, behind those in `done`, which are reversed, and the clock after them. -/
def sampleOnto (c : Clock) (done : List Binary) : (count : Nat) → Except Error (List Binary × Clock)
  | 0 => .ok (done.reverse, c)
  | count + 1 => do
    let (t, c) ← c.next
    c.sampleOnto (t :: done) count

/-- The next times, and the clock after them. -/
def sample (c : Clock) (count : Nat) : Except Error (List Binary × Clock) := c.sampleOnto [] count

end Clock

/-- How often the timed function is called in all; a number below 0 counts as 0. -/
def calls (warmup samples : Int) : Nat := warmup.toNat + samples.toNat

end Nock.Timing

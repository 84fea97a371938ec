import Nock.Binary.Printer
import Nock.Timing.Clock
import Nock.Timing.Summary
import Nock.Timing.Workload

/-!
# Rows

The result of timing a workload of one size on one engine, and the table of such results: columns of
fixed width, with times in milliseconds to three places.
-/

namespace Nock.Timing

structure Row where
  workload : String
  engine : String
  size : Int
  status : String
  mean : Option Binary := none
  deviation : Option Binary := none
  median : Option Binary := none
  late : Option Binary := none

/-- How often a run is called. -/
structure Counts where
  /-- Calls that are not timed; `none` where no number is given. -/
  warmup : Option Int
  samples : Int

/-- An empty list stands where a number is compared. -/
def notNumber (sign : String) : Error := .unordered sign "list" "int"

namespace Row

/-- The row of a run that is good, with its times; there must be one. -/
def withTimes (row : Row) (times : List Binary) : Except Error Row := do
  let s ← Summary.ofTimes times
  return { row with
    mean := some s.mean, deviation := some s.deviation, median := some s.median, late := some s.late }

/-- Runs a workload once, and if that is good, times it. Only then is it looked at how often it is to
be called first. -/
def measure (bounds : Bounds) (clock : Clock) (w : Workload) (engine : String) (size : Int)
    (counts : Counts) : Except Error (Row × Clock) := do
  let status ← verdict bounds w engine size
  let row : Row := { workload := w.name, engine, size, status := status.text }
  if status = .ok then
    if counts.warmup.isNone then throw (notNumber ">")
    let (times, clock) ← clock.sample counts.samples.toNat
    let row ← row.withTimes times
    return (row, clock)
  else return (row, clock)

end Row

def padRight (width : Nat) (s : String) : String := s.pushn ' ' (width - s.length)

def padLeft (width : Nat) (s : String) : String := "".pushn ' ' (width - s.length) ++ s

def line (engine size status mean late : String) : String :=
  " ".intercalate
    [padRight 10 engine, padLeft 8 size, padRight 16 status, padLeft 10 mean, padLeft 10 late]

def header : String := line "engine" "size" "status" "mean ms" "p95 ms"

/-- A time in a table; a dash stands for none. -/
def cellText (t : Option Binary) : String := t.elim "-" (·.fixed 3)

def Row.line (r : Row) : String :=
  Timing.line r.engine (toString r.size) r.status (cellText r.mean) (cellText r.late)

def table (rows : List Row) : List String := header :: rows.map Row.line

end Nock.Timing

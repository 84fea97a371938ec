import Nock.Timing.CommandLine
import Nock.Timing.OutputPath
import Nock.Timing.Row

/-!
# Timing sessions

A session times every workload at every size on every engine. It prints a table for each workload,
with a title in front and an empty line behind, and last where its results are written.
-/

namespace Nock.Timing

def commandName : String := "loop_benchmarks.py"

/-- What a session leaves. -/
structure Session where
  lines : List String
  rows : List Row
  clock : Clock

/-- Times a workload at all sizes on all engines, the engines in turn at each size. -/
def measureAll (bounds : Bounds) (w : Workload) (counts : Counts) :
    List (Int × Engine) → Clock → Except Error (List Row × Clock)
  | [], clock => .ok ([], clock)
  | (size, e) :: rest, clock => do
    let (row, clock) ← Row.measure bounds clock w e.name size counts
    let (rows, clock) ← measureAll bounds w counts rest clock
    return (row :: rows, clock)

/-- The sizes and engines that a workload is timed at. -/
def Options.runs (o : Options) : List (Int × Engine) :=
  o.sizes.flatMap fun size => Engine.all.map fun e => (size, e)

/-- Adds a workload to a session. -/
def Session.add (s : Session) (bounds : Bounds) (o : Options) (counts : Counts) (w : Workload) :
    Except Error Session := do
  let (rows, clock) ← measureAll bounds w counts o.runs s.clock
  return ⟨s.lines ++ ["== " ++ w.name ++ ": " ++ w.note] ++ table rows ++ [""], s.rows ++ rows, clock⟩

/-- Where the results of a session are written, if they are. -/
def Options.path? (o : Options) : Option String :=
  if o.jsonOut.isEmpty then none else some (OutputPath.clean o.jsonOut)

/-- How often each run is called. The number of samples has to be one. -/
def Options.counts (o : Options) : Except Error Counts :=
  match o.samples with
  | some samples => .ok ⟨o.warmup, samples⟩
  | none => .error (notNumber "<")

def Session.run (bounds : Bounds) (clock : Clock) (o : Options) : Except Error Session := do
  let counts ← o.counts
  let s ← Workload.all.foldlM (fun s w => s.add bounds o counts w) (⟨[], [], clock⟩ : Session)
  match o.path? with
  | some path =>
    match OutputPath.refusal? o.jsonOut with
    | some kind => throw (.unexplained kind)
    | none => return { s with lines := s.lines ++ ["Wrote JSON benchmark output: " ++ path] }
  | none => return s

end Nock.Timing

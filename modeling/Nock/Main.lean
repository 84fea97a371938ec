import Nock.Timing.Payload

/-!
# The timing command

Reads the command line, times the runs that are good with the clock of the host, and hands the times to
the session as the durations of its clock.
-/

namespace Nock.Timing

def timeOnce (e : Engine) (pair : Noun) : IO Int := do
  let start ← IO.monoNanosNow
  let _ ← IO.lazyPure fun _ => e.reducePair {} false pair
  let stop ← IO.monoNanosNow
  return (stop : Int) - start

/-- Times a workload as often as asked for, if its first run is good. -/
def timeRun (o : Options) (w : Workload) (size : Int) (e : Engine) : IO (List Int) := do
  match verdict {} w e.name size, w.pair size with
  | .ok .ok, .ok pair =>
    for _ in List.range (o.warmup.getD 0).toNat do
      let _ ← timeOnce e pair
    (List.range (o.samples.getD 0).toNat).mapM fun _ => timeOnce e pair
  | _, _ => return []

/-- Times all runs, in the order in which the session asks for them. -/
def timeAll (o : Options) : IO (List Int) := do
  let times ← Workload.all.mapM fun w => o.runs.mapM fun (size, e) => timeRun o w size e
  return times.flatten.flatten

def usage : String :=
  "usage: " ++ commandName ++ " [-h] [--sizes SIZES] [--samples SAMPLES] [--warmup WARMUP] " ++
    "[--json-out JSON_OUT]"

def host : Json :=
  .fields (hostKeys.map fun k =>
    (k, if k = "recursion_limit" then .int ({} : Bounds).nesting else .null))

def writeText (path text : String) : IO Unit := do
  let folders := (path.splitOn "/").dropLast
  if !folders.isEmpty then
    let above := "/".intercalate folders
    IO.FS.createDirAll (if above.isEmpty then "/" else above)
  IO.FS.writeFile path text

def runSession (o : Options) : IO UInt32 := do
  let durations ← timeAll o
  match Session.run {} { durations } o with
  | .error e =>
    IO.eprintln (e.message?.getD "no results")
    return 1
  | .ok s =>
    if let some path := o.path? then
      writeText path ((s.toJson o host).render 0)
    for line in s.lines do
      IO.println line
    return 0

end Nock.Timing

open Nock.Timing in
def main (args : List String) : IO UInt32 := do
  match Options.ofWords args with
  | .ok o => runSession o
  | .error e =>
    match e.message? with
    | none =>
      IO.println usage
      return 0
    | some m =>
      IO.eprintln usage
      IO.eprintln (commandName ++ ": error: " ++ m)
      return 2

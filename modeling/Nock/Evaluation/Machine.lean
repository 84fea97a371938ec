import Nock.Axis
import Nock.Evaluation.Instruction
import Nock.Primitive

/-!
# The stack engine

A machine that reduces a subject and a formula with its own list of frames. A frame waits for one
noun and holds what is to be done with it. The machine is either about to reduce a formula, or about
to feed a noun to its frames, or halted.

`step` is total and leaves a halted machine alone; `run` iterates it. A formula in tail position
takes the place of the one that ends, so it finds the frames that this one found: loops written with
opcode 9 run in bounded space. A crash halts the machine at once, whatever frames are pending.
-/

namespace Nock.Machine

/-- Work that waits for a noun. -/
inductive Frame where
  /-- For the new subject; `formula` makes the new formula from the old subject. -/
  | reduceSubject (subject formula : Noun)
  /-- For the new formula. -/
  | reduceFormula (newSubject : Noun)
  | cellTest
  | increment
  | equalLeft (subject right : Noun)
  | equalRight (left : Noun)
  | branch (subject yes no : Noun)
  | compose (second : Noun)
  | push (subject second : Noun)
  /-- For the core. -/
  | invoke (axis : Noun)
  | editValue (subject axis tree : Noun)
  | editTree (axis value : Noun)
  | hintProduct (subject formula : Noun)
  | hintPair (hint : Noun)
deriving DecidableEq

inductive Control where
  | reduce (subject formula : Noun) (frames : List Frame)
  | feed (value : Noun) (frames : List Frame)
  | halt (result : Option Noun)
deriving DecidableEq

structure State where
  control : Control
  log : Log
deriving DecidableEq

variable (keep : Bool)

def crash (log : Log) (r : Report) : State := ⟨.halt none, log.note keep r⟩

/-- Feeds a noun to the frames if there is one, and crashes if there is none. -/
def feedOr (r : Report) (frames : List Frame) (log : Log) : Option Noun → State
  | some v => ⟨.feed v frames, log⟩
  | none => crash keep log r

def start (s : Noun) (frames : List Frame) (log : Log) : Instruction → State
  | .lookup axis => feedOr keep (.axisMissing axis) frames log (axis.findAt? s)
  | .quote value => ⟨.feed value frames, log⟩
  | .reduce b c => ⟨.reduce s b (.reduceSubject s c :: frames), log⟩
  | .cellTest b => ⟨.reduce s b (.cellTest :: frames), log⟩
  | .increment b => ⟨.reduce s b (.increment :: frames), log⟩
  | .equal b c => ⟨.reduce s b (.equalLeft s c :: frames), log⟩
  | .branch b c d => ⟨.reduce s b (.branch s c d :: frames), log⟩
  | .compose b c => ⟨.reduce s b (.compose c :: frames), log⟩
  | .push b c => ⟨.reduce s b (.push s c :: frames), log⟩
  | .invoke axis c => ⟨.reduce s c (.invoke axis :: frames), log⟩
  | .edit axis c d => ⟨.reduce s c (.editValue s axis d :: frames), log⟩
  | .staticHint c => ⟨.reduce s c frames, log⟩
  | .dynamicHint c d => ⟨.reduce s c (.hintProduct s d :: frames), log⟩

/-- Hands a noun to the frame that waits for it. -/
def resume (v : Noun) (frames : List Frame) (log : Log) : Frame → State
  | .reduceSubject s c => ⟨.reduce s c (.reduceFormula v :: frames), log⟩
  | .reduceFormula x => ⟨.reduce x v frames, log⟩
  | .cellTest => ⟨.feed v.cellTest frames, log⟩
  | .increment => feedOr keep .notIncrementable frames log v.increment?
  | .equalLeft s c => ⟨.reduce s c (.equalRight v :: frames), log⟩
  | .equalRight u => ⟨.feed (u.equalTest v) frames, log⟩
  | .branch s c d =>
    match v with
    | .atom 0 => ⟨.reduce s c frames, log⟩
    | .atom 1 => ⟨.reduce s d frames, log⟩
    | _ => crash keep log (.badTest v)
  | .compose c => ⟨.reduce v c frames, log⟩
  | .push s c => ⟨.reduce (.cell v s) c frames, log⟩
  | .invoke axis =>
    match axis.findAt? v with
    | some arm => ⟨.reduce v arm frames, log⟩
    | none => crash keep log (.armMissing axis)
  | .editValue s axis d => ⟨.reduce s d (.editTree axis v :: frames), log⟩
  | .editTree axis u => feedOr keep (.notEditable axis) frames log (axis.replaceAt? u v)
  | .hintProduct s d => ⟨.reduce s d (.hintPair v :: frames), log⟩
  | .hintPair u => ⟨.reduce (.cell u v) tailFormula frames, log⟩

/-- One step; a halted machine stays as it is. -/
def step (st : State) : State :=
  match st.control with
  | .halt _ => st
  | .feed v [] => ⟨.halt (some v), st.log⟩
  | .feed v (k :: frames) => resume keep v frames st.log k
  | .reduce s f frames =>
    match Instruction.decode f with
    | .ok i => start keep s frames st.log i
    | .error r => crash keep st.log r

def run : (fuel : Nat) → State → State
  | 0, st => st
  | fuel + 1, st =>
    match st.control with
    | .halt _ => st
    | _ => run fuel (step keep st)

/-- The machine that is about to reduce a formula, with nothing else to do. -/
def initial (subject formula : Noun) : State := ⟨.reduce subject formula [], []⟩

end Nock.Machine

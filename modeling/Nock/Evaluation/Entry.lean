import Nock.Evaluation.Engine
import Nock.Evaluation.Settings
import Nock.Value.Check
import Nock.Value.Convert
import Nock.Value.Equal
import Nock.Value.Printer

/-!
# Evaluating values

The ways in: reduce a pair of a subject and a formula, with a crash as a result or as an error, or
convert a subject and a formula first. The name of the engine is settled before the pair is looked at.
-/

namespace Nock

/-- What an evaluation gives: a noun, a crash (`none`) or an error, and the reports that were kept. -/
structure Answer where
  result : Except Error (Option Noun)
  log : Log

/-- The engine that a value names; null names the one of the settings. -/
def Engine.ofValue (settings : Settings) (v : Value) : Except Error Engine :=
  let unknown (shown : String) := Error.unknownEngine shown (Engine.all.map Engine.name)
  let named (name : String) : Except Error Engine :=
    match Engine.ofName? name with
    | some e => .ok e
    | none => .error (unknown (Text.quote name))
  match v with
  | .null => named settings.engine
  | .text name => named name
  | v =>
    match v.unhashable? with
    | some t => .error (.unhashable t)
    | none => .error (unknown v.display)

def Outcome.toAnswer (o : Outcome) : Answer :=
  match o.ending with
  | .product n => ⟨.ok (some n), o.log⟩
  | .crash => ⟨.ok none, o.log⟩
  | .tooDeep => ⟨.error .tooDeep, o.log⟩
  | .unfinished => ⟨.error .unfinished, o.log⟩

/-- Reduces a noun as a pair of a subject and a formula; an atom is none and crashes. -/
def Engine.reducePair (e : Engine) (bounds : Bounds) (keep : Bool) : Noun → Outcome
  | .cell subject formula => e.reduce bounds keep subject formula
  | .atom _ => .crash keep .atomPair

/-- Reduces a pair; a crash is a result. -/
def nock (settings : Settings) (bounds : Bounds) (engine pair : Value) : Answer :=
  match Engine.ofValue settings engine, pair.asNoun "pair" with
  | .error e, _ => ⟨.error e, []⟩
  | .ok _, .error e => ⟨.error e, []⟩
  | .ok e, .ok n => (e.reducePair bounds settings.keepReports n).toAnswer

def crashMessage : String := "evaluation crashed"

/-- Reduces a pair; a crash is an error. -/
def nockOrError (settings : Settings) (bounds : Bounds) (engine pair : Value) : Answer :=
  let a := nock settings bounds engine pair
  match a.result with
  | .ok none => { a with result := .error (.crashed crashMessage pair.display) }
  | _ => a

def evaluate (settings : Settings) (bounds : Bounds) (engine subject formula : Value) : Answer :=
  match subject.toNoun "subject", formula.toNoun "formula" with
  | .error e, _ => ⟨.error e, []⟩
  | .ok _, .error e => ⟨.error e, []⟩
  | .ok s, .ok f => nock settings bounds engine (.cell s f)

end Nock

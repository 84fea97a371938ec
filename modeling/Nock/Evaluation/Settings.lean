import Nock.Text.Blank
import Nock.Text.Case

/-!
# Settings

The engine that is used when none is named, and whether crash reports are kept. Both are read from
texts that may be missing. The engine's name is taken without blanks around it and in lower case; that
it is a name of an engine is seen when it is used.
-/

namespace Nock

structure Settings where
  engine : String := "stack"
  keepReports : Bool := false
deriving DecidableEq

/-- Reads the settings. Only the text `1` turns reports on. -/
def Settings.ofTexts (engine reports : Option String) : Settings where
  engine :=
    match Text.lower (Text.strip (engine.getD "")) with
    | "" => "stack"
    | name => name
  keepReports := reports == some "1"

end Nock

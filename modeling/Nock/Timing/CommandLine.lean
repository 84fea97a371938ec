import Nock.Timing.Sizes

/-!
# The command line

Options begin with two dashes and take one argument, behind an equals sign or as the next word. The
first letters of an option stand for it as long as no other option begins with them. All words are
sorted before any option takes its argument: a word is an option, something that looks like one and is
unknown, or an argument. A negative number is an argument, as is a word with a blank in it that begins
like no option, and so is every word behind a bare `--`.
-/

namespace Nock.Timing

inductive Opt where
  | help
  | sizes
  | samples
  | warmup
  | jsonOut
deriving DecidableEq

namespace Opt

/-- The ways to write an option. -/
def spellings : List (String × Opt) :=
  [("-h", help), ("--help", help), ("--sizes", sizes), ("--samples", samples), ("--warmup", warmup),
    ("--json-out", jsonOut)]

def label : Opt → String
  | help => "-h/--help"
  | sizes => "--sizes"
  | samples => "--samples"
  | warmup => "--warmup"
  | jsonOut => "--json-out"

end Opt

/-- What is asked for. An option whose argument is a bare `--`, behind an equals sign, is empty: it has
no sizes, no number, no place for results. -/
structure Options where
  sizes : List Int := [100, 1000, 10000]
  samples : Option Int := some 5
  warmup : Option Int := some 1
  /-- Where results are written; nowhere if empty. -/
  jsonOut : String := ""

/-- Why a command line is refused, or not run. -/
inductive UsageError where
  | helpWanted
  | ambiguous (word : String) (spellings : List String)
  | noArgument (opt : Opt)
  | strayArgument (opt : Opt) (argument : String)
  | badInteger (opt : Opt) (argument : String)
  | unreadSizes (argument : String)
  | badSizes
  | unknownWords (words : List String)
  | tooFewSamples

namespace UsageError

def ofArgument (opt : Opt) (message : String) : String := "argument " ++ opt.label ++ ": " ++ message

def message? : UsageError → Option String
  | helpWanted => none
  | ambiguous word ss =>
    some ("ambiguous option: " ++ word ++ " could match " ++ ", ".intercalate ss)
  | noArgument opt => some (ofArgument opt "expected one argument")
  | strayArgument opt a => some (ofArgument opt ("ignored explicit argument " ++ Text.quote a))
  | badInteger opt a => some (ofArgument opt ("invalid int value: " ++ Text.quote a))
  | unreadSizes a => some (ofArgument .sizes ("invalid _parse_sizes value: " ++ Text.quote a))
  | badSizes => Error.badSizes.message?.map (ofArgument .sizes)
  | unknownWords ws => some ("unrecognized arguments: " ++ " ".intercalate ws)
  | tooFewSamples => some "--samples must be at least 1"

end UsageError

/-- What a word of a command line is. -/
inductive Word where
  | argument (text : String)
  | option (opt : Opt) (spelling : String) (value : Option String)
  | unknown (text : String)
  /-- A bare `--`. -/
  | divider

namespace Word

/-- The part in front of the first equals sign, and the part behind it. -/
def splitEquals (cs : List Char) : String × Option String :=
  match cs.dropWhile (· != '=') with
  | [] => (String.ofList cs, none)
  | _ :: value => (String.ofList (cs.takeWhile (· != '=')), some (String.ofList value))

/-- Digits, or digits behind a point with or without digits in front. -/
def isUnsigned (cs : List Char) : Bool :=
  let digit (c : Char) := (Text.digitValue? c).isSome
  let rest := cs.dropWhile digit
  match rest with
  | [] => !cs.isEmpty
  | c :: places => c == '.' && !places.isEmpty && places.all digit

def isNegativeNumber : List Char → Bool
  | '-' :: cs => isUnsigned (if cs.getLast? = some '\n' then cs.dropLast else cs)
  | _ => false

/-- The options that a word may stand for, each with its spelling and value. -/
def candidates (cs : List Char) : List (Opt × String × Option String) :=
  match cs with
  | '-' :: '-' :: _ =>
    let (front, value) := splitEquals cs
    Opt.spellings.filterMap fun (s, opt) =>
      if front.toList.isPrefixOf s.toList then some (opt, s, value) else none
  | '-' :: c :: more =>
    Opt.spellings.filterMap fun (s, opt) =>
      if s = String.ofList ['-', c] then some (opt, s, some (String.ofList more))
      else if cs.isPrefixOf s.toList then some (opt, s, none)
      else none
  | _ => []

/-- Sorts a word that is not behind a divider. -/
def ofText (text : String) : Except UsageError Word :=
  let cs := text.toList
  let (front, value) := splitEquals cs
  match cs with
  | '-' :: _ :: _ =>
    match Opt.spellings.lookup text, value, Opt.spellings.lookup front with
    | some opt, _, _ => .ok (.option opt text none)
    | none, some v, some opt => .ok (.option opt front (some v))
    | none, _, _ =>
      match candidates cs with
      | [(opt, spelling, value)] => .ok (.option opt spelling value)
      | [] =>
        if isNegativeNumber cs || cs.contains ' ' then .ok (.argument text) else .ok (.unknown text)
      | several => .error (.ambiguous text (several.map fun (_, s, _) => s))
  | _ => .ok (.argument text)

/-- Sorts the words of a command line. -/
def ofTexts : List String → Except UsageError (List Word)
  | [] => .ok []
  | "--" :: rest => .ok (.divider :: rest.map .argument)
  | text :: rest => do
    let w ← ofText text
    let ws ← ofTexts rest
    return w :: ws

end Word

namespace Options

def integer (opt : Opt) (argument : String) : Except UsageError Int :=
  match Text.readInt? argument.toList with
  | some i => .ok i
  | none => .error (.badInteger opt argument)

def set (o : Options) (opt : Opt) (argument : String) : Except UsageError Options :=
  match opt with
  | .help => .error .helpWanted
  | .sizes =>
    match readSizes argument with
    | .ok sizes => .ok { o with sizes }
    | .error .badSizes => .error .badSizes
    | .error _ => .error (.unreadSizes argument)
  | .samples => return { o with samples := some (← integer opt argument) }
  | .warmup => return { o with warmup := some (← integer opt argument) }
  | .jsonOut => .ok { o with jsonOut := argument }

def clear (o : Options) : Opt → Options
  | .help => o
  | .sizes => { o with sizes := [] }
  | .samples => { o with samples := none }
  | .warmup => { o with warmup := none }
  | .jsonOut => { o with jsonOut := "" }

/-- Why a word is refused that asks for help and has an argument. Letters behind `-h` are further
options without an argument, and only `h` is one. -/
def helpError (spelling argument : String) : UsageError :=
  if spelling = "-h" && !argument.isEmpty then
    match argument.toList.dropWhile (· == 'h') with
    | [] => .helpWanted
    | rest => .strayArgument .help (String.ofList rest)
  else .strayArgument .help argument

/-- Takes the options off the sorted words, and leaves the words that belong to none, the last first. -/
def takeWords (o : Options) (left : List String) : List Word → Except UsageError (Options × List String)
  | [] => .ok (o, left)
  | .argument text :: rest => takeWords o (text :: left) rest
  | .unknown text :: rest => takeWords o (text :: left) rest
  | .divider :: rest => takeWords o ("--" :: left) rest
  | .option .help _ none :: _ => .error .helpWanted
  | .option .help spelling (some value) :: _ => .error (helpError spelling value)
  | .option opt _ (some value) :: rest => do
    let o ← if value = "--" then .ok (o.clear opt) else o.set opt value
    takeWords o left rest
  | .option opt _ none :: .argument text :: rest => do
    let o ← o.set opt text
    takeWords o left rest
  | .option opt _ none :: _ => .error (.noArgument opt)

def ofWords (texts : List String) : Except UsageError Options := do
  let words ← Word.ofTexts texts
  let (o, left) ← takeWords {} [] words
  if !left.isEmpty then throw (.unknownWords left.reverse)
  if o.samples.any (· < 1) then throw .tooFewSamples
  return o

end Options

end Nock.Timing

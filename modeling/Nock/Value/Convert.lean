import Nock.Value.Check

/-!
# Conversion between values and nouns

`Value.toNoun` makes a noun of nested data: whole numbers and integer elements of a byte or more become
atoms, a list or tuple of two or more items becomes the right-nested cell of its items, and a cell stays as
it is. The items are converted from left to right, and the first that does not convert is reported
with the indices that lead to it; a sequence that is too short is reported before its items.

Data may be nested deeper than a call stack allows, so the conversion keeps its own list of sequences
that are open; when the last item of one is done, its nouns are checked like those of any new cell.
`Value.toPairs` goes the other way, to nested pairs, with its own lists as well.
-/

namespace Nock.Value

theorem sizeOf_items {v : Value} {items : List Value} (h : v.items? = some items) :
    sizeOf items < sizeOf v := by
  cases v <;> simp_all [items?]

/-- The noun for a value that is no sequence, or else why there is none, given the place. -/
def leafNoun (v : Value) : Except (String → Error) Noun :=
  let ofInt (i : Int) : Except (String → Error) Noun :=
    if i < 0 then .error (.negative · i) else .ok (.atom i.toNat)
  match v with
  | cell h t => .ok (.cell h t)
  | int i => ofInt i
  | scalar (.whole t i) =>
    if t.isInteger && !t.isSmall then ofInt i else .error (.notInteger · t.name)
  | v => .error (.notInteger · v.typeName)

/-- The place of what a path leads to; a path holds its last index first. -/
def placeAt (place : String) (path : List Nat) : String :=
  path.foldr (fun i s => s ++ "[" ++ toString i ++ "]") place

/-- A sequence that is being converted: the path to it, the index of the item under way, the nouns of
the items before, the last first, and the items that follow. -/
structure OpenSequence where
  path : List Nat
  index : Nat
  done : List Noun
  rest : List Value

/-- What is to be done next: convert a value, or hand a noun to the innermost open sequence. -/
inductive Task where
  | convert (v : Value)
  | give (n : Noun)

/-- The path to what the innermost open sequence has under way. -/
def currentPath : List OpenSequence → List Nat
  | [] => []
  | o :: _ => o.index :: o.path

/-- The work that is left: twice the size of all data, and one for each sequence to be closed and for
the value to be converted next. -/
noncomputable def taskWeight (task : Task) (opened : List OpenSequence) : Nat :=
  (match task with | .convert v => 2 * sizeOf v + 1 | .give _ => 0) +
    opened.foldr (fun o n => 1 + 2 * sizeOf o.rest + n) 0

/-- Works until the outermost sequence is complete. -/
def convertLoop (place : String) : Task → List OpenSequence → Except Error Noun
  | .convert v, opened =>
    match h : v.items? with
    | some (item :: next :: rest) =>
      have := sizeOf_items h
      convertLoop place (.convert item) (⟨currentPath opened, 0, [], next :: rest⟩ :: opened)
    | some short => .error (.shortSequence (placeAt place (currentPath opened)) short.length)
    | none =>
      match leafNoun v with
      | .ok n => convertLoop place (.give n) opened
      | .error e => .error (e (placeAt place (currentPath opened)))
  | .give n, [] => .ok n
  | .give n, ⟨_, _, done, []⟩ :: opened =>
    match nest ((n :: done).reverse.map ofNoun) with
    | .ok built => convertLoop place (.give built) opened
    | .error e => .error e
  | .give n, ⟨path, index, done, item :: rest⟩ :: opened =>
    convertLoop place (.convert item) (⟨path, index + 1, n :: done, rest⟩ :: opened)
termination_by task opened => taskWeight task opened
decreasing_by
  · simp [taskWeight] at *; omega
  · simp [taskWeight]
  · simp [taskWeight]
  · simp [taskWeight]; omega

def toNoun (place : String) (v : Value) : Except Error Noun := convertLoop place (.convert v) []

/-- Pending work of taking nouns apart: a noun, or joining the last two results. -/
inductive PairTask where
  | visit (n : Noun)
  | join

/-- Takes the pending nouns apart. `results` holds finished values, the last first; a join that does not
find two of them fails. -/
def pairLoop? : List PairTask → (results : List Value) → Option (List Value)
  | [], results => some results
  | .visit (.atom n) :: tasks, results => pairLoop? tasks (int n :: results)
  | .visit (.cell h t) :: tasks, results =>
    pairLoop? (.visit h :: .visit t :: .join :: tasks) results
  | .join :: tasks, t :: h :: results => pairLoop? tasks (tuple [h, t] :: results)
  | .join :: _, _ => none
termination_by tasks =>
  tasks.foldr (fun task n => (match task with | .visit m => 2 * m.size | .join => 1) + n) 0
decreasing_by all_goals (simp; try omega)

/-- The nested pairs of a noun, the first result of taking it apart; an atom is a whole number. -/
def pairs (n : Noun) : Value := ((pairLoop? [.visit n] []).bind List.getLast?).getD (int 0)

/-- The nested pairs of a cell; all else stays as it is. -/
def toPairs : Value → Value
  | cell h t => pairs (.cell h t)
  | v => v

end Nock.Value

import Nock.Evaluation.Table
import Nock.Proofs.Axis
import Nock.Proofs.CrashLog
import Nock.Proofs.Machine.Simulation

/-!
# The engines obey the table

Terms of the table are given a meaning in the recursive engine's own terms (`Term.denote`). Whatever a
term denotes is derivable in the table if that holds of the reductions in it (`evaluates_of_denote`),
and the unbounded engine is the denotation of its rows (`reduceUnbounded_eq_denote`), so it obeys the
table in both directions. Only opcode 9 is not the row itself: the engine looks the arm up where the row
reduces a formula that does so.
-/

namespace Nock

open Noun (reduceUnbounded)

/-- A formula of the instruction; the parts of a hint that are passed over are 0. -/
def Instruction.formula : Instruction → Noun
  | lookup axis => .cell (.atom 0) axis
  | quote value => .cell (.atom 1) value
  | reduce b c => .cell (.atom 2) (.cell b c)
  | cellTest b => .cell (.atom 3) b
  | increment b => .cell (.atom 4) b
  | equal b c => .cell (.atom 5) (.cell b c)
  | branch b c d => .cell (.atom 6) (.cell b (.cell c d))
  | compose b c => .cell (.atom 7) (.cell b c)
  | push b c => .cell (.atom 8) (.cell b c)
  | invoke axis c => .cell (.atom 9) (.cell axis c)
  | edit axis c d => .cell (.atom 10) (.cell (.cell axis c) d)
  | staticHint c => .cell (.atom 11) (.cell (.atom 0) c)
  | dynamicHint c d => .cell (.atom 11) (.cell (.cell (.atom 0) c) d)

theorem Noun.equalTest_self (a : Noun) : a.equalTest a = 0 := by
  rw [equalTest_eq, if_pos rfl]

theorem Noun.equalTest_of_ne {a b : Noun} (h : a ≠ b) : a.equalTest b = 1 := by
  rw [equalTest_eq, if_neg h]

namespace Table

/-- The operator as a function. -/
def Operator.value : Operator → Noun → Option Noun
  | isCell, x => some x.cellTest
  | inc, x => x.increment?
  | isEq, .cell a b => some (a.equalTest b)
  | isEq, .atom _ => none
  | findAt axis, t => axis.findAt? t
  | replaceAt axis, .cell v t => axis.replaceAt? v t
  | replaceAt _, .atom _ => none

theorem Operator.gives_iff {op : Operator} {x : Noun} {r : Option Noun} :
    op.Gives x r ↔ op.value x = r := by
  constructor
  · intro h
    cases h with
    | isEq_same => rw [value, Noun.equalTest_self]
    | isEq_other hne => rw [value, Noun.equalTest_of_ne hne]
    | findAt h => exact Noun.findAt?_eq_some_iff.2 h
    | findAt_none h => exact Noun.findAt?_eq_none_iff.2 h
    | replaceAt h => exact Noun.replaceAt?_eq_some_iff.2 h
    | replaceAt_none h => exact Noun.replaceAt?_eq_none_iff.2 h
    | _ => rfl
  · rintro rfl
    cases op with
    | isCell => cases x <;> constructor
    | inc => cases x <;> constructor
    | isEq =>
      cases x with
      | atom n => exact .isEq_atom
      | cell a b =>
        by_cases h : a = b
        · rw [h, value, Noun.equalTest_self]
          exact .isEq_same
        · rw [value, Noun.equalTest_of_ne h]
          exact .isEq_other h
    | findAt axis =>
      cases h : axis.findAt? x with
      | some u => rw [value, h]; exact .findAt (Noun.findAt?_eq_some_iff.1 h)
      | none => rw [value, h]; exact .findAt_none (Noun.findAt?_eq_none_iff.1 h)
    | replaceAt axis =>
      cases x with
      | atom n => exact .replaceAt_atom
      | cell v t =>
        cases h : axis.replaceAt? v t with
        | some u => rw [value, h]; exact .replaceAt (Noun.replaceAt?_eq_some_iff.1 h)
        | none => rw [value, h]; exact .replaceAt_none (Noun.replaceAt?_eq_none_iff.1 h)

/-- The meaning of a term, where `call` reduces; reports are not kept. -/
def Term.denote (call : Noun → Noun → Run Noun) : Term → Run Noun
  | noun n => return n
  | cell h t => do
    let x ← h.denote call
    let y ← t.denote call
    return .cell x y
  | nock p => do
    match ← p.denote call with
    | .cell s f => call s f
    | .atom _ => failure
  | apply op t => do
    let x ← t.denote call
    OptionT.mk (return op.value x)
  | choose test yes no => do
    match ← test.denote call with
    | .atom 0 => yes.denote call
    | .atom 1 => no.denote call
    | _ => failure
  | crash => failure

theorem row_of_decode_error {s f : Noun} {r : Report} (h : Instruction.decode f = .error r) :
    row s f = .crash := by
  unfold row
  split
  case h_14 => rfl
  all_goals cases h

/-- Formulas of the same instruction have the same row. -/
theorem row_of_decode_ok {s f : Noun} {i : Instruction} (h : Instruction.decode f = .ok i) :
    row s f = row s i.formula := by
  unfold Instruction.decode at h
  split at h
  · cases h
  · unfold Instruction.ofParts at h
    split at h <;> cases h <;> rfl
  · cases h

theorem reduces_iff {s f : Noun} {r : Option Noun} : Reduces s f r ↔ Evaluates (row s f) r := by
  constructor
  · intro h
    cases h with
    | nock hp hrow => cases hp; exact hrow
    | nockAtom hp => cases hp
    | nockCrash hp => cases hp
  · exact .nock .noun

variable {call : Noun → Noun → Run Noun} {t : Term} {s f : Noun} {log l : Log} {r : Option Noun}

/-- What a term denotes is derivable if this holds of all that it reduces. -/
theorem evaluates_of_denote
    (hcall : ∀ s f log r l, call s f log = some (r, l) → Reduces s f r)
    (h : t.denote call log = some (r, l)) : Evaluates t r := by
  induction t generalizing log r l with
  | noun n => cases h; exact .noun
  | crash => cases h; exact .crash
  | cell a b iha ihb =>
    rcases Run.bind_eq_some.1 h with ⟨x, l₁, hx, h⟩ | ⟨rfl, hx⟩
    · rcases Run.bind_eq_some.1 h with ⟨y, l₂, hy, h⟩ | ⟨rfl, hy⟩
      · cases h; exact .cell (iha hx) (ihb hy)
      · exact .cellTail (iha hx) (ihb hy)
    · exact .cellHead (iha hx)
  | nock p ih =>
    rcases Run.bind_eq_some.1 h with ⟨x, l₁, hx, h⟩ | ⟨rfl, hx⟩
    · cases x with
      | cell s f => exact .nock (ih hx) (reduces_iff.1 (hcall s f _ _ _ h))
      | atom n => cases h; exact .nockAtom (ih hx)
    · exact .nockCrash (ih hx)
  | apply op a ih =>
    rcases Run.bind_eq_some.1 h with ⟨x, l₁, hx, h⟩ | ⟨rfl, hx⟩
    · cases h; exact .apply (ih hx) (Operator.gives_iff.2 rfl)
    · exact .applyCrash (ih hx)
  | choose test yes no iht ihy ihn =>
    rcases Run.bind_eq_some.1 h with ⟨x, l₁, hx, h⟩ | ⟨rfl, hx⟩
    · split at h
      · exact .chooseYes (iht hx) (ihy h)
      · exact .chooseNo (iht hx) (ihn h)
      · next h₀ h₁ => cases h; exact .chooseOther (iht hx) h₀ h₁
    · exact .chooseCrash (iht hx)

theorem ofOption_false (r : Report) :
    ∀ v? : Option Noun, (Run.scheme false).ofOption r v? = OptionT.mk (return v?)
  | some _ => rfl
  | none => rfl

/-- An evaluation is the row of its formula, unless it looks an arm up. -/
theorem rule_eq_denote (h : ∀ axis c, Instruction.decode f ≠ .ok (.invoke axis c)) :
    (Run.scheme false).rule call s f = (row s f).denote call := by
  unfold Scheme.rule
  cases hdec : Instruction.decode f with
  | error r => rw [row_of_decode_error hdec]; rfl
  | ok i =>
    rw [row_of_decode_ok hdec]
    cases i with
    | lookup axis => exact ofOption_false _ _
    | invoke axis c => exact absurd hdec (h axis c)
    | staticHint c => rfl
    | _ =>
      simp only [Instruction.formula, row, Term.denote, Operator.value, pure_bind, bind_assoc,
        ofOption_false]
      rfl

theorem rule_invoke {axis c : Noun} (h : Instruction.decode f = .ok (.invoke axis c)) :
    (Run.scheme false).rule call s f = (do
      let core ← call s c
      match axis.findAt? core with
      | some arm => call core arm
      | none => failure) := by
  rw [Scheme.rule, h]
  rfl

theorem reduceUnbounded_lookup (s axis : Noun) :
    reduceUnbounded false s (.cell 0 axis) = (OptionT.mk (return axis.findAt? s) : Run Noun) := by
  rw [funext (Noun.reduceUnbounded.eq_1 false s _)]
  exact ofOption_false _ _

/-- A formula that looks an arm up and reduces it on the core. -/
theorem reduceUnbounded_lookup_reduce (core axis : Noun) :
    reduceUnbounded false core (.cell 2 (.cell (.cell 0 1) (.cell 0 axis))) = ((
      match axis.findAt? core with
      | some arm => reduceUnbounded false core arm
      | none => failure) : Run Noun) := by
  rw [funext (Noun.reduceUnbounded.eq_1 false core _)]
  show (do
    let x ← reduceUnbounded false core (.cell 0 1)
    let y ← reduceUnbounded false core (.cell 0 axis)
    reduceUnbounded false x y : Run Noun) = _
  rw [reduceUnbounded_lookup core 1, reduceUnbounded_lookup core axis]
  cases axis.findAt? core <;> rfl

theorem reduceUnbounded_eq_denote (s f : Noun) :
    reduceUnbounded false s f = (row s f).denote (reduceUnbounded false) := by
  rw [funext (Noun.reduceUnbounded.eq_1 false s f)]
  by_cases h : ∃ axis c, Instruction.decode f = .ok (.invoke axis c)
  · obtain ⟨axis, c, hdec⟩ := h
    rw [rule_invoke hdec, row_of_decode_ok hdec]
    simp only [← reduceUnbounded_lookup_reduce]
    simp only [Instruction.formula, row, Term.denote, pure_bind, bind_assoc]
  · exact rule_eq_denote fun axis c hdec => h ⟨axis, c, hdec⟩

theorem denote_of_evaluates (h : Evaluates t r) (log : Log) :
    t.denote (reduceUnbounded false) log = some (r, log) := by
  induction h generalizing log with
  | noun => rfl
  | crash => rfl
  | cell _ _ ihx ihy => exact (Run.bind_of_some (ihx log)).trans (Run.bind_of_some (ihy log))
  | cellHead _ ihx => exact Run.bind_of_none (ihx log)
  | cellTail _ _ ihx ihy => exact (Run.bind_of_some (ihx log)).trans (Run.bind_of_none (ihy log))
  | nock _ _ ihp ihrow =>
    refine (Run.bind_of_some (ihp log)).trans ?_
    dsimp only
    rw [reduceUnbounded_eq_denote]
    exact ihrow log
  | nockAtom _ ihp => exact Run.bind_of_some (ihp log)
  | nockCrash _ ihp => exact Run.bind_of_none (ihp log)
  | apply _ hop iht =>
    cases Operator.gives_iff.1 hop
    exact Run.bind_of_some (iht log)
  | applyCrash _ iht => exact Run.bind_of_none (iht log)
  | chooseYes _ _ iht ihyes => exact (Run.bind_of_some (iht log)).trans (ihyes log)
  | chooseNo _ _ iht ihno => exact (Run.bind_of_some (iht log)).trans (ihno log)
  | chooseOther _ h₀ h₁ iht =>
    refine (Run.bind_of_some (iht log)).trans ?_
    split
    · exact absurd rfl h₀
    · exact absurd rfl h₁
    · rfl
  | chooseCrash _ iht => exact Run.bind_of_none (iht log)

theorem reduces_lookup (s axis : Noun) : Reduces s (.cell 0 axis) (axis.findAt? s) :=
  reduces_iff.2 (.apply .noun (Operator.gives_iff.2 rfl))

theorem reduces_lookup_reduce {core axis : Noun}
    (h : match axis.findAt? core with
      | some arm => Reduces core arm r
      | none => r = none) :
    Reduces core (.cell 2 (.cell (.cell 0 1) (.cell 0 axis))) r := by
  have hone := reduces_lookup core 1
  have harm := reduces_lookup core axis
  refine reduces_iff.2 ?_
  split at h
  · next arm harm? => exact .nock (.cell hone (harm? ▸ harm)) (reduces_iff.1 h)
  · next hnone =>
    subst h
    exact .nockCrash (.cellTail hone (hnone ▸ harm))

theorem reduces_of_reduceUnbounded (h : reduceUnbounded false s f log = some (r, l)) :
    Reduces s f r := by
  refine Noun.reduceUnbounded.partial_correctness false (fun s f _ res => Reduces s f res.1) ?_
    s f log (r, l) h
  rintro call hcall s f log ⟨r, l⟩ h
  have ih : ∀ s f log r l, call s f log = some (r, l) → Reduces s f r :=
    fun s f log r l h => hcall s f log (r, l) h
  refine reduces_iff.2 ?_
  by_cases hinv : ∃ axis c, Instruction.decode f = .ok (.invoke axis c)
  · obtain ⟨axis, c, hdec⟩ := hinv
    rw [rule_invoke hdec] at h
    rw [row_of_decode_ok hdec]
    rcases Run.bind_eq_some.1 h with ⟨core, l₁, hcore, h⟩ | ⟨rfl, hcore⟩
    · refine .nock (.cell (ih s c _ _ _ hcore) .noun) (reduces_iff.1 (reduces_lookup_reduce ?_))
      cases hfind : axis.findAt? core with
      | some arm => rw [hfind] at h; exact ih core arm _ _ _ h
      | none => rw [hfind] at h; cases h; rfl
    · exact .nockCrash (.cellHead (ih s c _ _ _ hcore))
  · rw [rule_eq_denote fun axis c hdec => hinv ⟨axis, c, hdec⟩] at h
    exact evaluates_of_denote ih h

theorem reduceUnbounded_iff_reduces :
    (∃ l, reduceUnbounded false s f [] = some (r, l)) ↔ Reduces s f r := by
  constructor
  · rintro ⟨l, h⟩
    exact reduces_of_reduceUnbounded h
  · intro h
    exact ⟨[], reduceUnbounded_eq_denote s f ▸ denote_of_evaluates (reduces_iff.1 h) []⟩

theorem run_halts_iff_reduces (keep : Bool) :
    (∃ n, (Machine.run keep n (Machine.initial s f)).control = .halt r) ↔ Reduces s f r := by
  rw [← reduceUnbounded_iff_reduces]
  constructor
  · rintro ⟨n, hn⟩
    have hn' := (Machine.run_control false keep n rfl).trans hn
    exact ⟨_, Machine.run_eq_halt_iff.1 ⟨n, congrArg₂ Machine.State.mk hn' rfl⟩⟩
  · rintro ⟨l, hl⟩
    obtain ⟨n, hn⟩ := Machine.run_eq_halt_iff.2 hl
    exact ⟨n, (Machine.run_control keep false n rfl).trans (congrArg Machine.State.control hn)⟩

end Table

theorem Engine.outcomeOf_result_iff {st : Machine.State} {r : Option Noun} :
    (outcomeOf st).toAnswer.result = .ok r ↔ st.control = .halt r := by
  obtain ⟨control, log⟩ := st
  rcases control with _ | _ | _ | v <;> cases r <;> simp [outcomeOf, Outcome.toAnswer]

/-- The stack engine gives a pair of a subject and a formula the results that the table gives it, and
no others; it has none exactly if the table has none. An atom is no such pair, and crashes. -/
theorem result_iff_reduces (settings : Settings) :
    (∀ (s f : Noun) (r : Option Noun),
      (∃ bounds, (nock settings bounds (.text "stack") (.ofNoun (.cell s f))).result = .ok r) ↔
        Table.Reduces s f r) ∧
    ∀ (a : Nat) (bounds : Bounds),
      (nock settings bounds (.text "stack") (.ofNoun (.atom a))).result = .ok none := by
  have hengine : Engine.ofValue settings (.text "stack") = .ok .stack := rfl
  refine ⟨fun s f r => ?_, fun a bounds => ?_⟩
  · rw [← Table.run_halts_iff_reduces settings.keepReports]
    simp only [nock_ofNoun, hengine, Engine.reducePair, Engine.reduce, Engine.outcomeOf_result_iff]
    constructor
    · rintro ⟨bounds, h⟩
      exact ⟨bounds.steps, h⟩
    · rintro ⟨n, h⟩
      exact ⟨⟨n, 0⟩, h⟩
  · rw [nock_ofNoun, hengine]
    rfl

end Nock

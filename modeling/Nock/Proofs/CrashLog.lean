import Nock.Evaluation.Entry
import Nock.Proofs.Machine.Run
import Nock.Proofs.Recursion.Bounded

/-!
# One report for a crash

A step leaves the log alone or crashes, and does not look at the log (`step_cases`). So the machine
reports its crash and nothing else (`run_logFits`), and reporting changes no run (`run_control`). With
what `eval_logFits` and `eval_ending_eq` say of the recursive engine, both engines report a crash once
and nothing else, and reporting changes no result.
-/

namespace Nock

namespace Machine

variable {keep : Bool} {st : State} {log : Log}

/-- Since its log was `log`, the machine has reported its crash, if reports are kept, and nothing else. -/
def State.LogFits (keep : Bool) (log : Log) (st : State) : Prop :=
  match st.control with
  | .halt none => ∃ r, st.log = log.note keep r
  | .reduce .. | .feed .. | .halt (some _) => st.log = log

theorem logFits_iff {c : Control} {l : Log} (h : c ≠ .halt none) :
    State.LogFits keep log ⟨c, l⟩ ↔ l = log := by
  rcases c with _ | _ | _ | _
  · rfl
  · rfl
  · exact absurd rfl h
  · rfl

theorem step_logFits (h : st.LogFits keep log) : (step keep st).LogFits keep log := by
  obtain ⟨c, l⟩ := st
  by_cases hc : c = .halt none
  · rw [hc] at h ⊢
    exact h
  · obtain rfl := (logFits_iff hc).1 h
    rcases step_cases hc with ⟨c', hc', hstep⟩ | ⟨r, hstep⟩
    · rw [hstep]
      exact (logFits_iff hc').2 rfl
    · rw [hstep]
      exact ⟨r, rfl⟩

theorem run_logFits (n : Nat) (h : st.LogFits keep log) : (run keep n st).LogFits keep log := by
  induction n generalizing st with
  | zero => exact h
  | succ n ih => rw [run_succ]; exact ih (step_logFits h)

end Machine

namespace Engine

theorem reduce_logFits (e : Engine) (bounds : Bounds) (keep : Bool) (s f : Noun) :
    (e.reduce bounds keep s f).LogFits keep := by
  cases e with
  | recursive => exact Recursion.eval_logFits keep bounds.nesting s f
  | stack =>
    have h : (Machine.run keep bounds.steps (Machine.initial s f)).LogFits keep [] :=
      Machine.run_logFits bounds.steps rfl
    unfold Machine.State.LogFits at h
    unfold reduce outcomeOf
    split at h
    · next hc => simp only [hc]; exact h
    all_goals next hc => simp only [hc]; exact h

theorem reduce_ending_eq (e : Engine) (bounds : Bounds) (keep keep' : Bool) (s f : Noun) :
    (e.reduce bounds keep s f).ending = (e.reduce bounds keep' s f).ending := by
  cases e with
  | recursive => exact Recursion.eval_ending_eq keep keep' bounds.nesting s f
  | stack =>
    have h : (Machine.run keep bounds.steps (Machine.initial s f)).control =
        (Machine.run keep' bounds.steps (Machine.initial s f)).control :=
      Machine.run_control keep keep' bounds.steps rfl
    unfold reduce outcomeOf
    dsimp only
    rw [h]
    split <;> rfl

theorem reducePair_logFits (e : Engine) (bounds : Bounds) (keep : Bool) (n : Noun) :
    (e.reducePair bounds keep n).LogFits keep := by
  cases n with
  | atom a => exact ⟨.atomPair, rfl⟩
  | cell s f => exact e.reduce_logFits bounds keep s f

theorem reducePair_ending_eq (e : Engine) (bounds : Bounds) (keep keep' : Bool) (n : Noun) :
    (e.reducePair bounds keep n).ending = (e.reducePair bounds keep' n).ending := by
  cases n with
  | atom a => rfl
  | cell s f => exact e.reduce_ending_eq bounds keep keep' s f

end Engine

theorem nock_ofNoun (settings : Settings) (bounds : Bounds) (engine : Value) (pair : Noun) :
    nock settings bounds engine (.ofNoun pair) =
      match Engine.ofValue settings engine with
      | .error e => ⟨.error e, []⟩
      | .ok e => (e.reducePair bounds settings.keepReports pair).toAnswer := by
  unfold nock
  rw [Value.asNoun_ofNoun]
  cases Engine.ofValue settings engine <;> rfl

namespace Answer

/-- One report for a crash, if reports are kept, and none for anything else. -/
def LogFits (keep : Bool) (a : Answer) : Prop :=
  match a.result with
  | .ok none => ∃ r, a.log = Log.note keep [] r
  | .ok (some _) | .error _ => a.log = []

theorem LogFits.of_outcome {keep : Bool} {o : Outcome} (h : o.LogFits keep) :
    o.toAnswer.LogFits keep := by
  unfold Outcome.LogFits at h
  unfold LogFits Outcome.toAnswer
  split at h
  · next hc => rw [hc]; exact h
  all_goals next hc => rw [hc]; exact h

theorem result_eq_of_ending_eq {o o' : Outcome} (h : o.ending = o'.ending) :
    o.toAnswer.result = o'.toAnswer.result := by
  unfold Outcome.toAnswer
  rw [h]
  split <;> rfl

theorem LogFits.log_eq_nil {a : Answer} (h : a.LogFits false) : a.log = [] := by
  unfold LogFits at h
  split at h
  · exact h.choose_spec
  all_goals exact h

end Answer

theorem nock_logFits (settings : Settings) (bounds : Bounds) (engine : Value) (pair : Noun) :
    (nock settings bounds engine (.ofNoun pair)).LogFits settings.keepReports := by
  rw [nock_ofNoun]
  split
  · rfl
  · next e _ => exact .of_outcome (e.reducePair_logFits bounds settings.keepReports pair)

theorem nock_result_eq (name : String) (keep keep' : Bool) (bounds : Bounds) (engine : Value)
    (pair : Noun) :
    (nock ⟨name, keep⟩ bounds engine (.ofNoun pair)).result =
      (nock ⟨name, keep'⟩ bounds engine (.ofNoun pair)).result := by
  rw [nock_ofNoun, nock_ofNoun,
    show Engine.ofValue ⟨name, keep⟩ engine = Engine.ofValue ⟨name, keep'⟩ engine from rfl]
  split
  · rfl
  · next e _ => exact Answer.result_eq_of_ending_eq (e.reducePair_ending_eq bounds keep keep' pair)

/-- With reports kept, a noun is evaluated with one report if it crashes and with none if it gives a
noun or an error; without, there are no reports and the result is the same. -/
theorem one_report_per_crash (name : String) (bounds : Bounds) (engine : Value) (pair : Noun) :
    (match (nock ⟨name, true⟩ bounds engine (.ofNoun pair)).result with
      | .ok none => ∃ r, (nock ⟨name, true⟩ bounds engine (.ofNoun pair)).log = [r]
      | .ok (some _) | .error _ => (nock ⟨name, true⟩ bounds engine (.ofNoun pair)).log = []) ∧
    (nock ⟨name, false⟩ bounds engine (.ofNoun pair)).log = [] ∧
    (nock ⟨name, true⟩ bounds engine (.ofNoun pair)).result =
      (nock ⟨name, false⟩ bounds engine (.ofNoun pair)).result :=
  ⟨nock_logFits ⟨name, true⟩ bounds engine pair,
    (nock_logFits ⟨name, false⟩ bounds engine pair).log_eq_nil,
    nock_result_eq name true false bounds engine pair⟩

end Nock

import Mathlib.Data.Nat.Find
import Nock.Evaluation.Scheme
import Nock.Proofs.Outcome

/-!
# Evaluations under a bound

A bounded evaluation is one rule over evaluations under the bound below (`eval_succ`), so what products,
crashes and chains keep holds of all evaluations. `eval_related` says this once, for two evaluations of
one formula side by side: the second may have a larger bound and may keep other reports. Its three uses
are

* `eval_stable`: an answer stays when the bound grows;
* `eval_ending_eq`: keeping reports changes no answer;
* `eval_logFits`: an evaluation reports its crash, once, and nothing else.

`exists_threshold` is the least bound that is enough.
-/

namespace Nock

/-- Chains stop at the first crash, and at the first evaluation that a bound cuts off. -/
def Outcome.scheme (keep : Bool) : Scheme Outcome where
  product := product
  crash := crash keep
  andThen := andThen

namespace Recursion

theorem eval_succ (keep : Bool) (bound : Nat) (s f : Noun) :
    eval keep (bound + 1) s f = (Outcome.scheme keep).rule (eval keep bound) s f := by
  rw [eval, Scheme.rule]
  cases Instruction.decode f with
  | error r => rfl
  | ok i => cases i <;> rfl

/-- What holds of cut-off, finished and crashed evaluations and goes through chains holds of `eval`. -/
theorem eval_related {R : Outcome → Outcome → Prop} (keep keep' : Bool) (extra : Nat)
    (deep : ∀ s f, R .tooDeep (eval keep' extra s f))
    (product : ∀ v, R (.product v) (.product v))
    (crash : ∀ r, R (.crash keep r) (.crash keep' r))
    (andThen : ∀ {o o' : Outcome} {next next' : Noun → Outcome}, R o o' →
      (∀ v, R (next v) (next' v)) → R (o.andThen next) (o'.andThen next'))
    (bound : Nat) (s f : Noun) : R (eval keep bound s f) (eval keep' (bound + extra) s f) := by
  induction bound generalizing s f with
  | zero => rw [Nat.zero_add]; exact deep s f
  | succ bound ih =>
    rw [Nat.succ_add, eval_succ, eval_succ]
    exact Scheme.rule_related product crash andThen ih s f

variable {keep : Bool} {bound bound' : Nat} {s f : Noun}

theorem eval_leadsTo (h : bound ≤ bound') :
    (eval keep bound s f).LeadsTo (eval keep bound' s f) := by
  obtain ⟨extra, rfl⟩ := Nat.exists_eq_add_of_le h
  exact eval_related keep keep extra (fun _ _ => .inl rfl) (fun _ => .inr rfl) (fun _ => .inr rfl)
    Outcome.LeadsTo.andThen bound s f

theorem eval_stable (hdone : (eval keep bound s f).ending ≠ .tooDeep) (h : bound ≤ bound') :
    eval keep bound' s f = eval keep bound s f :=
  ((eval_leadsTo h).resolve_left hdone).symm

theorem eval_ending_eq (keep keep' : Bool) (bound : Nat) (s f : Noun) :
    (eval keep bound s f).ending = (eval keep' bound s f).ending :=
  eval_related (R := fun o o' => o.ending = o'.ending) keep keep' 0 (fun _ _ => rfl)
    (fun _ => rfl) (fun _ => rfl) Outcome.ending_andThen_congr bound s f

theorem eval_logFits (keep : Bool) (bound : Nat) (s f : Noun) :
    (eval keep bound s f).LogFits keep :=
  eval_related (R := fun o _ => o.LogFits keep) keep keep 0 (fun _ _ => rfl)
    (fun _ => rfl) (fun r => ⟨r, rfl⟩) Outcome.LogFits.andThen bound s f

/-- An evaluation that a bound cuts off leaves no report. -/
theorem eval_eq_tooDeep (h : (eval keep bound s f).ending = .tooDeep) :
    eval keep bound s f = .tooDeep := by
  have hlog := eval_logFits keep bound s f
  simp only [Outcome.LogFits, h] at hlog
  exact congrArg₂ Outcome.mk h hlog

theorem eval_ne_unfinished (keep : Bool) (bound : Nat) (s f : Noun) :
    (eval keep bound s f).ending ≠ .unfinished :=
  eval_related (R := fun o _ => o.ending ≠ .unfinished) keep keep 0 (fun _ _ => Ending.noConfusion)
    (fun _ => Ending.noConfusion) (fun _ => Ending.noConfusion) Outcome.ending_andThen_ne bound s f

/-- An evaluation returns unless the bound cuts it off. -/
theorem eval_eq_tooDeep_or_returned (keep : Bool) (bound : Nat) (s f : Noun) :
    eval keep bound s f = .tooDeep ∨ ∃ r l, (eval keep bound s f).returned? = some (r, l) := by
  cases hend : (eval keep bound s f).ending with
  | product v => exact .inr ⟨some v, _, Outcome.returned?_eq_some.2 ⟨hend, rfl⟩⟩
  | crash => exact .inr ⟨none, _, Outcome.returned?_eq_some.2 ⟨hend, rfl⟩⟩
  | tooDeep => exact .inl (eval_eq_tooDeep hend)
  | unfinished => exact absurd hend (eval_ne_unfinished keep bound s f)

theorem exists_returned (h : (eval keep bound s f).ending ≠ .tooDeep) :
    ∃ r l, (eval keep bound s f).returned? = some (r, l) := by
  refine (eval_eq_tooDeep_or_returned keep bound s f).resolve_left fun hdeep => h ?_
  rw [hdeep]
  rfl

/-- If any bound is enough, then exactly those from some positive one on are. -/
theorem exists_threshold (h : (eval keep bound s f).ending ≠ .tooDeep) :
    ∃ D, 1 ≤ D ∧ ∀ L, eval keep L s f = if D ≤ L then eval keep bound s f else .tooDeep := by
  classical
  have hex : ∃ n, (eval keep n s f).ending ≠ .tooDeep := ⟨bound, h⟩
  refine ⟨Nat.find hex, ?_, fun L => ?_⟩
  · refine Nat.one_le_iff_ne_zero.2 fun h0 => ?_
    have := Nat.find_spec hex
    rw [h0] at this
    exact this rfl
  · split
    · next hL =>
      rw [eval_stable (Nat.find_spec hex) hL, eval_stable (Nat.find_spec hex) (Nat.find_min' hex h)]
    · next hL => exact eval_eq_tooDeep (not_not.1 (Nat.find_min hex (Nat.lt_of_not_le hL)))

end Recursion

end Nock

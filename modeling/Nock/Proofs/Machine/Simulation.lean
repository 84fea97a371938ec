import Nock.Proofs.Machine.Run
import Nock.Proofs.Recursion.Unbounded

/-!
# The two engines agree

`follows_eval` compares one bounded evaluation with the machine, for any pending frames. A product is
fed to these frames, a crash halts the machine, and an evaluation that its bound cuts off lets the
machine run for at least as many steps. The last case makes the comparison an equivalence: a machine
that halts within `n` steps is matched by an evaluation under the bound `n`.
-/

namespace Nock.Machine

open Noun (reduceUnbounded)

variable {keep : Bool} {st : State} {frames : List Frame} {log : Log} {n : Nat} {o : Outcome}
  {s f : Noun} {r : Option Noun} {l : Log}

/-- What the machine does from `st`, where `o` is the outcome of what it is to evaluate and `log` is the
log at the start. -/
def Follows (keep : Bool) (n : Nat) (st : State) (frames : List Frame) (log : Log) (o : Outcome) :
    Prop :=
  match o.ending with
  | .product v => Reaches keep st ⟨.feed v frames, log ++ o.log⟩
  | .crash => Reaches keep st ⟨.halt none, log ++ o.log⟩
  | .tooDeep => RunsFor keep n st
  | .unfinished => False

namespace Follows

theorem product (v : Noun) : Follows keep n ⟨.feed v frames, log⟩ frames log (.product v) := by
  show Reaches keep _ ⟨.feed v frames, log ++ []⟩
  rw [List.append_nil]
  exact .refl _

theorem crash (r : Report) : Follows keep n (Machine.crash keep log r) frames log (.crash keep r) := by
  show Reaches keep _ ⟨.halt none, log ++ Log.note keep [] r⟩
  rw [← Log.note_eq_append]
  exact .refl _

theorem of_step (h : Follows keep n (step keep st) frames log o) :
    Follows keep (n + 1) st frames log o := by
  unfold Follows at h ⊢
  split at h
  · exact h.step
  · exact h.step
  · exact h.of_step
  · exact h

theorem of_reaches {st' : State} (hst : Reaches keep st st') (h : Follows keep n st' frames log o) :
    Follows keep n st frames log o := by
  unfold Follows at h ⊢
  split at h
  · exact hst.trans h
  · exact hst.trans h
  · exact h.of_reaches hst
  · exact h

/-- The frame that waits for a product goes on as the rest of the chain does. -/
theorem andThen {k : Frame} {next : Noun → Outcome} (h : Follows keep n st (k :: frames) log o)
    (hnext : ∀ v, Follows keep n (resume keep v frames (log ++ o.log) k) frames (log ++ o.log) (next v)) :
    Follows keep n st frames log (o.andThen next) := by
  rcases o.ending_andThen_cases next with ⟨v, hv, heq⟩ | ⟨hne, heq⟩
  · have hfeed : Reaches keep st (resume keep v frames (log ++ o.log) k) := by
      simp only [Follows, hv] at h
      exact h.trans (.step (.refl _))
    have := of_reaches hfeed (hnext v)
    rw [heq]
    simpa only [Follows, List.append_assoc] using this
  · rw [heq]
    unfold Follows at h ⊢
    split at h
    · next v hv => exact absurd hv (hne v)
    all_goals exact h

end Follows

/-- What products, crashes and chains keep, from the machine that makes them step by step to what they
are in a scheme, holds of an evaluation and its rule. -/
theorem step_related {α : Type} {k : Scheme α} {call : Noun → Noun → α} {R : State → Log → α → Prop}
    (product : ∀ v log, R ⟨.feed v frames, log⟩ log (k.product v))
    (crash : ∀ r log, R (Machine.crash keep log r) log (k.crash r))
    (andThen : ∀ {s f frame log next}, (∀ v log, R (resume keep v frames log frame) log (next v)) →
      R ⟨.reduce s f (frame :: frames), log⟩ log (k.andThen (call s f) next))
    (tail : ∀ s f log, R ⟨.reduce s f frames, log⟩ log (call s f)) (s f : Noun) (log : Log) :
    R (step keep ⟨.reduce s f frames, log⟩) log (k.rule call s f) := by
  have option (r : Report) (v? : Option Noun) (log : Log) :
      R (feedOr keep r frames log v?) log (k.ofOption r v?) := by
    cases v? with
    | none => exact crash r log
    | some v => exact product v log
  rw [step, Scheme.rule]
  dsimp only
  cases Instruction.decode f with
  | error r => exact crash r log
  | ok i =>
    cases i with
    | lookup axis => exact option ..
    | quote value => exact product value log
    | reduce b c => exact andThen fun x _ => andThen fun y log => tail x y log
    | cellTest b => exact andThen fun v log => product v.cellTest log
    | increment b => exact andThen fun _ _ => option ..
    | equal b c => exact andThen fun u _ => andThen fun v log => product (u.equalTest v) log
    | branch b c d =>
      refine andThen fun test log => ?_
      obtain (_ | _ | a) | ⟨h, t⟩ := test
      · exact tail s c log
      · exact tail s d log
      · exact crash _ log
      · exact crash _ log
    | compose b c => exact andThen fun x log => tail x c log
    | push b c => exact andThen fun x log => tail (.cell x s) c log
    | invoke axis c =>
      refine andThen fun core log => ?_
      rw [resume]
      cases axis.findAt? core with
      | none => exact crash _ log
      | some arm => exact tail core arm log
    | edit axis c d => exact andThen fun _ _ => andThen fun _ _ => option ..
    | staticHint c => exact tail s c log
    | dynamicHint c d => exact andThen fun u _ => andThen fun v log => tail (.cell u v) tailFormula log

theorem follows_eval (keep : Bool) (n : Nat) (s f : Noun) (frames : List Frame) (log : Log) :
    Follows keep n ⟨.reduce s f frames, log⟩ frames log (Recursion.eval keep n s f) := by
  induction n generalizing s f frames log with
  | zero => exact not_halted_reduce s f frames log
  | succ n ih =>
    rw [Recursion.eval_succ]
    refine .of_step (step_related (R := fun st log o => Follows keep n st frames log o)
      (fun v _ => .product v) (fun r _ => .crash r) ?_ (fun s f log => ih s f frames log) s f log)
    intro s f frame log next hnext
    exact (ih s f (frame :: frames) log).andThen fun v => hnext v _

theorem halts_of_returned (h : (Recursion.eval keep n s f).returned? = some (r, l)) :
    Reaches keep (initial s f) ⟨.halt r, l⟩ := by
  have hf := follows_eval keep n s f [] []
  obtain ⟨hend, rfl⟩ := Outcome.returned?_eq_some.1 h
  cases r with
  | none =>
    simp only [Follows, hend, Ending.ofResult] at hf
    exact hf
  | some v =>
    simp only [Follows, hend, Ending.ofResult] at hf
    exact hf.trans (.step (.refl _))

/-- A machine that halts within `n` steps is matched by an evaluation under the bound `n`. -/
theorem returned_of_run (h : run keep n (initial s f) = ⟨.halt r, l⟩) :
    (Recursion.eval keep n s f).returned? = some (r, l) := by
  rcases Recursion.eval_eq_tooDeep_or_returned keep n s f with hdeep | ⟨r', l', h'⟩
  · have hf := follows_eval keep n s f [] []
    rw [hdeep] at hf
    exact absurd (h ▸ halted_halt r l) hf
  · have := Reaches.halted_unique ⟨n, h⟩ (halts_of_returned h') (halted_halt r l) (halted_halt r' l')
    cases this
    exact h'

theorem run_eq_halt_iff : (∃ n, run keep n (initial s f) = ⟨.halt r, l⟩) ↔
    reduceUnbounded keep s f [] = some (r, l) := by
  rw [Recursion.reduceUnbounded_eq_some_iff]
  constructor
  · rintro ⟨n, h⟩
    exact ⟨n, returned_of_run h⟩
  · rintro ⟨n, h⟩
    exact halts_of_returned h

/-- The two engines have the same outcome: the machine halts with a result and a log exactly if the
recursive engine returns them, and runs for ever exactly if that one does. -/
theorem halts_iff_returns (keep : Bool) (s f : Noun) :
    (∀ (r : Option Noun) (l : Log), (∃ n, run keep n (initial s f) = ⟨.halt r, l⟩) ↔
      reduceUnbounded keep s f [] = some (r, l)) ∧
    ((∀ n, ¬ (run keep n (initial s f)).Halted) ↔ reduceUnbounded keep s f [] = none) := by
  refine ⟨fun r l => run_eq_halt_iff, ?_⟩
  rw [Option.eq_none_iff_forall_ne_some]
  constructor
  · rintro h ⟨r, l⟩ hr
    obtain ⟨n, hn⟩ := run_eq_halt_iff.2 hr
    exact h n (hn ▸ halted_halt r l)
  · rintro h n ⟨r, hr⟩
    exact h (r, _) (run_eq_halt_iff.1 ⟨n, congrArg₂ State.mk hr rfl⟩)

end Nock.Machine

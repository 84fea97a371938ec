import Nock.Evaluation.Machine

/-!
# Steps of the machine

A step leaves the log alone or crashes, and which it does is told by the control alone (`step_cases`).
-/

namespace Nock.Machine

/-- What can be said of the next state, whatever the log and whether it is kept: the machine goes on and
leaves the log alone, or it crashes. -/
def Uniform (next : Bool → Log → State) : Prop :=
  (∃ c, c ≠ .halt none ∧ ∀ keep log, next keep log = ⟨c, log⟩) ∨
    ∃ r, ∀ keep log, next keep log = crash keep log r

namespace Uniform

theorem goesOn {c : Control} (h : c ≠ .halt none) : Uniform fun _ log => ⟨c, log⟩ :=
  .inl ⟨c, h, fun _ _ => rfl⟩

theorem crashes (r : Report) : Uniform fun keep log => crash keep log r :=
  .inr ⟨r, fun _ _ => rfl⟩

theorem feedOr (r : Report) (frames : List Frame) :
    ∀ v? : Option Noun, Uniform fun keep log => Machine.feedOr keep r frames log v?
  | some _ => goesOn Control.noConfusion
  | none => crashes r

end Uniform

theorem start_uniform (s : Noun) (frames : List Frame) (i : Instruction) :
    Uniform fun keep log => start keep s frames log i := by
  cases i with
  | lookup axis => exact .feedOr _ _ _
  | _ => exact .goesOn Control.noConfusion

theorem resume_uniform (v : Noun) (frames : List Frame) (k : Frame) :
    Uniform fun keep log => resume keep v frames log k := by
  cases k with
  | increment => exact .feedOr _ _ _
  | editTree axis u => exact .feedOr _ _ _
  | branch s yes no =>
    obtain (_ | _ | a) | ⟨h, t⟩ := v
    · exact .goesOn Control.noConfusion
    · exact .goesOn Control.noConfusion
    · exact .crashes _
    · exact .crashes _
  | invoke axis =>
    unfold resume
    dsimp only
    cases axis.findAt? v with
    | some arm => exact .goesOn Control.noConfusion
    | none => exact .crashes _
  | _ => exact .goesOn Control.noConfusion

theorem step_cases {c : Control} (h : c ≠ .halt none) :
    (∃ c', c' ≠ .halt none ∧ ∀ keep log, step keep ⟨c, log⟩ = ⟨c', log⟩) ∨
      ∃ r, ∀ keep log, step keep ⟨c, log⟩ = crash keep log r := by
  show Uniform fun keep log => step keep ⟨c, log⟩
  cases c with
  | halt r => exact .goesOn h
  | feed v frames =>
    cases frames with
    | nil => exact .goesOn fun hnone => by cases hnone
    | cons k frames => exact resume_uniform v frames k
  | reduce s f frames =>
    unfold step
    dsimp only
    cases Instruction.decode f with
    | ok i => exact start_uniform s frames i
    | error r => exact .crashes r

variable {keep keep' : Bool} {st st' : State}

/-- What a step leads to depends neither on the log nor on whether it is kept. -/
theorem step_control (h : st.control = st'.control) :
    (step keep st).control = (step keep' st').control := by
  obtain ⟨c, l⟩ := st
  obtain ⟨_, l'⟩ := st'
  obtain rfl : c = _ := h
  by_cases hc : c = .halt none
  · rw [hc]
    rfl
  · rcases step_cases hc with ⟨c', _, hstep⟩ | ⟨r, hstep⟩
    · rw [hstep, hstep]
    · rw [hstep, hstep]
      rfl

end Nock.Machine

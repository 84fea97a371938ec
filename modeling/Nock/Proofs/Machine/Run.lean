import Nock.Evaluation.Engine
import Nock.Proofs.Machine.Step

/-!
# Runs of the machine

A halted machine stays as it is, so a run of more steps goes on from a run of fewer (`run_add`) and a
machine halts in one state at most (`Reaches.halted_unique`). Whether reports are kept changes only the
log (`run_control`).
-/

namespace Nock.Machine

/-- The machine has come to a noun or crashed. -/
def State.Halted (st : State) : Prop := ∃ r, st.control = .halt r

variable {keep : Bool} {st st' st'' : State} {m n : Nat}

theorem halted_halt (r : Option Noun) (log : Log) : State.Halted ⟨.halt r, log⟩ := ⟨r, rfl⟩

theorem not_halted_reduce (s f : Noun) (frames : List Frame) (log : Log) :
    ¬ State.Halted ⟨.reduce s f frames, log⟩ := by
  rintro ⟨r, hr⟩
  cases hr

theorem step_of_halted (h : st.Halted) : step keep st = st := by
  obtain ⟨r, hr⟩ := h
  simp only [step, hr]

theorem run_of_halted (h : st.Halted) (n : Nat) : run keep n st = st := by
  obtain ⟨r, hr⟩ := h
  cases n with
  | zero => rfl
  | succ n => simp only [run, hr]

theorem run_succ (n : Nat) (st : State) : run keep (n + 1) st = run keep n (step keep st) := by
  by_cases h : st.Halted
  · rw [step_of_halted h, run_of_halted h, run_of_halted h]
  · rw [run]
    split
    · next r hr => exact absurd ⟨r, hr⟩ h
    · rfl

theorem run_add (m n : Nat) (st : State) : run keep (m + n) st = run keep n (run keep m st) := by
  induction m generalizing st with
  | zero => rw [Nat.zero_add, run]
  | succ m ih => rw [Nat.succ_add, run_succ, ih, run_succ]

theorem run_control (keep keep' : Bool) (n : Nat) (h : st.control = st'.control) :
    (run keep n st).control = (run keep' n st').control := by
  induction n generalizing st st' with
  | zero => exact h
  | succ n ih => rw [run_succ, run_succ]; exact ih (step_control h)

/-- From the first state the machine comes to the second. -/
def Reaches (keep : Bool) (st st' : State) : Prop := ∃ n, run keep n st = st'

namespace Reaches

theorem refl (st : State) : Reaches keep st st := ⟨0, rfl⟩

theorem trans (h : Reaches keep st st') (h' : Reaches keep st' st'') : Reaches keep st st'' := by
  obtain ⟨m, rfl⟩ := h
  obtain ⟨n, rfl⟩ := h'
  exact ⟨m + n, run_add m n st⟩

theorem step (h : Reaches keep (Machine.step keep st) st') : Reaches keep st st' := by
  obtain ⟨n, hn⟩ := h
  exact ⟨n + 1, by rw [run_succ, hn]⟩

theorem halted_unique (h : Reaches keep st st') (h' : Reaches keep st st'') (hst' : st'.Halted)
    (hst'' : st''.Halted) : st' = st'' := by
  obtain ⟨m, rfl⟩ := h
  obtain ⟨n, rfl⟩ := h'
  rw [← run_of_halted hst' n, ← run_add, Nat.add_comm, run_add, run_of_halted hst'']

end Reaches

/-- After so many steps the machine has not halted. -/
def RunsFor (keep : Bool) (n : Nat) (st : State) : Prop := ¬ (run keep n st).Halted

namespace RunsFor

theorem of_step (h : RunsFor keep n (Machine.step keep st)) : RunsFor keep (n + 1) st := by
  rwa [RunsFor, run_succ]

theorem of_reaches (h : Reaches keep st st') (h' : RunsFor keep n st') : RunsFor keep n st := by
  obtain ⟨m, rfl⟩ := h
  intro hn
  refine h' ?_
  rw [← run_add, Nat.add_comm, run_add, run_of_halted hn]
  exact hn

end RunsFor

end Nock.Machine

import Nock.Proofs.CrashLog

/-!
# Work on top of pending frames

A machine looks at a frame only to feed a noun to it. So what it does with no frames it also does on top
of any others (`run_onto`), up to the noun that it would halt with, which those frames get instead
(`reaches_feed`).
-/

namespace Nock.Machine

def Control.frames : Control → List Frame
  | .reduce _ _ frames | .feed _ frames => frames
  | .halt _ => []

def Control.onto (below : List Frame) : Control → Control
  | .reduce s f frames => .reduce s f (frames ++ below)
  | .feed v frames => .feed v (frames ++ below)
  | .halt (some v) => .feed v below
  | .halt none => .halt none

namespace State

/-- The frames that the machine holds. -/
def frames (st : State) : List Frame := st.control.frames

/-- The same work on top of further frames; they get the noun that the machine would halt with. -/
def onto (below : List Frame) (st : State) : State := ⟨st.control.onto below, st.log⟩

end State

/-- The machine halts, with a noun or a crash (`none`). -/
def Halts (keep : Bool) (s f : Noun) (r : Option Noun) : Prop :=
  ∃ n, (run keep n (initial s f)).control = .halt r

variable {keep : Bool} {st : State} {below frames : List Frame} {s f u v : Noun} {r : Option Noun}
  {n : Nat} {log : Log}

theorem run_succ' (n : Nat) (st : State) : run keep (n + 1) st = step keep (run keep n st) := by
  rw [run_add, run_succ]
  rfl

/-! ### One step -/

theorem feedOr_onto (r : Report) (v? : Option Noun) :
    feedOr keep r (frames ++ below) log v? = (feedOr keep r frames log v?).onto below := by
  cases v? <;> rfl

theorem start_onto (i : Instruction) :
    start keep s (frames ++ below) log i = (start keep s frames log i).onto below := by
  cases i with
  | lookup axis => exact feedOr_onto ..
  | _ => rfl

theorem resume_onto (k : Frame) :
    resume keep v (frames ++ below) log k = (resume keep v frames log k).onto below := by
  cases k with
  | increment => exact feedOr_onto ..
  | editTree axis u => exact feedOr_onto ..
  | branch s yes no => obtain (_ | _ | a) | ⟨h, t⟩ := v <;> rfl
  | invoke axis =>
    unfold resume
    dsimp only
    cases axis.findAt? v <;> rfl
  | _ => rfl

theorem step_onto (hfeed : ∀ v, st.control ≠ .feed v []) (hhalt : ∀ v, st.control ≠ .halt (some v)) :
    step keep (st.onto below) = (step keep st).onto below := by
  obtain ⟨control, log⟩ := st
  cases control with
  | halt r =>
    cases r with
    | none => rfl
    | some v => exact absurd rfl (hhalt v)
  | feed v frames =>
    cases frames with
    | nil => exact absurd rfl (hfeed v)
    | cons k frames => exact resume_onto k
  | reduce s f frames =>
    show step keep ⟨.reduce s f (frames ++ below), log⟩ = _
    unfold step
    dsimp only
    cases Instruction.decode f with
    | ok i => exact start_onto i
    | error r => rfl

theorem feedOr_control_ne_halt (r : Report) (v? : Option Noun) :
    (feedOr keep r frames log v?).control ≠ .halt (some v) := by
  cases v? <;> simp [feedOr, crash]

theorem start_control_ne_halt (i : Instruction) :
    (start keep s frames log i).control ≠ .halt (some v) := by
  cases i with
  | lookup axis => exact feedOr_control_ne_halt _ _
  | _ => simp [start]

theorem resume_control_ne_halt (k : Frame) :
    (resume keep u frames log k).control ≠ .halt (some v) := by
  cases k with
  | increment => exact feedOr_control_ne_halt _ _
  | editTree axis u => exact feedOr_control_ne_halt _ _
  | branch s yes no => obtain (_ | _ | a) | ⟨h, t⟩ := u <;> simp [resume, crash]
  | invoke axis =>
    unfold resume
    dsimp only
    cases axis.findAt? u <;> simp [crash]
  | _ => simp [resume]

/-- The machine halts with a noun when there is no frame to feed it to, and only then. -/
theorem eq_feed_of_step (h : (step keep st).control = .halt (some v)) (hst : ¬ st.Halted) :
    st = ⟨.feed v [], (step keep st).log⟩ := by
  obtain ⟨control, log⟩ := st
  cases control with
  | halt r => exact absurd (halted_halt r log) hst
  | feed u frames =>
    cases frames with
    | nil => cases h; rfl
    | cons k frames => exact absurd h (resume_control_ne_halt k)
  | reduce s f frames =>
    unfold step at h
    dsimp only at h
    split at h
    · exact absurd h (start_control_ne_halt _)
    · cases h

/-! ### Runs -/

/-- While it has no noun to halt with, the machine does the same on top of any frames. -/
theorem run_onto (h : ∀ v, (run keep n st).control ≠ .halt (some v)) :
    run keep n (st.onto below) = (run keep n st).onto below := by
  induction n with
  | zero => rfl
  | succ n ih =>
    rw [run_succ'] at h
    have hhalt : ∀ v, (run keep n st).control ≠ .halt (some v) := by
      intro v hv
      rw [step_of_halted ⟨_, hv⟩] at h
      exact h v hv
    have hfeed : ∀ v, (run keep n st).control ≠ .feed v [] := by
      intro v hv
      refine h v ?_
      simp only [step, hv]
    rw [run_succ', run_succ', ih hhalt, step_onto hfeed hhalt]

theorem exists_feed_of_run (h : (run keep n st).control = .halt (some v)) (hst : ¬ st.Halted) :
    ∃ m < n, run keep m st = ⟨.feed v [], (run keep n st).log⟩ := by
  induction n with
  | zero => exact absurd ⟨_, h⟩ hst
  | succ n ih =>
    rw [run_succ'] at h ⊢
    by_cases hn : (run keep n st).Halted
    · rw [step_of_halted hn] at h ⊢
      obtain ⟨m, hm, hrun⟩ := ih h
      exact ⟨m, Nat.lt_succ_of_lt hm, hrun⟩
    · exact ⟨n, Nat.lt_succ_self n, eq_feed_of_step h hn⟩

/-- The noun that a run without frames halts with is fed to the frames below, before that run halts. -/
theorem run_onto_of_halt (below : List Frame) (h : (run keep n st).control = .halt (some v))
    (hst : ¬ st.Halted) : ∃ m < n,
      run keep m (st.onto below) = ⟨.feed v below, (run keep n st).log⟩ := by
  obtain ⟨m, hm, hrun⟩ := exists_feed_of_run h hst
  have hgoes : ∀ v, (run keep m st).control ≠ .halt (some v) := by
    intro v hv
    rw [hrun] at hv
    cases hv
  exact ⟨m, hm, by rw [run_onto hgoes, hrun]; rfl⟩

theorem initial_control (s f : Noun) (log : Log) :
    (initial s f).control = (State.mk (.reduce s f []) log).control := rfl

/-- A formula that gives a noun feeds it to whatever frames are pending. -/
theorem reaches_feed (h : Halts keep s f (some v)) (below : List Frame) (log : Log) :
    Reaches keep ⟨.reduce s f below, log⟩ ⟨.feed v below, log⟩ := by
  obtain ⟨n, hn⟩ := h
  rw [run_control keep keep n (initial_control s f log)] at hn
  have hlog : (run keep n ⟨.reduce s f [], log⟩).log = log := by
    have hfits : State.LogFits keep log (run keep n ⟨.reduce s f [], log⟩) := run_logFits n rfl
    simpa only [State.LogFits, hn] using hfits
  obtain ⟨m, -, hm⟩ := run_onto_of_halt below hn (not_halted_reduce s f [] log)
  rw [hlog] at hm
  exact ⟨m, hm⟩

theorem Halts.unique {r' : Option Noun} (h : Halts keep s f r) (h' : Halts keep s f r') : r = r' := by
  obtain ⟨m, hm⟩ := h
  obtain ⟨n, hn⟩ := h'
  have heq := Reaches.halted_unique ⟨m, rfl⟩ ⟨n, rfl⟩ ⟨_, hm⟩ ⟨_, hn⟩
  rw [heq, hn] at hm
  cases hm
  rfl

end Nock.Machine

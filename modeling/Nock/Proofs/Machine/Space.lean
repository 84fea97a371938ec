import Nock.Proofs.Machine.Context
import Nock.Proofs.Machine.Simulation

/-!
# The frames that a run holds

While a formula is evaluated under a frame, the machine holds one frame more than it would without
(`Within.chain`). So it never holds more frames than the recursive engine has evaluations active besides
the outermost one (`within_of_eval`), and in a tail position it holds none for the formula that ended.
-/

namespace Nock.Machine

/-- In so many steps, the machine holds no more than `room` frames at once. -/
def Within (keep : Bool) (room n : Nat) (st : State) : Prop :=
  ∀ i ≤ n, (run keep i st).frames.length ≤ room

variable {keep : Bool} {st : State} {room bound m n : Nat} {k : Frame} {frames : List Frame}
  {log : Log} {s f v : Noun}

namespace Within

theorem zero (h : st.frames.length ≤ room) : Within keep room 0 st := by
  intro i hi
  rw [Nat.le_zero.1 hi]
  exact h

theorem succ (h : st.frames.length ≤ room) (hstep : Within keep room n (step keep st)) :
    Within keep room (n + 1) st := by
  intro i hi
  cases i with
  | zero => exact h
  | succ i =>
    rw [run_succ]
    exact hstep i (Nat.le_of_succ_le_succ hi)

theorem mono (h : Within keep room n st) (hm : m ≤ n) : Within keep room m st :=
  fun i hi => h i (hi.trans hm)

theorem of_step (h : st.frames.length ≤ room) (hstep : Within keep room n (step keep st)) :
    Within keep room n st :=
  (succ h hstep).mono (Nat.le_succ n)

theorem of_halted (h : st.Halted) : Within keep room n st := by
  intro i _
  obtain ⟨r, hr⟩ := h
  rw [run_of_halted ⟨r, hr⟩, State.frames, hr]
  exact Nat.zero_le room

theorem of_feed (v : Noun) (log : Log) : Within keep room n ⟨.feed v [], log⟩ :=
  of_step (Nat.zero_le room) (of_halted (halted_halt (some v) log))

end Within

theorem frames_onto_le (h : ∀ v, st.control ≠ .halt (some v)) (below : List Frame) :
    (st.onto below).frames.length ≤ st.frames.length + below.length := by
  obtain ⟨control, log⟩ := st
  rcases control with ⟨s, f, frames⟩ | ⟨v, frames⟩ | _ | v
  · exact le_of_eq List.length_append
  · exact le_of_eq List.length_append
  · exact Nat.zero_le _
  · exact absurd rfl (h v)

/-- A formula that keeps to its room, and then what its noun leads to. -/
theorem Within.chain (hroom : m + 1 + frames.length ≤ room) (h : ∀ n, Within keep m n (initial s f))
    (hnext : ∀ v log, Halts keep s f (some v) → Within keep room n (resume keep v frames log k)) :
    Within keep room n ⟨.reduce s f (k :: frames), log⟩ := by
  intro i hi
  have hcontrol := run_control keep keep i (initial_control s f log)
  by_cases hv : ∃ v, (run keep i (initial s f)).control = .halt (some v)
  · -- the formula has ended: after `j + 1` steps its noun is in the frame `k`
    obtain ⟨v, hv⟩ := hv
    obtain ⟨j, hj, hfeed⟩ := run_onto_of_halt (k :: frames) (hcontrol.symm.trans hv)
      (not_halted_reduce s f [] log)
    have hresume : run keep (j + 1) ⟨.reduce s f (k :: frames), log⟩ = resume keep v frames _ k :=
      (run_succ' j _).trans (congrArg (step keep) hfeed)
    obtain ⟨d, rfl⟩ := Nat.exists_eq_add_of_le (Nat.succ_le_of_lt hj)
    rw [run_add, hresume]
    exact hnext v _ ⟨_, hv⟩ d (by omega)
  · have hgoes : ∀ v, (run keep i ⟨.reduce s f [], log⟩).control ≠ .halt (some v) := by
      intro v hv'
      exact hv ⟨v, hcontrol.trans hv'⟩
    have hrun : run keep i ⟨.reduce s f (k :: frames), log⟩ =
        (run keep i ⟨.reduce s f [], log⟩).onto (k :: frames) := run_onto hgoes
    have hsub : (run keep i ⟨.reduce s f [], log⟩).frames.length ≤ m := by
      rw [State.frames, ← hcontrol]
      exact h i i le_rfl
    have hle := frames_onto_le hgoes (k :: frames)
    rw [List.length_cons] at hle
    rw [hrun]
    omega

theorem Halts.of_returned {r : Option Noun} {l : Log}
    (h : (Recursion.eval keep bound s f).returned? = some (r, l)) : Halts keep s f r := by
  obtain ⟨n, hn⟩ := halts_of_returned h
  exact ⟨n, by rw [hn]⟩

/-- Where the bound is enough, the recursive engine ends as the machine halts. -/
theorem Halts.ending_eval {r : Option Noun} (h : Halts keep s f r)
    (hdone : (Recursion.eval keep bound s f).ending ≠ .tooDeep) :
    (Recursion.eval keep bound s f).ending = .ofResult r := by
  obtain ⟨r', l, hr⟩ := Recursion.exists_returned hdone
  rw [h.unique (.of_returned hr)]
  exact (Outcome.returned?_eq_some.1 hr).1

/-- `Within.chain` for a formula that is evaluated with so many evaluations active. -/
theorem Within.chain_eval (hdone : (Recursion.eval keep bound s f).ending ≠ .tooDeep)
    (hroom : bound + frames.length ≤ room) (h : ∀ n, Within keep (bound - 1) n (initial s f))
    (hnext : ∀ v log, (Recursion.eval keep bound s f).ending = .product v →
      Within keep room n (resume keep v frames log k)) :
    Within keep room n ⟨.reduce s f (k :: frames), log⟩ := by
  have hbound : bound ≠ 0 := by
    rintro rfl
    exact hdone rfl
  refine .chain (by omega) h fun v log hv => ?_
  exact hnext v log (hv.ending_eval hdone)

/-- The machine holds no more frames than the recursive engine has evaluations active besides the
outermost one. -/
theorem within_of_eval (h : (Recursion.eval keep bound s f).ending ≠ .tooDeep) (hroom : bound ≤ room + 1)
    (n : Nat) (log : Log) : Within keep room n ⟨.reduce s f [], log⟩ := by
  induction bound generalizing room s f n log with
  | zero => exact absurd rfl h
  | succ bound ih =>
    rw [Recursion.eval_succ] at h
    refine .of_step (Nat.zero_le room) ?_
    refine step_related (R := fun st _ (o : Outcome) => o.ending ≠ .tooDeep → Within keep room n st)
      ?product ?crash ?andThen ?tail s f log h
    case product =>
      intro v log _
      exact .of_feed v log
    case crash =>
      intro r log _
      exact .of_halted (halted_halt none _)
    case andThen =>
      intro s f frame log next hnext h
      have hdone := Outcome.ne_tooDeep_of_andThen h
      refine .chain_eval hdone (Nat.le_of_succ_le_succ hroom) (fun n => ih hdone (by omega) n []) ?_
      intro v log hv
      refine hnext v log ?_
      rwa [← Outcome.ending_andThen_of_product hv]
    case tail =>
      intro s f log h
      exact ih h (by omega) n log

/-- The machine holds no more frames for a formula than the recursive engine needs evaluations. -/
theorem Within.under (hdone : (Recursion.eval keep bound s f).ending ≠ .tooDeep)
    (hroom : bound + frames.length ≤ room)
    (hnext : ∀ v log, (Recursion.eval keep bound s f).ending = .product v →
      Within keep room n (resume keep v frames log k)) :
    Within keep room n ⟨.reduce s f (k :: frames), log⟩ :=
  .chain_eval hdone hroom (fun n => within_of_eval hdone (by omega) n []) hnext

theorem Within.under_product (h : Recursion.eval keep bound s f = .product v)
    (hroom : bound + frames.length ≤ room)
    (hnext : ∀ log, Within keep room n (resume keep v frames log k)) :
    Within keep room n ⟨.reduce s f (k :: frames), log⟩ := by
  refine .under (by rw [h]; exact Ending.noConfusion) hroom fun u log hu => ?_
  rw [h] at hu
  cases hu
  exact hnext log

end Nock.Machine

import Nock.Proofs.Machine.Context
import Nock.Proofs.Recursion.Unbounded

/-!
# Pending frames are left alone

While a formula is reduced on top of some frames, a step takes none of them (`State.Above`) unless the machine
would have halted with a noun if they were not there (`above_nil_iff`). So for as long as they are untouched the
machine does what it does without them (`run_onto_of_untouched`), and they are untouched for exactly as long as
it has work to do without them (`untouched_onto_iff`). That settles how the work on top of them ends: with a noun
for them, with a crash, or not at all.
-/

namespace Nock.Machine

namespace State

/-- All of `below` is pending, and the next step takes none of it: a formula is reduced, or the frame that gets a
noun stands above. -/
def Above (below : List Frame) (st : State) : Prop :=
  match st.control with
  | .reduce _ _ frames => ∃ own, frames = own ++ below
  | .feed _ frames => ∃ k own, frames = k :: (own ++ below)
  | .halt _ => False

/-- The state with further reports in front of its log. -/
def behind (log : Log) (st : State) : State := ⟨st.control, log ++ st.log⟩

end State

/-- In so many steps the machine has neither taken nor changed a frame of `below`. -/
def Untouched (keep : Bool) (below : List Frame) (n : Nat) (st : State) : Prop :=
  ∀ i < n, (run keep i st).Above below

variable {keep : Bool} {st : State} {below : List Frame} {s f v : Noun} {n : Nat} {l log : Log}

/-! ### The log at the start -/

theorem step_behind (keep : Bool) (log : Log) (st : State) :
    step keep (st.behind log) = (step keep st).behind log := by
  obtain ⟨c, l⟩ := st
  show step keep ⟨c, log ++ l⟩ = _
  by_cases hc : c = .halt none
  · rw [hc]
    rfl
  · rcases step_cases hc with ⟨c', -, hstep⟩ | ⟨r, hstep⟩
    · rw [hstep, hstep]
      rfl
    · rw [hstep, hstep, crash, crash, Log.note_eq_append keep (log ++ l), Log.note_eq_append keep l,
        List.append_assoc]
      rfl

theorem run_behind (keep : Bool) (log : Log) (n : Nat) (st : State) :
    run keep n (st.behind log) = (run keep n st).behind log := by
  induction n with
  | zero => rfl
  | succ n ih => rw [run_succ', run_succ', ih, step_behind]

theorem behind_eq_iff {c : Control} : st.behind log = ⟨c, log ++ l⟩ ↔ st = ⟨c, l⟩ := by
  obtain ⟨c', l'⟩ := st
  simp [State.behind]

theorem halted_behind : (st.behind log).Halted ↔ st.Halted := Iff.rfl

/-! ### What the next step takes -/

/-- With no frames below there is work left, unless the machine halts or is about to halt with a noun. -/
theorem above_nil_iff (keep : Bool) :
    st.Above [] ↔ ¬ st.Halted ∧ ∀ v, (step keep st).control ≠ .halt (some v) := by
  constructor
  · intro h
    have hst : ¬ st.Halted := by
      rintro ⟨r, hr⟩
      simp only [State.Above, hr] at h
    refine ⟨hst, fun v hv => ?_⟩
    rw [eq_feed_of_step hv hst] at h
    simp [State.Above] at h
  · rintro ⟨hst, hgoes⟩
    obtain ⟨c, l⟩ := st
    rcases c with ⟨s, f, frames⟩ | ⟨v, _ | ⟨k, frames⟩⟩ | r
    · exact ⟨frames, by simp⟩
    · exact absurd rfl (hgoes v)
    · exact ⟨k, frames, by simp⟩
    · exact absurd (halted_halt r l) hst

theorem above_onto_iff : (st.onto below).Above below ↔ st.Above [] := by
  obtain ⟨c, l⟩ := st
  rcases c with ⟨s, f, frames⟩ | ⟨v, frames⟩ | _ | v
  · simp [State.Above, State.onto, Control.onto]
  · show (∃ k own, frames ++ below = k :: own ++ below) ↔ ∃ k own, frames = k :: (own ++ [])
    simp only [List.append_cancel_right_eq, List.append_nil]
  · exact Iff.rfl
  · -- the noun that the machine halts with goes to the first frame of `below`
    show (∃ k own, below = k :: own ++ below) ↔ False
    rw [iff_false]
    rintro ⟨k, own, h⟩
    have hlength := congrArg List.length h
    simp only [List.length_append, List.length_cons] at hlength
    omega

/-! ### Runs -/

theorem untouched_succ :
    Untouched keep below (n + 1) st ↔ Untouched keep below n st ∧ (run keep n st).Above below :=
  Nat.forall_lt_succ_right

/-- A machine that has not halted by now has had work to do all the time. -/
theorem untouched_of_not_halted (h : ¬ (run keep n st).Halted) : Untouched keep [] n st := by
  intro i hi
  obtain ⟨d, rfl⟩ := Nat.exists_eq_add_of_lt hi
  have hnext : ¬ (step keep (run keep i st)).Halted := by
    intro hhalted
    rw [Nat.add_right_comm, run_add, run_succ', run_of_halted hhalted] at h
    exact h hhalted
  refine (above_nil_iff keep).2 ⟨fun hi => hnext ?_, fun v hv => hnext ⟨_, hv⟩⟩
  rwa [step_of_halted hi]

theorem run_onto_of_untouched (hst : ¬ st.Halted) (h : Untouched keep [] n st) :
    run keep n (st.onto below) = (run keep n st).onto below := by
  refine run_onto fun v hv => ?_
  cases n with
  | zero => exact hst ⟨_, hv⟩
  | succ n =>
    rw [run_succ'] at hv
    exact ((above_nil_iff keep).1 (untouched_succ.1 h).2).2 v hv

theorem untouched_onto_iff (hst : ¬ st.Halted) :
    Untouched keep below n (st.onto below) ↔ Untouched keep [] n st := by
  induction n with
  | zero => exact ⟨fun _ _ hi => absurd hi (Nat.not_lt_zero _), fun _ _ hi => absurd hi (Nat.not_lt_zero _)⟩
  | succ n ih =>
    rw [untouched_succ, untouched_succ, ih]
    refine and_congr_right fun h => ?_
    rw [run_onto_of_untouched hst h]
    exact above_onto_iff

theorem onto_eq_feed (h : st.onto below = ⟨.feed v below, l⟩) :
    st = ⟨.feed v [], l⟩ ∨ st = ⟨.halt (some v), l⟩ := by
  obtain ⟨c, l'⟩ := st
  obtain ⟨hc, rfl⟩ := State.mk.inj h
  rcases c with ⟨s, f, frames⟩ | ⟨u, frames⟩ | _ | u
  · cases hc
  · obtain ⟨rfl, hframes⟩ := Control.feed.inj hc
    obtain rfl := List.append_left_eq_self.1 hframes
    exact .inl rfl
  · cases hc
  · obtain ⟨rfl, -⟩ := Control.feed.inj hc
    exact .inr rfl

theorem onto_eq_crash_iff : st.onto below = ⟨.halt none, l⟩ ↔ st = ⟨.halt none, l⟩ := by
  obtain ⟨_ | _ | _ | _, _⟩ := st <;> simp [State.onto, Control.onto]

/-- The frames get the noun that the machine would halt with. -/
theorem feeds_onto_iff (hst : ¬ st.Halted) :
    (∃ n, Untouched keep below n (st.onto below) ∧ run keep n (st.onto below) = ⟨.feed v below, l⟩) ↔
      ∃ n, run keep n st = ⟨.halt (some v), l⟩ := by
  constructor
  · rintro ⟨n, huntouched, hrun⟩
    rw [run_onto_of_untouched hst ((untouched_onto_iff hst).1 huntouched)] at hrun
    rcases onto_eq_feed hrun with h | h
    · exact ⟨n + 1, by rw [run_succ', h]; rfl⟩
    · exact ⟨n, h⟩
  · rintro ⟨n, hn⟩
    obtain ⟨m, -, hm⟩ := exists_feed_of_run (by rw [hn]) hst
    rw [hn] at hm
    have huntouched : Untouched keep [] m st := by
      refine untouched_of_not_halted ?_
      rw [hm]
      rintro ⟨r, hr⟩
      cases hr
    refine ⟨m, (untouched_onto_iff hst).2 huntouched, ?_⟩
    rw [run_onto_of_untouched hst huntouched, hm]
    rfl

/-- A crash comes while there is work left. -/
theorem exists_untouched_of_crash (h : run keep n st = ⟨.halt none, l⟩) (hst : ¬ st.Halted) :
    ∃ m, Untouched keep [] m st ∧ run keep m st = ⟨.halt none, l⟩ := by
  induction n with
  | zero => exact absurd ⟨none, congrArg State.control h⟩ hst
  | succ n ih =>
    rw [run_succ'] at h
    by_cases hn : (run keep n st).Halted
    · rw [step_of_halted hn] at h
      exact ih h
    · refine ⟨n + 1, untouched_succ.2 ⟨untouched_of_not_halted hn, (above_nil_iff keep).2 ⟨hn, ?_⟩⟩, ?_⟩
      · intro v hv
        rw [h] at hv
        cases hv
      · rw [run_succ', h]

theorem crashes_onto_iff (hst : ¬ st.Halted) :
    (∃ n, Untouched keep below n (st.onto below) ∧ run keep n (st.onto below) = ⟨.halt none, l⟩) ↔
      ∃ n, run keep n st = ⟨.halt none, l⟩ := by
  constructor
  · rintro ⟨n, huntouched, hrun⟩
    rw [run_onto_of_untouched hst ((untouched_onto_iff hst).1 huntouched)] at hrun
    exact ⟨n, onto_eq_crash_iff.1 hrun⟩
  · rintro ⟨n, hn⟩
    obtain ⟨m, huntouched, hm⟩ := exists_untouched_of_crash hn hst
    refine ⟨m, (untouched_onto_iff hst).2 huntouched, ?_⟩
    rw [run_onto_of_untouched hst huntouched]
    exact onto_eq_crash_iff.2 hm

theorem untouched_onto_forever_iff (hst : ¬ st.Halted) :
    (∀ n, Untouched keep below n (st.onto below)) ↔ ∀ n, ¬ (run keep n st).Halted := by
  constructor
  · intro h n
    have huntouched := (untouched_onto_iff hst).1 (h (n + 1))
    exact ((above_nil_iff keep).1 (untouched_succ.1 huntouched).2).1
  · exact fun h n => (untouched_onto_iff hst).2 (untouched_of_not_halted (h n))

/-- What becomes of a formula does not depend on the frames that are pending, nor on the log. It feeds a noun to
exactly these frames, all of which it has left alone, if and only if without them the machine halts with that
noun. Before it takes any of them it crashes, or it runs for ever and takes none, if and only if the machine does
so without them. The reports are the same. -/
theorem pending_frames_left_alone (keep : Bool) (s f : Noun) (below : List Frame) (log : Log) :
    (∀ v l, (∃ n, Untouched keep below n ⟨.reduce s f below, log⟩ ∧
        run keep n ⟨.reduce s f below, log⟩ = ⟨.feed v below, log ++ l⟩) ↔
      ∃ n, run keep n (initial s f) = ⟨.halt (some v), l⟩) ∧
    (∀ l, (∃ n, Untouched keep below n ⟨.reduce s f below, log⟩ ∧
        run keep n ⟨.reduce s f below, log⟩ = ⟨.halt none, log ++ l⟩) ↔
      ∃ n, run keep n (initial s f) = ⟨.halt none, l⟩) ∧
    ((∀ n, Untouched keep below n ⟨.reduce s f below, log⟩) ↔ ∀ n, ¬ (run keep n (initial s f)).Halted) := by
  have hstart : (⟨.reduce s f below, log⟩ : State) = ((initial s f).behind log).onto below := by
    show _ = (⟨.reduce s f below, log ++ []⟩ : State)
    rw [List.append_nil]
  have hst : ¬ ((initial s f).behind log).Halted := not_halted_reduce s f [] _
  rw [hstart]
  refine ⟨fun v l => ?_, fun l => ?_, ?_⟩
  · simp only [feeds_onto_iff hst, run_behind, behind_eq_iff]
  · simp only [crashes_onto_iff hst, run_behind, behind_eq_iff]
  · simp only [untouched_onto_forever_iff hst, run_behind, halted_behind]

end Nock.Machine

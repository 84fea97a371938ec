import Nock.Proofs.Program.Loop

/-!
# Tail calls

A formula in tail position is reduced with the frames that the formula around it found
(`TailCall.reaches`). Loops are made of such formulas, so the two looping programs hold a few frames
however long they run (`tail_calls_keep_frames`).
-/

namespace Nock.Machine

variable {keep : Bool} {s f s' f' b x : Noun}

/-- On `s`, the formula ends as another one on another subject, both given by its instruction. -/
inductive TailCall (keep : Bool) (s : Noun) : (f s' f' : Noun) → Prop
  | reduce {b c x y : Noun} : Halts keep s b (some x) → Halts keep s c (some y) →
      TailCall keep s (.cell 2 (.cell b c)) x y
  | branchYes {b c d : Noun} : Halts keep s b (some 0) →
      TailCall keep s (.cell 6 (.cell b (.cell c d))) s c
  | branchNo {b c d : Noun} : Halts keep s b (some 1) →
      TailCall keep s (.cell 6 (.cell b (.cell c d))) s d
  | compose {b c x : Noun} : Halts keep s b (some x) → TailCall keep s (.cell 7 (.cell b c)) x c
  | push {b c x : Noun} : Halts keep s b (some x) →
      TailCall keep s (.cell 8 (.cell b c)) (.cell x s) c
  | invoke {axis c core arm : Noun} : Halts keep s c (some core) → axis.findAt? core = some arm →
      TailCall keep s (.cell 9 (.cell axis c)) core arm
  | staticHint {h : Nat} {c : Noun} : TailCall keep s (.cell 11 (.cell (.atom h) c)) s c

theorem reaches_resume (h : Halts keep s b (some x)) (k : Frame) (frames : List Frame) (log : Log) :
    Reaches keep ⟨.reduce s b (k :: frames), log⟩ (resume keep x frames log k) :=
  (reaches_feed h (k :: frames) log).trans (.step (.refl _))

/-- A tail call takes a step at least. -/
theorem TailCall.step_reaches (h : TailCall keep s f s' f') (frames : List Frame) (log : Log) :
    Reaches keep (step keep ⟨.reduce s f frames, log⟩) ⟨.reduce s' f' frames, log⟩ := by
  cases h with
  | reduce hb hc => exact (reaches_resume hb _ frames log).trans (reaches_resume hc _ frames log)
  | branchYes hb => exact reaches_resume hb _ frames log
  | branchNo hb => exact reaches_resume hb _ frames log
  | compose hb => exact reaches_resume hb _ frames log
  | push hb => exact reaches_resume hb _ frames log
  | @invoke axis c _ _ hc harm =>
    have hcore := reaches_resume hc (.invoke axis) frames log
    simp only [resume, harm] at hcore
    exact hcore
  | staticHint => exact .refl _

theorem TailCall.reaches (h : TailCall keep s f s' f') (frames : List Frame) (log : Log) :
    Reaches keep ⟨.reduce s f frames, log⟩ ⟨.reduce s' f' frames, log⟩ :=
  .step (h.step_reaches frames log)

/-- A tail call is made with the frames that are there, whatever they are. So the program that finds the
number before its subject never holds more than 3 frames, and the one that adds never more than 4. -/
theorem tail_calls_keep_frames (keep : Bool) :
    (∀ s f s' f' : Noun, TailCall keep s f s' f' → ∀ (frames : List Frame) (log : Log),
      Reaches keep ⟨.reduce s f frames, log⟩ ⟨.reduce s' f' frames, log⟩) ∧
    (∀ (s : Noun) (n : Nat), (run keep n (initial s Program.decrement)).frames.length ≤ 3) ∧
    ∀ (s : Noun) (n : Nat), (run keep n (initial s Program.add)).frames.length ≤ 4 := by
  refine ⟨fun s f s' f' h frames log => h.reaches frames log, fun s n => ?_, fun s n => ?_⟩
  · exact Program.within_decrement keep n s n le_rfl
  · exact Program.within_add keep n s n le_rfl

/-- An arm is invoked on its core under a pending increment. -/
theorem invoke_keeps_increment :
    TailCall true 5 (.cell 9 (.cell 2 (.cell 1 (.cell (.cell 0 3) 7)))) (.cell (.cell 0 3) 7) (.cell 0 3) ∧
    Reaches true ⟨.reduce 5 (.cell 9 (.cell 2 (.cell 1 (.cell (.cell 0 3) 7)))) [.increment], []⟩
      ⟨.reduce (.cell (.cell 0 3) 7) (.cell 0 3) [.increment], []⟩ := by
  have h : TailCall true 5 (.cell 9 (.cell 2 (.cell 1 (.cell (.cell 0 3) 7)))) (.cell (.cell 0 3) 7)
      (.cell 0 3) := .invoke ⟨2, rfl⟩ rfl
  exact ⟨h, (tail_calls_keep_frames true).1 _ _ _ _ h [.increment] []⟩

end Nock.Machine

import Nock.Proofs.Machine.TailCall
import Nock.Proofs.Table

/-!
# How runs end

A run that comes to a formula on its own, with no frames, ends as that formula does (`Halts.of_reaches`,
`Endless.of_reaches`). The stack engine returns what the machine halts with once it may take so many
steps, and is cut off under every bound if the machine runs for ever.
-/

namespace Nock

namespace Machine

variable {keep : Bool} {s f s' f' : Noun} {r : Option Noun}

/-- The machine runs for ever. -/
def Endless (keep : Bool) (s f : Noun) : Prop := ∀ n, RunsFor keep n (initial s f)

theorem Halts.of_reaches (h : Reaches keep (initial s f) (initial s' f')) (h' : Halts keep s' f' r) :
    Halts keep s f r := by
  obtain ⟨m, hm⟩ := h
  obtain ⟨n, hn⟩ := h'
  exact ⟨m + n, by rw [run_add, hm, hn]⟩

theorem Endless.of_reaches (h : Reaches keep (initial s f) (initial s' f')) (h' : Endless keep s' f') :
    Endless keep s f :=
  fun n => .of_reaches h (h' n)

/-- The machine halts as an evaluation under some bound ends. -/
theorem Halts.of_eval (bound : Nat) (h : (Recursion.eval keep bound s f).ending = .ofResult r) :
    Halts keep s f r :=
  .of_returned (Outcome.returned?_eq_some.2 ⟨h, rfl⟩)

theorem TailCall.halts (h : TailCall keep s f s' f') (h' : Halts keep s' f' r) : Halts keep s f r :=
  h'.of_reaches (h.reaches [] [])

end Machine

open Machine (Halts Endless)

variable {settings : Settings} {s f : Noun} {r : Option Noun}

/-- With enough steps the stack engine gives the pair this result; `none` is a crash. -/
def StackReturns (settings : Settings) (pair : Noun) (r : Option Noun) : Prop :=
  ∃ steps, ∀ bounds : Bounds, steps ≤ bounds.steps →
    (nock settings bounds (.text "stack") (.ofNoun pair)).result = .ok r

/-- No number of steps is enough for the stack engine. -/
def StackRunsForever (settings : Settings) (pair : Noun) : Prop :=
  ∀ bounds : Bounds,
    (nock settings bounds (.text "stack") (.ofNoun pair)).result = .error .unfinished

theorem nock_stack (settings : Settings) (bounds : Bounds) (s f : Noun) :
    nock settings bounds (.text "stack") (.ofNoun (.cell s f)) =
      (Engine.outcomeOf (Machine.run settings.keepReports bounds.steps (Machine.initial s f))).toAnswer := by
  rw [nock_ofNoun]
  rfl

theorem StackReturns.of_halts (h : Halts settings.keepReports s f r) :
    StackReturns settings (.cell s f) r := by
  obtain ⟨n, hn⟩ := h
  refine ⟨n, fun bounds hbounds => ?_⟩
  obtain ⟨d, hd⟩ := Nat.exists_eq_add_of_le hbounds
  rw [nock_stack, hd, Machine.run_add, Machine.run_of_halted ⟨r, hn⟩, Engine.outcomeOf_result_iff]
  exact hn

theorem StackRunsForever.of_endless (h : Endless settings.keepReports s f) :
    StackRunsForever settings (.cell s f) := by
  intro bounds
  have hruns : ¬ (Machine.run settings.keepReports bounds.steps (Machine.initial s f)).Halted :=
    h bounds.steps
  rw [nock_stack]
  generalize Machine.run settings.keepReports bounds.steps (Machine.initial s f) = st at hruns
  obtain ⟨_ | _ | r, log⟩ := st
  · rfl
  · rfl
  · exact absurd (Machine.halted_halt r log) hruns

end Nock

import Nock.Evaluation.Scheme

/-!
# The recursive engine without a bound

The recursive engine on a host whose call stack has no end. An evaluation then returns a noun or
crashes, in both cases with the log that it has written to, or it runs for ever. `reduceUnbounded` is
the least solution of the rules of reduction, so `none` is exactly an evaluation without an end.
-/

namespace Nock

/-- An evaluation that writes to a log. It gives a result, crashes or does not end; the log outlives a
crash. -/
abbrev Run : Type → Type := OptionT (StateT Log Option)

namespace Run

def crash (keep : Bool) (r : Report) : Run Noun := do
  modifyThe Log (·.note keep r)
  failure

/-- Chains stop at the first crash. -/
def scheme (keep : Bool) : Scheme (Run Noun) where
  product v := return v
  crash := crash keep
  andThen := bind

/-- The second evaluation is the first, unless that one does not end. -/
def Extends (m m' : Run Noun) : Prop := ∀ log, m log = none ∨ m log = m' log

theorem Extends.bind {m m' : Run Noun} {next next' : Noun → Run Noun} (h : Extends m m')
    (hnext : ∀ v, Extends (next v) (next' v)) : Extends (m >>= next) (m' >>= next') := by
  intro log
  show (m log).bind _ = none ∨ (m log).bind _ = (m' log).bind _
  rcases h log with h | h
  · exact .inl (by rw [h]; rfl)
  · rw [← h]
    rcases m log with _ | ⟨_ | v, l⟩
    · exact .inl rfl
    · exact .inr rfl
    · exact hnext v l

theorem rule_extends (keep : Bool) {call call' : Noun → Noun → Run Noun}
    (h : ∀ s f, Extends (call s f) (call' s f)) (s f : Noun) :
    Extends ((scheme keep).rule call s f) ((scheme keep).rule call' s f) :=
  Scheme.rule_related (fun _ _ => .inr rfl) (fun _ _ => .inr rfl) Extends.bind h s f

end Run

namespace Noun

variable (keep : Bool)

/-- Reduces a formula on a subject, with any number of evaluations active: the result, or a crash
(`none`), and the log behind it. -/
def reduceUnbounded (s f : Noun) (log : Log) : Option (Option Noun × Log) :=
  (Run.scheme keep).rule (fun s f => s |>.reduceUnbounded f) s f log
partial_fixpoint monotonicity by
  -- the order of solutions is `Extends` at each subject and formula
  intro call call' h s f log
  have hcall (s f : Noun) : Run.Extends (call s f) (call' s f) := by
    intro log
    have := h s f log
    generalize call s f log = m, call' s f log = m' at this
    cases this with
    | bot => exact .inl rfl
    | refl => exact .inr rfl
  dsimp only
  rcases Run.rule_extends keep hcall s f log with hrule | hrule
  · rw [hrule]
    exact .bot
  · rw [hrule]
    exact .refl

end Noun

end Nock

import Mathlib.Order.Filter.AtTopBot.Basic
import Nock.Evaluation.Unbounded
import Nock.Proofs.Recursion.Bounded

/-!
# The bounded engine approaches the unbounded one

What the recursive engine returns under some bound is what it returns without one
(`eval_foretells`), and whatever it returns without a bound it returns under all bounds from some one
on (`reduceUnbounded_eq_some_iff`). So a bound that is too small can only be told, never be mistaken for a
crash or a noun.
-/

namespace Nock

open Filter
open Noun (reduceUnbounded)

theorem Log.note_eq_append (keep : Bool) (log : Log) (r : Report) :
    Log.note keep log r = log ++ Log.note keep [] r := by
  cases keep <;> simp [note]

namespace Run

variable {keep : Bool} {α β : Type} {log : Log}

theorem bind_of_some {m : Run α} {next : α → Run β} {x : α} {l : Log}
    (h : m log = some (some x, l)) : (m >>= next) log = next x l := by
  show (m log).bind _ = _
  rw [h]
  rfl

theorem bind_of_none {m : Run α} {next : α → Run β} {l : Log} (h : m log = some (none, l)) :
    (m >>= next) log = some (none, l) := by
  show (m log).bind _ = _
  rw [h]
  rfl

theorem bind_eq_some {m : Run α} {next : α → Run β} {r : Option β} {l : Log} :
    (m >>= next) log = some (r, l) ↔
      (∃ x l', m log = some (some x, l') ∧ next x l' = some (r, l)) ∨
        r = none ∧ m log = some (none, l) := by
  constructor
  · intro h
    obtain ⟨⟨_ | x, l'⟩, hm, hnext⟩ := Option.bind_eq_some_iff.1 h
    · cases hnext
      exact .inr ⟨rfl, hm⟩
    · exact .inl ⟨x, l', hm, hnext⟩
  · rintro (⟨x, l', hm, hnext⟩ | ⟨rfl, hm⟩)
    · rw [bind_of_some hm, hnext]
    · exact bind_of_none hm

end Run

namespace Recursion

variable {keep : Bool} {s f : Noun} {log : Log} {r : Option Noun} {l : Log}

/-- An unbounded evaluation returns what a bounded one returns, if that one returns anything. -/
def Foretells (o : Outcome) (m : Run Noun) : Prop :=
  ∀ r l log, o.returned? = some (r, l) → m log = some (r, log ++ l)

namespace Foretells

theorem product (v : Noun) : Foretells (.product v) (pure v) := by
  intro r l log h
  cases h
  show some (some v, log) = some (some v, log ++ [])
  rw [List.append_nil]

theorem crash (r : Report) : Foretells (.crash keep r) (.crash keep r) := by
  intro _ l log h
  cases h
  exact congrArg (fun l => some (none, l)) (Log.note_eq_append keep log r)

theorem andThen {o : Outcome} {m : Run Noun} {next : Noun → Outcome} {next' : Noun → Run Noun}
    (h : Foretells o m) (hnext : ∀ v, Foretells (next v) (next' v)) :
    Foretells (o.andThen next) (m >>= next') := by
  intro r l log hr
  rcases Outcome.returned?_andThen.1 hr with ⟨v, l₁, l₂, h₁, h₂, rfl⟩ | ⟨rfl, h₁⟩
  · rw [Run.bind_of_some (h _ _ log h₁), hnext v _ _ _ h₂, List.append_assoc]
  · exact Run.bind_of_none (h _ _ log h₁)

end Foretells

theorem eval_foretells (bound : Nat) (s f : Noun) :
    Foretells (eval keep bound s f) (reduceUnbounded keep s f) := by
  induction bound generalizing s f with
  | zero => intro r l log h; cases h
  | succ bound ih =>
    rw [eval_succ, funext (Noun.reduceUnbounded.eq_1 keep s f)]
    exact Scheme.rule_related Foretells.product Foretells.crash Foretells.andThen ih s f

/-- Whatever an unbounded evaluation returns, the bounded ones return from some bound on. -/
def Attained (m : Run Noun) (o : Nat → Outcome) : Prop :=
  ∀ log r l, m log = some (r, l) →
    ∃ l', log ++ l' = l ∧ ∀ᶠ bound in atTop, (o bound).returned? = some (r, l')

namespace Attained

theorem product (v : Noun) : Attained (pure v) fun _ => .product v := by
  intro log r l h
  cases h
  exact ⟨[], List.append_nil log, .of_forall fun _ => rfl⟩

theorem crash (r : Report) : Attained (.crash keep r) fun _ => .crash keep r := by
  intro log _ l h
  cases h
  exact ⟨_, (Log.note_eq_append keep log r).symm, .of_forall fun _ => rfl⟩

theorem andThen {m : Run Noun} {o : Nat → Outcome} {next' : Noun → Run Noun}
    {next : Noun → Nat → Outcome} (h : Attained m o) (hnext : ∀ v, Attained (next' v) (next v)) :
    Attained (m >>= next') fun bound => (o bound).andThen fun v => next v bound := by
  intro log r l hr
  rcases Run.bind_eq_some.1 hr with ⟨v, l₁, h₁, h₂⟩ | ⟨rfl, h₁⟩
  · obtain ⟨l', rfl, hev⟩ := h _ _ _ h₁
    obtain ⟨l'', rfl, hev'⟩ := hnext v _ _ _ h₂
    refine ⟨l' ++ l'', (List.append_assoc ..).symm, ?_⟩
    filter_upwards [hev, hev'] with bound hb hb'
    exact Outcome.returned?_andThen.2 (.inl ⟨v, l', l'', hb, hb', rfl⟩)
  · obtain ⟨l', rfl, hev⟩ := h _ _ _ h₁
    refine ⟨l', rfl, ?_⟩
    filter_upwards [hev] with bound hb
    exact Outcome.returned?_andThen.2 (.inr ⟨rfl, hb⟩)

theorem of_succ {m : Run Noun} {o : Nat → Outcome} (h : Attained m fun bound => o (bound + 1)) :
    Attained m o := by
  intro log r l hr
  obtain ⟨l', hl, hev⟩ := h log r l hr
  exact ⟨l', hl, map_add_atTop_eq_nat 1 ▸ hev⟩

end Attained

theorem reduceUnbounded_attained (s f : Noun) :
    Attained (reduceUnbounded keep s f) fun bound => eval keep bound s f := by
  intro log r l h
  refine Noun.reduceUnbounded.partial_correctness keep (fun s f log res => ∃ l', log ++ l' = res.2 ∧
    ∀ᶠ bound in atTop, (eval keep bound s f).returned? = some (res.1, l')) ?_ s f log (r, l) h
  rintro call hcall s f log ⟨r, l⟩ h
  have ih : ∀ s f, Attained (call s f) fun bound => eval keep bound s f :=
    fun s f log r l h => hcall s f log (r, l) h
  have hrule : Attained ((Run.scheme keep).rule call s f)
      ((Outcome.scheme keep).pi.rule (fun s f bound => eval keep bound s f) s f) :=
    Scheme.rule_related Attained.product Attained.crash Attained.andThen ih s f
  -- one evaluation is active besides those that it calls
  have hsucc : (Outcome.scheme keep).pi.rule (fun s f bound => eval keep bound s f) s f =
      fun bound => eval keep (bound + 1) s f := by
    funext bound
    rw [Scheme.rule_pi, eval_succ]
  rw [hsucc] at hrule
  exact hrule.of_succ log r l h

/-- The unbounded engine returns exactly what the bounded one returns under some bound. -/
theorem reduceUnbounded_eq_some_iff :
    reduceUnbounded keep s f [] = some (r, l) ↔ ∃ bound, (eval keep bound s f).returned? = some (r, l) := by
  constructor
  · intro h
    obtain ⟨l', rfl, hev⟩ := reduceUnbounded_attained s f [] r l h
    exact hev.exists
  · rintro ⟨bound, h⟩
    exact eval_foretells bound s f r l [] h

theorem reduceUnbounded_eq_none_iff :
    reduceUnbounded keep s f [] = none ↔ ∀ bound, eval keep bound s f = .tooDeep := by
  rw [Option.eq_none_iff_forall_ne_some]
  constructor
  · intro h bound
    rcases eval_eq_tooDeep_or_returned keep bound s f with hdeep | ⟨r, l, hr⟩
    · exact hdeep
    · exact absurd (reduceUnbounded_eq_some_iff.2 ⟨bound, hr⟩) (h (r, l))
  · rintro h ⟨r, l⟩ hr
    obtain ⟨bound, hb⟩ := reduceUnbounded_eq_some_iff.1 hr
    rw [h bound] at hb
    cases hb

/-- An evaluation that returns without a bound returns the same under each bound from some positive
one on and is told to be too deep under all smaller ones; one that does not end is told to be too deep
under every bound. A larger bound changes no result. -/
theorem answer_threshold (keep : Bool) (s f : Noun) :
    (match reduceUnbounded keep s f [] with
      | some (r, l) => ∃ D, 1 ≤ D ∧ ∀ bounds : Bounds,
          (Engine.recursive.reduce bounds keep s f).toAnswer =
            if D ≤ bounds.nesting then ⟨.ok r, l⟩ else ⟨.error .tooDeep, []⟩
      | none => ∀ bounds : Bounds,
          (Engine.recursive.reduce bounds keep s f).toAnswer = ⟨.error .tooDeep, []⟩) ∧
    ∀ (bounds bounds' : Bounds) (r : Option Noun), bounds.nesting ≤ bounds'.nesting →
      (Engine.recursive.reduce bounds keep s f).toAnswer.result = .ok r →
        (Engine.recursive.reduce bounds' keep s f).toAnswer =
          (Engine.recursive.reduce bounds keep s f).toAnswer := by
  refine ⟨?_, fun bounds bounds' r hle hr => ?_⟩
  · split
    · next r l h =>
      obtain ⟨bound, hb⟩ := reduceUnbounded_eq_some_iff.1 h
      obtain ⟨D, hD, hall⟩ := exists_threshold (Outcome.ending_ne_tooDeep hb)
      refine ⟨D, hD, fun bounds => ?_⟩
      rw [Engine.reduce, hall]
      split
      · exact Outcome.toAnswer_of_returned hb
      · rfl
    · next h =>
      intro bounds
      rw [Engine.reduce, reduceUnbounded_eq_none_iff.1 h]
      rfl
  · refine congrArg Outcome.toAnswer (eval_stable (fun hdeep => ?_) hle)
    rw [Engine.reduce, eval_eq_tooDeep hdeep] at hr
    cases hr

end Recursion

end Nock

import Nock.Evaluation.Entry

/-!
# Chains of evaluations

What `Outcome.andThen` does to an ending, to what is returned and to the log. A chain returns a noun
if all its evaluations return nouns, and otherwise ends as the first evaluation that does not.
-/

namespace Nock

/-- A result of an evaluation as an ending; `none` is a crash. -/
def Ending.ofResult : Option Noun → Ending
  | some v => .product v
  | none => .crash

namespace Outcome

variable {o o' : Outcome} {next next' : Noun → Outcome} {v : Noun} {r : Option Noun} {l : Log}

theorem andThen_of_product (h : o.ending = .product v) :
    o.andThen next = ⟨(next v).ending, o.log ++ (next v).log⟩ := by
  simp only [andThen, h]

theorem andThen_of_ne_product (h : ∀ v, o.ending ≠ .product v) : o.andThen next = o := by
  unfold andThen
  split
  · next v hv => exact absurd hv (h v)
  · rfl

/-- The ending of a chain is that of its last evaluation, or the first ending that is no product. -/
theorem ending_andThen_cases (o : Outcome) (next : Noun → Outcome) :
    (∃ v, o.ending = .product v ∧ o.andThen next = ⟨(next v).ending, o.log ++ (next v).log⟩) ∨
      (∀ v, o.ending ≠ .product v) ∧ o.andThen next = o := by
  by_cases h : ∃ v, o.ending = .product v
  · obtain ⟨v, hv⟩ := h
    exact .inl ⟨v, hv, andThen_of_product hv⟩
  · have h' : ∀ v, o.ending ≠ .product v := fun v hv => h ⟨v, hv⟩
    exact .inr ⟨h', andThen_of_ne_product h'⟩

theorem ending_andThen_of_product (h : o.ending = .product v) :
    (o.andThen next).ending = (next v).ending := by
  rw [andThen_of_product h]

theorem ne_tooDeep_of_andThen (h : (o.andThen next).ending ≠ .tooDeep) : o.ending ≠ .tooDeep := by
  intro hdeep
  rw [andThen_of_ne_product fun v hv => Ending.noConfusion (hdeep.symm.trans hv)] at h
  exact h hdeep

/-- The second outcome is the first, unless a bound cut the first one off. -/
def LeadsTo (o o' : Outcome) : Prop := o.ending = .tooDeep ∨ o = o'

theorem LeadsTo.andThen (h : o.LeadsTo o') (hnext : ∀ v, (next v).LeadsTo (next' v)) :
    (o.andThen next).LeadsTo (o'.andThen next') := by
  rcases h with hdeep | rfl
  · exact .inl (by rw [andThen_of_ne_product (by simp [hdeep])]; exact hdeep)
  · rcases ending_andThen_cases o next with ⟨v, hv, heq⟩ | ⟨hne, heq⟩
    · rw [heq, andThen_of_product hv]
      rcases hnext v with hdeep | hsame
      · exact .inl hdeep
      · exact .inr (by rw [hsame])
    · exact .inr (by rw [heq, andThen_of_ne_product hne])

/-- One report for a crash, if reports are kept, and none for anything else. -/
def LogFits (keep : Bool) (o : Outcome) : Prop :=
  match o.ending with
  | .crash => ∃ r, o.log = Log.note keep [] r
  | .product _ | .tooDeep | .unfinished => o.log = []

theorem LogFits.of_product {keep : Bool} (h : o.LogFits keep) (hv : o.ending = .product v) :
    o.log = [] := by
  simpa only [LogFits, hv] using h

theorem LogFits.andThen {keep : Bool} (h : o.LogFits keep) (hnext : ∀ v, (next v).LogFits keep) :
    (o.andThen next).LogFits keep := by
  rcases ending_andThen_cases o next with ⟨v, hv, heq⟩ | ⟨_, heq⟩
  · rw [heq, h.of_product hv]
    exact hnext v
  · rw [heq]
    exact h

theorem ending_andThen_ne {e : Ending} (h : o.ending ≠ e) (hnext : ∀ v, (next v).ending ≠ e) :
    (o.andThen next).ending ≠ e := by
  rcases ending_andThen_cases o next with ⟨v, _, heq⟩ | ⟨_, heq⟩
  · rw [heq]
    exact hnext v
  · rw [heq]
    exact h

theorem ending_andThen_congr (h : o.ending = o'.ending)
    (hnext : ∀ v, (next v).ending = (next' v).ending) :
    (o.andThen next).ending = (o'.andThen next').ending := by
  rcases ending_andThen_cases o next with ⟨v, hv, heq⟩ | ⟨hne, heq⟩
  · rw [heq, andThen_of_product (h ▸ hv)]
    exact hnext v
  · rw [heq, andThen_of_ne_product fun v hv => hne v (h.trans hv)]
    exact h

/-- The result of an evaluation, or a crash (`none`), and its log; nothing if a bound cut it off. -/
def returned? (o : Outcome) : Option (Option Noun × Log) :=
  match o.ending with
  | .product v => some (some v, o.log)
  | .crash => some (none, o.log)
  | .tooDeep | .unfinished => none

theorem returned?_eq_some : o.returned? = some (r, l) ↔ o.ending = .ofResult r ∧ o.log = l := by
  unfold returned?
  cases o.ending <;> cases r <;> simp [Ending.ofResult]

theorem returned?_andThen : (o.andThen next).returned? = some (r, l) ↔
    (∃ v l₁ l₂, o.returned? = some (some v, l₁) ∧ (next v).returned? = some (r, l₂) ∧ l₁ ++ l₂ = l) ∨
      r = none ∧ o.returned? = some (none, l) := by
  simp only [returned?_eq_some]
  rcases ending_andThen_cases o next with ⟨v, hv, heq⟩ | ⟨hne, heq⟩
  · rw [heq]
    constructor
    · rintro ⟨hr, hl⟩
      exact .inl ⟨v, _, _, ⟨hv, rfl⟩, ⟨hr, rfl⟩, hl⟩
    · rintro (⟨v', _, _, ⟨hv', rfl⟩, ⟨hr, rfl⟩, rfl⟩ | ⟨_, hc, _⟩)
      · cases Ending.product.inj (hv.symm.trans hv')
        exact ⟨hr, rfl⟩
      · rw [hv] at hc
        cases hc
  · rw [heq]
    constructor
    · rintro ⟨hr, hl⟩
      cases r with
      | none => exact .inr ⟨rfl, hr, hl⟩
      | some v => exact absurd hr (hne v)
    · rintro (⟨v, _, _, ⟨hv, _⟩, _⟩ | ⟨rfl, hr⟩)
      · exact absurd hv (hne v)
      · exact hr

theorem ending_ne_tooDeep (h : o.returned? = some (r, l)) : o.ending ≠ .tooDeep := by
  rw [(returned?_eq_some.1 h).1]
  cases r <;> exact Ending.noConfusion

/-- An answer to the caller that is no error is what the evaluation returned. -/
theorem toAnswer_of_returned (h : o.returned? = some (r, l)) : o.toAnswer = ⟨.ok r, l⟩ := by
  obtain ⟨hend, rfl⟩ := returned?_eq_some.1 h
  unfold toAnswer
  rw [hend]
  cases r <;> rfl

end Outcome

end Nock

import Nock.Proofs.Recursion.Bounded

/-!
# How deep evaluations nest

`Nests keep s f depth v`: the evaluation gives `v` and has `depth` evaluations active at its deepest, so it is
cut off under every smaller bound and gives `v` under all others. A chain is as deep as its deepest link
(`Takes.andThen`), and an evaluation is one deeper than its rule (`Nests.of_rule`); the opcodes follow.
-/

namespace Nock.Recursion

/-- The outcomes under all bounds are too deep below `depth`, and the noun from there on. -/
def Takes (o : Nat → Outcome) (depth : Nat) (v : Noun) : Prop :=
  ∀ bound, o bound = if depth ≤ bound then .product v else .tooDeep

namespace Takes

variable {o : Nat → Outcome} {d d' : Nat} {x v : Noun}

theorem product (v : Noun) : Takes (fun _ => .product v) 0 v := fun _ => rfl

theorem andThen {next : Noun → Nat → Outcome} (h : Takes o d x) (h' : Takes (next x) d' v) :
    Takes (fun bound => (o bound).andThen fun y => next y bound) (max d d') v := by
  intro bound
  have ho := h bound
  have hnext := h' bound
  dsimp only
  by_cases hd : d ≤ bound
  · rw [if_pos hd] at ho
    rw [ho, Outcome.product_andThen, hnext]
    by_cases hd' : d' ≤ bound
    · rw [if_pos hd', if_pos (max_le hd hd')]
    · rw [if_neg hd', if_neg fun h => hd' (le_trans (le_max_right d d') h)]
  · rw [if_neg hd] at ho
    rw [ho, if_neg fun h => hd (le_trans (le_max_left d d') h)]
    rfl

/-- The last link evaluates nothing, so it adds no depth. -/
theorem last {next : Noun → Outcome} (h : Takes o d x) (hnext : next x = .product v) :
    Takes (fun bound => (o bound).andThen next) d v := by
  have hv : Takes (fun _ => next x) 0 v := hnext ▸ product v
  have h' : Takes (fun bound => (o bound).andThen fun y => next y) (max d 0) v := h.andThen hv
  rwa [Nat.max_zero] at h'

end Takes

/-- The evaluation gives the noun, with so many evaluations active at its deepest. -/
def Nests (keep : Bool) (s f : Noun) (depth : Nat) (v : Noun) : Prop :=
  Takes (fun bound => eval keep bound s f) depth v

namespace Nests

variable {keep : Bool} {s f b c axis core arm x y v : Noun} {d d' n : Nat}

theorem eval_eq_product (h : Nests keep s f d v) {bound : Nat} (hd : d ≤ bound) :
    eval keep bound s f = .product v :=
  (h bound).trans (if_pos hd)

theorem eval_eq_tooDeep (h : Nests keep s f d v) {bound : Nat} (hd : bound < d) :
    eval keep bound s f = .tooDeep :=
  (h bound).trans (if_neg (Nat.not_le_of_lt hd))

theorem of_rule (h : Takes (fun bound => (Outcome.scheme keep).rule (eval keep bound) s f) d v) :
    Nests keep s f (d + 1) v := by
  intro bound
  cases bound with
  | zero => rfl
  | succ bound =>
    have hrule := h bound
    dsimp only at hrule ⊢
    rw [eval_succ, hrule]
    simp only [Nat.succ_le_succ_iff]

theorem lookup (h : axis.findAt? s = some v) : Nests keep s (.cell 0 axis) 1 v := by
  have hv : Outcome.ofOption keep (.axisMissing axis) (axis.findAt? s) = .product v := by
    rw [h]
    rfl
  refine .of_rule fun bound => ?_
  exact hv

theorem quote : Nests keep s (.cell 1 v) 1 v := .of_rule (.product v)

theorem increment (h : Nests keep s b d (.atom n)) :
    Nests keep s (.cell 4 b) (d + 1) (.atom (n + 1)) :=
  .of_rule (.last h rfl)

theorem equal (hb : Nests keep s b d x) (hc : Nests keep s c d' y) :
    Nests keep s (.cell 5 (.cell b c)) (max d d' + 1) (x.equalTest y) := by
  refine .of_rule (.andThen hb ?_)
  exact .last hc rfl

theorem branchYes {e : Noun} (hb : Nests keep s b d 0) (hc : Nests keep s c d' v) :
    Nests keep s (.cell 6 (.cell b (.cell c e))) (max d d' + 1) v :=
  .of_rule (.andThen hb hc)

theorem branchNo {e : Noun} (hb : Nests keep s b d 1) (hc : Nests keep s c d' v) :
    Nests keep s (.cell 6 (.cell b (.cell e c))) (max d d' + 1) v :=
  .of_rule (.andThen hb hc)

theorem push (hb : Nests keep s b d x) (hc : Nests keep (.cell x s) c d' v) :
    Nests keep s (.cell 8 (.cell b c)) (max d d' + 1) v :=
  .of_rule (.andThen hb hc)

theorem invoke (hc : Nests keep s c d core) (harm : axis.findAt? core = some arm)
    (hcall : Nests keep core arm d' v) : Nests keep s (.cell 9 (.cell axis c)) (max d d' + 1) v := by
  refine .of_rule (.andThen hc ?_)
  rw [harm]
  exact hcall

theorem edit {u t : Noun} (hb : Nests keep s b d u) (hc : Nests keep s c d' t)
    (hedit : axis.replaceAt? u t = some v) :
    Nests keep s (.cell 10 (.cell (.cell axis b) c)) (max d d' + 1) v := by
  refine .of_rule (.andThen hb (.last hc ?_))
  rw [hedit]
  rfl

end Nests

end Nock.Recursion

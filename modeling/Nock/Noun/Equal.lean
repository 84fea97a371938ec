import Nock.Noun.Basic

/-!
# Equality of nouns

Two nouns are compared with a list of pending pairs, heads before tails (`Noun.allEqual`). What is compared
are objects of some `Storage`: an object holds an atom or two other objects, and keeps a hash, which for a
cell combines the hashes of its halves. So different hashes tell nouns apart without a walk, and a pair of
objects that are known to hold the same noun needs no walk either. Whatever the storage, the walk decides
equality (`allEqual_iff`).

Nouns built by evaluation share subtrees, and one with forty levels may stand for 2⁴⁰ leaves. So the
comparison that runs (`Noun.equalWithin`) passes over identical objects wherever they are met. It goes
into the halves of lower rank first and then on with the others in the same frame, so it nests no
deeper than the rank of a noun, which grows only where both halves have the same; what would nest too
deeply all the same is left to the list, which needs no stack.
-/

namespace Nock.Noun

/-- The hash of a noun, combined from the hashes of its atoms. -/
def hashWith {η : Type} (hashAtom : Nat → η) (combine : η → η → η) : Noun → η
  | atom n => hashAtom n
  | cell h t => combine (hashWith hashAtom combine h) (hashWith hashAtom combine t)

/-- How nouns are stored in objects `ω`, with hashes `η`. The test for objects that are the same does not
have to notice anything. -/
structure Storage (ω η : Type) where
  noun : ω → Noun
  /-- The atom that an object holds, or its two halves. -/
  parts : ω → Nat ⊕ ω × ω
  hash : ω → η
  hashAtom : Nat → η
  combine : η → η → η
  same : ω → ω → Bool
  noun_eq : ∀ x, noun x = match parts x with
    | .inl n => atom n
    | .inr (h, t) => cell (noun h) (noun t)
  hash_eq : ∀ x, hash x = match parts x with
    | .inl n => hashAtom n
    | .inr (h, t) => combine (hash h) (hash t)
  eq_of_same : ∀ x y, same x y = true → noun x = noun y

namespace Storage

variable {ω η : Type} (s : Storage ω η) {x y h t : ω} {n : Nat}

theorem noun_of_inl (hx : s.parts x = .inl n) : s.noun x = atom n := by rw [s.noun_eq, hx]

theorem noun_of_inr (hx : s.parts x = .inr (h, t)) : s.noun x = cell (s.noun h) (s.noun t) := by
  rw [s.noun_eq, hx]

/-- The hash that an object keeps is that of its noun. -/
theorem hash_eq_hashWith (x : ω) : s.hash x = (s.noun x).hashWith s.hashAtom s.combine := by
  generalize hn : s.noun x = n
  induction n generalizing x with
  | atom a =>
    rcases hx : s.parts x with m | ⟨h, t⟩
    · cases (s.noun_of_inl hx).symm.trans hn
      rw [s.hash_eq, hx]
      rfl
    · cases (s.noun_of_inr hx).symm.trans hn
  | cell a b iha ihb =>
    rcases hx : s.parts x with m | ⟨h, t⟩
    · cases (s.noun_of_inl hx).symm.trans hn
    · obtain ⟨ha, hb⟩ := cell.inj ((s.noun_of_inr hx).symm.trans hn)
      rw [s.hash_eq, hx]
      show s.combine (s.hash h) (s.hash t) = _
      rw [iha h ha, ihb t hb]
      rfl

theorem hash_eq_of_noun_eq (h : s.noun x = s.noun y) : s.hash x = s.hash y := by
  rw [s.hash_eq_hashWith, s.hash_eq_hashWith, h]

end Storage

theorem ne_of_digest_ne {a b : Noun} (h : a.digest ≠ b.digest) : a ≠ b := fun e => h (e ▸ rfl)

/-- Nouns stored as themselves, with their digests. -/
def Storage.digests : Storage Noun UInt64 where
  noun n := n
  parts
    | atom n => .inl n
    | cell h t => .inr (h, t)
  hash := digest
  hashAtom := mixNumber
  combine := mixWords
  same _ _ := false
  noun_eq
    | atom _ => rfl
    | cell _ _ => rfl
  hash_eq
    | atom _ => rfl
    | cell _ _ => rfl
  eq_of_same _ _ h := by cases h

/-- Whether both objects of each pending pair hold equal nouns. -/
def allEqual {ω η : Type} [DecidableEq η] (s : Storage ω η) : List (ω × ω) → Bool
  | [] => true
  | (x, y) :: pending =>
    if s.same x y then allEqual s pending
    else match _hx : s.parts x, s.parts y with
      | .inl m, .inl n => if m = n then allEqual s pending else false
      | .inr (h, t), .inr (h', t') =>
        if s.hash x = s.hash y then allEqual s ((h, h') :: (t, t') :: pending) else false
      | _, _ => false
termination_by pending => pending.foldr (fun p n => (s.noun p.1).size + n) 0
decreasing_by
  · have := size_pos (s.noun x)
    simp; omega
  · have := size_pos (s.noun x)
    simp; omega
  · simp [s.noun_of_inr _hx]; omega

theorem allEqual_iff {ω η : Type} [DecidableEq η] (s : Storage ω η) (pending : List (ω × ω)) :
    allEqual s pending = true ↔ ∀ p ∈ pending, s.noun p.1 = s.noun p.2 := by
  fun_induction allEqual s pending with
  | case1 => simp
  | case2 x y pending h ih => simp [ih, s.eq_of_same x y h]
  | case3 x y pending _ m hx hy ih => simp [ih, s.noun_of_inl hx, s.noun_of_inl hy]
  | case4 x y pending _ m n hx hy hne => simp [s.noun_of_inl hx, s.noun_of_inl hy, hne]
  | case5 x y pending _ h t h' t' hx hy _ ih =>
    simp [ih, s.noun_of_inr hx, s.noun_of_inr hy, and_assoc]
  | case6 x y pending _ h t h' t' hx hy hhash =>
    have hne : s.noun x ≠ s.noun y := fun h => hhash (s.hash_eq_of_noun_eq h)
    simp [hne]
  | case7 x y pending _ hatoms hcells =>
    have hne : s.noun x ≠ s.noun y := by
      rcases hx : s.parts x with m | ⟨h, t⟩ <;> rcases hy : s.parts y with n | ⟨h', t'⟩
      · exact (hatoms m n hx hy).elim
      · simp [s.noun_of_inl hx, s.noun_of_inr hy]
      · simp [s.noun_of_inr hx, s.noun_of_inl hy]
      · exact (hcells h t h' t' hx hy).elim
    simp [hne]

/-- A truth value that tells whether two nouns are equal. -/
abbrev Verdict (a b : Noun) : Type := { r : Bool // r = true ↔ a = b }

/-- Two identical objects are equal; others are left to `walk`. -/
@[inline] def Verdict.unlessSame (a b : Noun) (walk : Unit → Verdict a b) : Verdict a b :=
  ⟨withPtrEq a b (fun _ => (walk ()).1) (walk ()).2.2, (walk ()).2⟩

/-- Compares nouns, with at most `levels` comparisons that wait for another one. -/
def equalWithin : (a b : Noun) → (levels : Nat) → Verdict a b
  | atom m, atom n, _ => ⟨m == n, by simp⟩
  | cell h t, cell h' t', levels => Verdict.unlessSame (cell h t) (cell h' t') fun _ =>
    if hd : (cell h t).digest = (cell h' t').digest then
      match levels with
      | 0 => ⟨allEqual .digests [(cell h t, cell h' t')], by simp [allEqual_iff, Storage.digests]⟩
      | levels + 1 =>
        if h.rank ≤ t.rank then
          ⟨(equalWithin h h' levels).1 && (equalWithin t t' (levels + 1)).1, by
            simp [(equalWithin h h' levels).2, (equalWithin t t' (levels + 1)).2]⟩
        else
          ⟨(equalWithin t t' levels).1 && (equalWithin h h' (levels + 1)).1, by
            simp [(equalWithin t t' levels).2, (equalWithin h h' (levels + 1)).2, and_comm]⟩
    else ⟨false, by simpa using ne_of_digest_ne hd⟩
  | atom _, cell _ _, _ => ⟨false, by simp⟩
  | cell _ _, atom _, _ => ⟨false, by simp⟩

/-- So many comparisons may wait, which the call stack has room for. -/
def nestedComparisons : Nat := 16384

instance : DecidableEq Noun := fun a b =>
  decidable_of_iff ((equalWithin a b nestedComparisons).1 = true) (equalWithin a b nestedComparisons).2

end Nock.Noun

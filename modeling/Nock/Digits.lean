/-!
# Digits

The last digits of a number in a base. `Digits.ofNat` takes them off one by one, which takes quadratic
time for a number of many words. `Digits.last` cuts the row of digits in the middle first, so only a
few divisions are by long numbers, and gives the same digits (`last_eq`).
-/

namespace Nock.Digits

/-- The last `count` digits of `n`, the highest first, in front of `after`. -/
def ofNat (base : Nat) : (count n : Nat) → (after : List Nat) → List Nat
  | 0, _, after => after
  | count + 1, n, after => ofNat base count (n / base) (n % base :: after)

theorem ofNat_append (base count n : Nat) (after rest : List Nat) :
    ofNat base count n (after ++ rest) = ofNat base count n after ++ rest := by
  induction count generalizing n after with
  | zero => rfl
  | succ count ih => exact ih (n / base) (n % base :: after)

/-- The last digits of a number are those of its last part behind those of the part in front. -/
theorem ofNat_add (base a b n : Nat) (after : List Nat) :
    ofNat base (a + b) n after =
      ofNat base a (n / Nat.pow base b) (ofNat base b (n % Nat.pow base b) after) := by
  induction b generalizing n after with
  | zero => simp [ofNat, Nat.pow_eq]
  | succ b ih =>
    have hpow : Nat.pow base (b + 1) = base * Nat.pow base b := Nat.mul_comm _ _
    rw [← Nat.add_assoc, ofNat, ofNat, ih (n / base), hpow, Nat.div_div_eq_div_mul,
      Nat.mod_mul_right_div_self, Nat.mod_mod_of_dvd n ⟨_, rfl⟩]

/-- The last `count` digits of `n`, in front of `after`, with `levels` cuts in the middle. -/
def split (base : Nat) : (levels count n : Nat) → (after : List Nat) → List Nat
  | 0, count, n, after => ofNat base count n after
  | levels + 1, count, n, after =>
    let half := count / 2
    let cut := Nat.pow base half
    split base levels (count - half) (n / cut) (split base levels half (n % cut) after)

theorem split_eq (base levels count n : Nat) (after : List Nat) :
    split base levels count n after = ofNat base count n after := by
  induction levels generalizing count n after with
  | zero => rfl
  | succ levels ih =>
    rw [split, ih, ih, ← ofNat_add, Nat.sub_add_cancel (Nat.div_le_self count 2)]

/-- The last `count` digits of `n`, with as many cuts as leave a few digits to each part. -/
def last (base count n : Nat) : List Nat := split base (count.log2 - 3) count n []

theorem last_eq (base count n : Nat) : last base count n = ofNat base count n [] := split_eq ..

theorem last_succ (base count n : Nat) :
    last base (count + 1) n = last base count (n / base) ++ [n % base] := by
  rw [last_eq, last_eq, ← ofNat_append]
  rfl

end Nock.Digits

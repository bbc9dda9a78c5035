import Mathlib.Algebra.Group.Nat.Defs

/-!
# Decimal digits by their places

`Nat.toDigits` takes a number apart from its last digit. A routine that prints numbers fast
goes the other way: it knows how many digits a number may have and writes the digit of each
place, the leading ones only if the number reaches them. `padded` writes every place,
`trimmed` leaves the zeros in front out, and both are `Nat.toDigits` where they apply:

* `toDigits_eq_trimmed` — of a number that has no more places;
* `toDigits_eq_append_padded` — a number is its upper digits and then, padded, the others.
-/

namespace Decimal

/-- The digit of `n` at the place `k`, counted from the right. -/
def digitAt (k n : Nat) : Char := (n / 10 ^ k % 10).digitChar

/-- The digits at the places below `k`. -/
def padded : Nat → Nat → List Char
  | 0, _ => []
  | k + 1, n => digitAt k n :: padded k n

/-- The digits at the places up to `k`, without the zeros in front of the first that is none. The
last digit always stands. -/
def trimmed : Nat → Nat → List Char
  | 0, n => [digitAt 0 n]
  | k + 1, n => (if 10 ^ (k + 1) ≤ n then [digitAt (k + 1) n] else []) ++ trimmed k n

@[simp] theorem length_padded (k n : Nat) : (padded k n).length = k := by
  induction k with
  | zero => rfl
  | succ k ih => rw [padded, List.length_cons, ih]

theorem length_trimmed_le (k n : Nat) : (trimmed k n).length ≤ k + 1 := by
  induction k with
  | zero => exact Nat.le_refl 1
  | succ k ih =>
    rw [trimmed, List.length_append]
    split <;> simp only [List.length_cons, List.length_nil] <;> omega

/-- A place of `n / 10 ^ j` is a place of `n`, `j` further left. -/
theorem digitAt_div (j k n : Nat) : digitAt k (n / 10 ^ j) = digitAt (j + k) n := by
  rw [digitAt, digitAt, Nat.div_div_eq_div_mul, ← Nat.pow_add]

theorem padded_append (j k n : Nat) :
    padded (j + k) n = padded j (n / 10 ^ k) ++ padded k n := by
  induction j with
  | zero => rw [Nat.zero_add, padded, List.nil_append]
  | succ j ih =>
    rw [Nat.succ_add, padded, padded, List.cons_append, digitAt_div, ih, Nat.add_comm k j]

/-- What stands above the places written does not matter. -/
theorem padded_mod {j k : Nat} (h : j ≤ k) (n : Nat) : padded j (n % 10 ^ k) = padded j n := by
  induction j with
  | zero => rfl
  | succ j ih =>
    have place : n % 10 ^ k / 10 ^ j % 10 = n / 10 ^ j % 10 := by
      obtain ⟨i, rfl⟩ : ∃ i, k = j + (i + 1) := ⟨k - j - 1, by omega⟩
      rw [Nat.pow_add, Nat.mod_mul_right_div_self, Nat.pow_succ', Nat.mod_mul_right_mod]
    rw [padded, padded, ih (by omega), digitAt, digitAt, place]

theorem trimmed_succ (k n : Nat) :
    trimmed (k + 1) n = (if 10 ≤ n then trimmed k (n / 10) else []) ++ [digitAt 0 n] := by
  induction k with
  | zero =>
    have place : digitAt 0 (n / 10) = digitAt 1 n := digitAt_div 1 0 n
    rw [trimmed, trimmed, trimmed, place, Nat.pow_one]
  | succ k ih =>
    have place : digitAt (k + 1) (n / 10) = digitAt (k + 2) n := by
      rw [← Nat.pow_one 10, digitAt_div, Nat.add_comm 1]
    have reaches : 10 ^ (k + 2) ≤ n ↔ 10 ^ (k + 1) ≤ n / 10 := by
      rw [Nat.le_div_iff_mul_le (by decide), ← Nat.pow_succ]
    rw [trimmed, ih, ← List.append_assoc]
    by_cases more : 10 ≤ n
    · simp only [if_pos more, reaches, trimmed, place]
    · have short : ¬ 10 ^ (k + 2) ≤ n := by
        have : 10 ^ 1 ≤ 10 ^ (k + 2) := Nat.pow_le_pow_right (by decide) (by omega)
        omega
      simp only [if_neg more, if_neg short]
      rfl

/-- **A number that has no place above `k`** is its digits up to there. -/
theorem toDigits_eq_trimmed {k n : Nat} (h : n < 10 ^ (k + 1)) :
    Nat.toDigits 10 n = trimmed k n := by
  induction k generalizing n with
  | zero =>
    have small : n < 10 := by simpa using h
    rw [Nat.toDigits_of_lt_base small, trimmed, digitAt, Nat.pow_zero, Nat.div_one,
      Nat.mod_eq_of_lt small]
  | succ k ih =>
    rw [trimmed_succ, digitAt, Nat.pow_zero, Nat.div_one]
    by_cases more : 10 ≤ n
    · have front : n / 10 < 10 ^ (k + 1) :=
        (Nat.div_lt_iff_lt_mul (by decide)).mpr (by rwa [← Nat.pow_succ])
      rw [if_pos more, Nat.toDigits_of_base_le (by decide) more, ih front]
    · have small : n < 10 := Nat.lt_of_not_le more
      rw [if_neg more, Nat.toDigits_of_lt_base small, Nat.mod_eq_of_lt small, List.nil_append]

/-- **A number is its upper digits and then its lower ones**, these padded. -/
theorem toDigits_eq_append_padded {k n : Nat} (h : 0 < n / 10 ^ k) :
    Nat.toDigits 10 n = Nat.toDigits 10 (n / 10 ^ k) ++ padded k n := by
  induction k with
  | zero => rw [Nat.pow_zero, Nat.div_one, padded, List.append_nil]
  | succ k ih =>
    have upper : n / 10 ^ (k + 1) = n / 10 ^ k / 10 := by
      rw [Nat.pow_succ, Nat.div_div_eq_div_mul]
    have more : 10 ≤ n / 10 ^ k := by omega
    rw [ih (by omega), Nat.toDigits_of_base_le (by decide) more, padded, List.append_assoc, upper]
    rfl

end Decimal

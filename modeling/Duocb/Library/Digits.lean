import Mathlib.Data.Nat.Digits.Defs

set_option relaxedAutoImplicit false
set_option autoImplicit false

/-!
# Digits of a fixed number

A number below a power of a base has a fixed number of digits in it, leading zeros included. Texts
of a fixed length that stand for numbers are made of such digits, and of one base when they are
written and of another one when they are read.

The number of a list of digits is `Nat.ofDigits`, lowest digit first, as in `Nat.digits`; the digits
of a number are cut by recursion on how many there are, so that they evaluate.

## Main definitions

* `Digits.fixed` — so many digits of a number.

## Main results

* `Digits.ofDigits_fixed` — a number is read back from enough of its digits.
* `Digits.fixed_ofDigits` — digits are read back from their number.
-/

namespace Digits

/-- The lowest digits of a number in a base, as many as are asked for, lowest first. -/
def fixed (base : ℕ) : ℕ → ℕ → List ℕ
  | 0, _ => []
  | count + 1, n => n % base :: fixed base count (n / base)

/-- There are as many digits as were asked for. -/
@[simp] lemma length_fixed (base count n : ℕ) : (fixed base count n).length = count := by
  induction count generalizing n with
  | zero => rfl
  | succ count ih => rw [fixed, List.length_cons, ih]

/-- A digit is below the base. -/
lemma lt_of_mem_fixed {base count n d : ℕ} (hbase : 0 < base) (h : d ∈ fixed base count n) :
    d < base := by
  induction count generalizing n with
  | zero => cases h
  | succ count ih =>
    rcases List.mem_cons.1 h with rfl | h
    · exact Nat.mod_lt n hbase
    · exact ih h

/-- **A number is read back from its digits**, if it does not have more of them.

**Proof sketch.** By induction on the number of digits: the lowest one is the remainder by the base,
and the others are those of the quotient. -/
theorem ofDigits_fixed {base count n : ℕ} (h : n < base ^ count) :
    Nat.ofDigits base (fixed base count n) = n := by
  induction count generalizing n with
  | zero =>
    obtain rfl : n = 0 := Nat.lt_one_iff.1 h
    rfl
  | succ count ih =>
    have hrest : n / base < base ^ count :=
      Nat.div_lt_of_lt_mul (by rw [← Nat.pow_succ']; exact h)
    rw [fixed, Nat.ofDigits_cons, ih hrest, Nat.mod_add_div]

/-- **Digits are read back from their number.**

**Proof sketch.** By induction on the digits: the lowest one is what remains of the number, and the
quotient is the number of the others. -/
theorem fixed_ofDigits {base : ℕ} {digits : List ℕ} (h : ∀ d ∈ digits, d < base) :
    fixed base digits.length (Nat.ofDigits base digits) = digits := by
  induction digits with
  | nil => rfl
  | cons d digits ih =>
    have hd : d < base := h d List.mem_cons_self
    have hpos : 0 < base := Nat.lt_of_le_of_lt (Nat.zero_le d) hd
    have hrest := ih fun x hx => h x (List.mem_cons_of_mem _ hx)
    rw [List.length_cons, fixed, Nat.ofDigits_cons, Nat.add_mul_mod_self_left, Nat.mod_eq_of_lt hd,
      Nat.add_mul_div_left _ _ hpos, Nat.div_eq_of_lt hd, Nat.zero_add, hrest]

end Digits

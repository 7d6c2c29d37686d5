import Mathlib.Data.Nat.Digits.Lemmas
import Mathlib.Tactic

/-!
# `Lib.Numeral` — canonical positional numerals

`numeral b n` is the numeral of `n` to base `b`, most significant digit first: one digit `0` for zero, and
no leading zero otherwise. It is Mathlib's `Nat.digits` the other way round, with zero written out.

* `canonical_numeral`: it is canonical, its digits are below the base, and it denotes `n`.
* `length_numeral_le`: how long it can be.
* `numeral_step`: the last digit is the remainder, what is in front of it the numeral of the quotient.
-/

namespace Numeral

variable {b n : Nat}

/-- The digits of `n` to base `b`, most significant first. -/
def numeral (b n : Nat) : List Nat := if n = 0 then [0] else (b.digits n).reverse

/-- What a list of digits denotes. -/
def value (b : Nat) (ds : List Nat) : Nat := Nat.ofDigits b ds.reverse

/-- A numeral of `n` without superfluous digits. -/
structure Canonical (b n : Nat) (ds : List Nat) : Prop where
  nonempty : ds ≠ []
  below : ∀ d ∈ ds, d < b
  noLeadingZero : ds.head? = some 0 → ds = [0]
  denotes : value b ds = n

@[simp] theorem numeral_zero (b : Nat) : numeral b 0 = [0] := if_pos rfl

theorem numeral_of_ne_zero (hn : n ≠ 0) : numeral b n = (b.digits n).reverse := if_neg hn

theorem value_numeral (b n : Nat) : value b (numeral b n) = n := by
  by_cases hn : n = 0
  · subst hn
    simp [value]
  · rw [numeral_of_ne_zero hn, value, List.reverse_reverse, Nat.ofDigits_digits]

theorem canonical_numeral (hb : 1 < b) (n : Nat) : Canonical b n (numeral b n) := by
  by_cases hn : n = 0
  · subst hn
    refine ⟨by simp, fun d hd => ?_, fun _ => by simp, value_numeral b 0⟩
    rw [numeral_zero, List.mem_singleton] at hd
    omega
  · have hnil : b.digits n ≠ [] := Nat.digits_ne_nil_iff_ne_zero.mpr hn
    refine ⟨?_, fun d hd => ?_, fun hzero => ?_, value_numeral b n⟩
    · rw [numeral_of_ne_zero hn, ne_eq, List.reverse_eq_nil_iff]
      exact hnil
    · rw [numeral_of_ne_zero hn, List.mem_reverse] at hd
      exact Nat.digits_lt_base hb hd
    · -- the most significant digit of `Nat.digits` is not zero
      rw [numeral_of_ne_zero hn, List.head?_reverse, List.getLast?_eq_some_getLast hnil, Option.some.injEq] at hzero
      exact absurd hzero (Nat.getLast_digit_ne_zero b hn)

/-- A number of one digit. -/
theorem numeral_of_lt (hn : n < b) : numeral b n = [n] := by
  by_cases h0 : n = 0
  · subst h0
    exact numeral_zero b
  · rw [numeral_of_ne_zero h0, Nat.digits_of_lt b n h0 hn, List.reverse_singleton]

/-- **The last digit.** -/
theorem numeral_step (hb : 1 < b) (hn : n / b ≠ 0) : numeral b n = numeral b (n / b) ++ [n % b] := by
  have h0 : n ≠ 0 := by
    rintro rfl
    exact hn (Nat.zero_div b)
  rw [numeral_of_ne_zero h0, numeral_of_ne_zero hn, Nat.digits_def' hb (Nat.pos_of_ne_zero h0), List.reverse_cons]

theorem length_numeral_le {k : Nat} (hb : 1 < b) (hk : 0 < k) (hn : n < b ^ k) : (numeral b n).length ≤ k := by
  by_cases h0 : n = 0
  · subst h0
    exact hk
  · rw [numeral_of_ne_zero h0, List.length_reverse, Nat.digits_length_le_iff hb]
    exact hn

end Numeral

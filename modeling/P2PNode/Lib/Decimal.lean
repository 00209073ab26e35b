import Mathlib.Data.Nat.Digits.Defs
import Mathlib.Data.Int.Log
import Mathlib.Data.Rat.Floor
import P2PNode.Lib.ExtRat

/-!
# Decimal digits and rounding

The digits of a number and the number that digits stand for, rounding to an integer with ties to
even, and the nearest double-precision number.
-/

namespace Decimal

/-! ### Digits -/

/-- The digits of a number, the most significant one first. -/
def digits (n : ℕ) : List ℕ := if n = 0 then [0] else (Nat.digits 10 n).reverse

/-- The number that the digits stand for. -/
def value (ds : List ℕ) : ℕ := ds.foldl (fun v d => 10 * v + d) 0

@[simp] lemma value_digits (n : ℕ) : value (digits n) = n := by
  rw [digits]
  split
  · rename_i h
    exact h.symm
  · rw [value, List.foldl_reverse]
    have hval := Nat.ofDigits_digits 10 n
    rw [Nat.ofDigits_eq_foldr] at hval
    simpa [Nat.add_comm] using hval

lemma digits_injective : Function.Injective digits :=
  Function.LeftInverse.injective value_digits

lemma digits_ne_nil (n : ℕ) : digits n ≠ [] := by
  rw [digits]
  split
  · simp
  · rename_i h
    simpa [Nat.digits_ne_nil_iff_ne_zero] using h

lemma lt_of_mem_digits {n d : ℕ} (h : d ∈ digits n) : d < 10 := by
  rw [digits] at h
  split at h
  · rw [List.mem_singleton.1 h]
    decide
  · exact Nat.digits_lt_base (by decide) (List.mem_reverse.1 h)

lemma digits_of_lt {d : ℕ} (h : d < 10) : digits d = [d] := by
  rw [digits]
  split
  · rename_i hd
    rw [hd]
  · rename_i hd
    rw [Nat.digits_of_lt 10 d hd h]
    rfl

lemma value_append_singleton (ds : List ℕ) (d : ℕ) : value (ds ++ [d]) = 10 * value ds + d := by
  simp [value]

/-! ### Rounding -/

/-- The nearest integer, the even one of two. -/
def roundHalfEven (q : ℚ) : ℤ :=
  let n := ⌊q⌋
  if q - n < 1 / 2 then n
  else if 1 / 2 < q - n then n + 1
  else if n % 2 = 0 then n
  else n + 1

@[simp] lemma roundHalfEven_intCast (n : ℤ) : roundHalfEven n = n := by
  simp [roundHalfEven]

/-- The nearest double, the one with the even mantissa of two; infinite from half a unit above the
greatest one on. -/
def binary64 (q : ℚ) : ExtRat :=
  if q = 0 then .fin 0
  else
    let e := max (Int.log 2 |q| - 52) (-1074)
    let r := roundHalfEven (|q| / 2 ^ e) * (2 : ℚ) ^ e
    if r < 2 ^ 1024 then .fin (if 0 < q then r else -r)
    else if 0 < q then .posInf else .negInf

/-- An integer of at most 53 bits is a double. -/
lemma binary64_natCast {n : ℕ} (h : n < 2 ^ 53) : binary64 n = .fin n := by
  by_cases hn : n = 0
  · simp [binary64, hn]
  · have hq : (n : ℚ) ≠ 0 := Nat.cast_ne_zero.2 hn
    have hlog : Nat.log 2 n ≤ 52 := Nat.le_of_lt_succ (Nat.log_lt_of_lt_pow hn h)
    obtain ⟨k, hk⟩ : ∃ k : ℕ, max (Int.log 2 |(n : ℚ)| - 52) (-1074) = -(k : ℤ) := by
      rw [Nat.abs_cast, Int.log_natCast]
      exact ⟨52 - Nat.log 2 n, by omega⟩
    have hpow : (2 : ℚ) ^ (-(k : ℤ)) = (2 ^ k)⁻¹ := by rw [zpow_neg, zpow_natCast]
    have hscaled : |(n : ℚ)| / (2 ^ k)⁻¹ = ((n * 2 ^ k : ℕ) : ℤ) := by
      rw [Nat.abs_cast, div_inv_eq_mul]
      push_cast
      rfl
    have hround : (roundHalfEven (|(n : ℚ)| / 2 ^ (-(k : ℤ))) : ℚ) * 2 ^ (-(k : ℤ)) = n := by
      rw [hpow, hscaled, roundHalfEven_intCast]
      push_cast
      rw [mul_assoc, mul_inv_cancel₀ (by positivity), mul_one]
    have hlt : (n : ℚ) < 2 ^ 1024 := by
      calc (n : ℚ) < 2 ^ 53 := by exact_mod_cast h
        _ ≤ 2 ^ 1024 := pow_le_pow_right₀ one_le_two (by decide)
    have hpos : (0 : ℚ) < n := Nat.cast_pos.2 (Nat.pos_of_ne_zero hn)
    simp only [binary64, if_neg hq, hk, hround, if_pos hlt, if_pos hpos]

end Decimal

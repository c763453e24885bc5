import Mathlib.Data.Rat.Floor
import Mathlib.Data.Int.ModEq

/-! # Decimals and machine integers

Exact decimals are rationals; here are truncation, rounding, rounded division and the conversions to
64-bit integers. -/

namespace NomoApi

open Int

namespace Decimal

/-- **The whole part**, rounded toward zero. -/
def trunc (q : ℚ) : Int := q.num.tdiv q.den

@[simp] theorem trunc_zero : trunc 0 = 0 := rfl

@[simp] theorem trunc_natCast (n : Nat) : trunc n = n := by
  simp [trunc]

/-- **The whole part as a 64-bit integer** in two's complement. -/
def intPart (q : ℚ) : Int64 := Int64.ofInt (trunc q)

variable {q : ℚ}

theorem intPart_eq_iff {n : Int64} : intPart q = n ↔ trunc q ≡ n.toInt [ZMOD 2 ^ 64] := by
  rw [intPart, Int64.ofInt_eq_iff_bmod_eq_toInt, bmod_eq_iff (by norm_num), modEq_iff_dvd]
  constructor
  · rintro ⟨-, -, hdvd⟩
    exact hdvd
  · intro hdvd
    have hlow := n.le_toInt
    have hhigh := n.toInt_lt
    exact ⟨by omega, by omega, hdvd⟩

theorem toInt_intPart_natCast {n : Nat} (h : n < 2 ^ 63) : (intPart n).toInt = n := by
  rw [intPart, trunc_natCast]
  exact Int64.toInt_ofInt_of_le (by omega) (by omega)

/-! ### Conversion to a machine integer -/

theorem trunc_of_nonneg (h : 0 ≤ q) : trunc q = ⌊q⌋ := by
  rw [trunc, Rat.floor_def', tdiv_eq_ediv_of_nonneg (Rat.num_nonneg.mpr h)]

theorem trunc_neg (q : ℚ) : trunc (-q) = -trunc q := by
  rw [trunc, trunc, Rat.num_neg_eq_neg_num, Rat.den_neg_eq_den, Int.neg_tdiv]

theorem trunc_of_nonpos (h : q ≤ 0) : trunc q = -⌊-q⌋ := by
  rw [← trunc_of_nonneg (neg_nonneg.mpr h), trunc_neg, neg_neg]

theorem nonneg_trunc_iff : 0 ≤ trunc q ↔ -1 < q := by
  rcases le_total 0 q with hq | hq
  · rw [trunc_of_nonneg hq]
    exact iff_of_true (floor_nonneg.mpr hq) (by linarith)
  · rw [trunc_of_nonpos hq, neg_nonneg, ← lt_add_one_iff, floor_lt]
    push_cast
    constructor <;> intro h <;> linarith

theorem trunc_le_iff {n : Int} (hn : 0 ≤ n) : trunc q ≤ n ↔ q < n + 1 := by
  have hn' : (0 : ℚ) ≤ n := cast_nonneg hn
  rcases le_total 0 q with hq | hq
  · rw [trunc_of_nonneg hq, ← lt_add_one_iff, floor_lt]
    push_cast
    rfl
  · have hneg := trunc_of_nonpos hq
    have hfloor : 0 ≤ ⌊-q⌋ := floor_nonneg.mpr (neg_nonneg.mpr hq)
    exact iff_of_true (by omega) (by linarith)

/-- **A number converted to a 64-bit integer**, toward zero; out of range it becomes the least
integer, as on amd64. -/
def toInt64 (q : ℚ) : Int :=
  if -2 ^ 63 ≤ trunc q ∧ trunc q < 2 ^ 63 then trunc q else -2 ^ 63

theorem toInt64_lt (q : ℚ) : toInt64 q < 2 ^ 63 := by
  rw [toInt64]
  split
  · rename_i h
    exact h.2
  · norm_num

theorem nonneg_toInt64_iff : 0 ≤ toInt64 q ↔ -1 < q ∧ q < 2 ^ 63 := by
  have hhigh : trunc q < 2 ^ 63 ↔ q < 2 ^ 63 := by
    have h := @trunc_le_iff q (2 ^ 63 - 1) (by norm_num)
    rw [le_sub_one_iff] at h
    rw [h]
    norm_num
  rw [toInt64, ← nonneg_trunc_iff, ← hhigh]
  split
  · rename_i h
    exact (and_iff_left h.2).symm
  · rename_i h
    refine iff_of_false (by norm_num) fun h' => h ⟨?_, h'.2⟩
    exact le_trans (by norm_num) h'.1

theorem toInt64_le_iff (hq : 0 ≤ toInt64 q) {n : Int} (hn : 0 ≤ n) : toInt64 q ≤ n ↔ q < n + 1 := by
  have htrunc : toInt64 q = trunc q := by
    rw [toInt64] at hq ⊢
    split at hq
    · rename_i h
      exact if_pos h
    · norm_num at hq
  rw [htrunc, trunc_le_iff hn]

/-! ### Rounding -/

/-- **The nearest integer**, halves away from zero. -/
def roundInt (q : ℚ) : Int := trunc (q + if 0 ≤ q then 1 / 2 else -1 / 2)

theorem roundInt_of_nonneg (hq : 0 ≤ q) : roundInt q = ⌊q + 1 / 2⌋ := by
  rw [roundInt, if_pos hq, trunc_of_nonneg (by linarith)]

theorem abs_roundInt_sub_le (hq : 0 ≤ q) : |(roundInt q : ℚ) - q| ≤ 1 / 2 := by
  have hle := floor_le (q + 1 / 2)
  have hlt := lt_floor_add_one (q + 1 / 2)
  rw [roundInt_of_nonneg hq, abs_le]
  constructor <;> linarith

def roundPlaces (q : ℚ) : ℚ :=
  trunc (q * 10 ^ 16 + if 0 ≤ q then 1 / 2 else -1 / 2) / 10 ^ 16

theorem trunc_add_half (n : Int) : trunc (n + if (0 : ℚ) ≤ n then 1 / 2 else -1 / 2) = n := by
  by_cases hn : (0 : ℚ) ≤ n
  · rw [if_pos hn, trunc_of_nonneg (by linarith), floor_eq_iff]
    constructor <;> linarith
  · have hneg : (n : ℚ) + -1 / 2 = -(-n + 1 / 2) := by ring
    rw [if_neg hn, hneg, trunc_neg, trunc_of_nonneg (by linarith), neg_eq_iff_eq_neg,
      floor_eq_iff, cast_neg]
    constructor <;> linarith

theorem roundPlaces_of_places {n : Int} (h : q * 10 ^ 16 = n) : roundPlaces q = q := by
  have hsign : (0 ≤ q) = ((0 : ℚ) ≤ n) := by
    rw [← h]
    exact propext (mul_nonneg_iff_of_pos_right (by norm_num)).symm
  have htrunc : trunc (n + if 0 ≤ q then 1 / 2 else -1 / 2) = n := by
    simp only [hsign]
    exact trunc_add_half n
  rw [roundPlaces, h, htrunc, ← h, mul_div_assoc, div_self (by norm_num), mul_one]

theorem abs_roundPlaces_sub_le (hq : 0 ≤ q) : |roundPlaces q - q| ≤ 1 / 2 / 10 ^ 16 := by
  have hround : roundPlaces q = roundInt (q * 10 ^ 16) / 10 ^ 16 := by
    have hsign : 0 ≤ q * 10 ^ 16 := mul_nonneg hq (by norm_num)
    rw [roundPlaces, roundInt, if_pos hq, if_pos hsign]
  have hdiff : roundPlaces q - q = (roundInt (q * 10 ^ 16) - q * 10 ^ 16) / 10 ^ 16 := by
    rw [hround, sub_div, mul_div_assoc, div_self (by norm_num), mul_one]
  rw [hdiff, abs_div, abs_of_pos (show (0 : ℚ) < 10 ^ 16 by norm_num)]
  exact div_le_div_of_nonneg_right (abs_roundInt_sub_le (mul_nonneg hq (by norm_num))) (by norm_num)

theorem roundPlaces_nonneg (hq : 0 ≤ q) : 0 ≤ roundPlaces q := by
  rw [roundPlaces, if_pos hq]
  refine div_nonneg (cast_nonneg ?_) (by norm_num)
  rw [nonneg_trunc_iff]
  have hsign : 0 ≤ q * 10 ^ 16 := mul_nonneg hq (by norm_num)
  linarith

/-- **Division**, rounded to sixteen places; a zero divisor gives nothing. -/
def div (a b : ℚ) : Option ℚ := if b = 0 then none else some (roundPlaces (a / b))

end Decimal

end NomoApi

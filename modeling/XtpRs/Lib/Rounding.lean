import XtpRs.Lib.Decimal

/-!
# Rounded arithmetic

A floating-point format rounds every number to one that it has. What programs rely on is that this
keeps the order, leaves small integers alone and is off by little: in double precision by one part
in `2 ^ 53`, and near zero by less than the least number of the format. A format with more places
has these properties too.

## Main definitions

* `Rounding`: a way to round.

## Main results

* `Rounding.abs_quotient_sub_le`: a quotient of two counters.
* `Rounding.abs_reprint_sub_le`: a fraction with a given number of places that is read and printed
  again.
-/

namespace XtpRs.Lib

open Decimal (fixedValue)

/-- How a format rounds. -/
structure Rounding where
  round : ℚ → ℚ
  mono : Monotone round
  exact : ∀ n : ℕ, n ≤ 2 ^ 53 → round n = n
  near : ∀ q, |q| ≤ 2 ^ 64 → |round q - q| ≤ |q| / 2 ^ 53 + 1 / 2 ^ 200

/-- A format that has every number. -/
def Rounding.rational : Rounding where
  round := id
  mono := monotone_id
  exact _ _ := rfl
  near q _ := by
    rw [id, sub_self, abs_zero]
    positivity

namespace Rounding

variable (fmt : Rounding)

theorem round_zero : fmt.round 0 = 0 := by
  simpa using fmt.exact 0 (Nat.zero_le _)

theorem round_nonneg {q : ℚ} (h : 0 ≤ q) : 0 ≤ fmt.round q :=
  fmt.round_zero ▸ fmt.mono h

/-- A number that rounds to less than a small integer is less. -/
theorem lt_of_round_lt {q : ℚ} {n : ℕ} (hn : n ≤ 2 ^ 53) (h : fmt.round q < n) : q < n := by
  by_contra hle
  exact absurd h (not_lt.mpr (fmt.exact n hn ▸ fmt.mono (not_lt.mp hle)))

/-- What is below zero and does not round to less is next to zero. -/
theorem abs_le_of_round_nonneg {q : ℚ} (hq : q ≤ 0) (h : 0 ≤ fmt.round q) :
    |q| ≤ 1 / 2 ^ 100 := by
  have hzero (r : ℚ) (hr : q ≤ r) (hr0 : r ≤ 0) : fmt.round r = 0 :=
    le_antisymm (fmt.round_zero ▸ fmt.mono hr0) (h.trans (fmt.mono hr))
  by_contra hlarge
  -- a number in range that would round to zero
  have hr : q ≤ -(1 / 2 ^ 100) := by
    rw [abs_of_nonpos hq] at hlarge
    linarith
  have hnear := fmt.near (-(1 / 2 ^ 100)) (by norm_num)
  rw [hzero _ hr (by norm_num)] at hnear
  norm_num at hnear

/-- A number that is not below one is off by a small part. -/
theorem abs_round_sub_le {q : ℚ} (hone : 1 ≤ q) (hle : q ≤ 2 ^ 64) :
    |fmt.round q - q| ≤ q / 2 ^ 52 := by
  have hpos : 0 ≤ q := by linarith
  have hnear := fmt.near q (by rwa [abs_of_nonneg hpos])
  rw [abs_of_nonneg hpos] at hnear
  calc |fmt.round q - q| ≤ q / 2 ^ 53 + 1 / 2 ^ 200 := hnear
    _ ≤ q / 2 ^ 53 + q / 2 ^ 53 := by
      have hsmall : (1 : ℚ) / 2 ^ 200 ≤ 1 / 2 ^ 53 := by norm_num
      have hpart : 1 / 2 ^ 53 ≤ q / 2 ^ 53 := div_le_div_of_nonneg_right hone (by positivity)
      linarith
    _ = q / 2 ^ 52 := by ring

/-- So are counters. -/
theorem abs_round_natCast_sub_le {m : ℕ} (hm : m ≤ 10 ^ 18) : |fmt.round m - m| ≤ m / 2 ^ 52 := by
  rcases Nat.eq_zero_or_pos m with rfl | hpos
  · simp [fmt.round_zero]
  · have hle : (m : ℚ) ≤ 10 ^ 18 := by exact_mod_cast hm
    exact fmt.abs_round_sub_le (by exact_mod_cast hpos) (hle.trans (by norm_num))

/-- **A quotient of counters**, each number on the way to it rounded. -/
theorem abs_quotient_sub_le {m n : ℕ} (hm : m ≤ 10 ^ 18) (hn : n ≤ 10 ^ 18) :
    |fmt.round (fmt.round m / fmt.round (fmt.round n + 1)) - m / (n + 1)| ≤
      ((m : ℚ) / (n + 1) + 1) / 2 ^ 48 := by
  have hm0 : (0 : ℚ) ≤ m := Nat.cast_nonneg m
  have hn0 : (0 : ℚ) ≤ n := Nat.cast_nonneg n
  have hmle : (m : ℚ) ≤ 10 ^ 18 := by exact_mod_cast hm
  have hnle : (n : ℚ) ≤ 10 ^ 18 := by exact_mod_cast hn
  obtain ⟨hlow, hhigh⟩ := abs_le.mp (fmt.abs_round_natCast_sub_le hm)
  obtain ⟨hnlow, hnhigh⟩ := abs_le.mp (fmt.abs_round_natCast_sub_le hn)
  generalize hL : fmt.round (m : ℚ) = L at hlow hhigh ⊢
  generalize hS : fmt.round (n : ℚ) = S at hnlow hnhigh ⊢
  have hS0 : 0 ≤ S := hS ▸ fmt.round_nonneg hn0
  have hL0 : 0 ≤ L := hL ▸ fmt.round_nonneg hm0
  -- the divisor
  have hdivisor := fmt.abs_round_sub_le (q := S + 1) (by linarith) (by
    norm_num at hnhigh ⊢
    linarith)
  generalize fmt.round (S + 1) = D at hdivisor ⊢
  obtain ⟨hdlow, hdhigh⟩ := abs_le.mp hdivisor
  have hD : |D - (n + 1)| ≤ 3 * ((n + 1) / 2 ^ 52) := by
    rw [abs_le]
    constructor <;> norm_num at * <;> linarith
  have hDhalf : ((n : ℚ) + 1) / 2 ≤ D := by
    have := (abs_le.mp hD).1
    norm_num at *
    linarith
  have hN : (0 : ℚ) < n + 1 := by linarith
  have hD0 : 0 < D := by linarith
  -- the quotient
  have hquotient : |L / D - m / (n + 1)| ≤ m / (n + 1) / 2 ^ 49 := by
    have hcross : L / D - m / (n + 1) =
        ((L - m) * (n + 1) - m * (D - (n + 1))) / (D * (n + 1)) := by
      field_simp
      ring
    have hnum : |(L - m) * (n + 1) - m * (D - (n + 1))| ≤ 4 * (m * (n + 1)) / 2 ^ 52 := by
      calc |(L - m) * (n + 1) - m * (D - (n + 1))|
          ≤ |(L - m) * (n + 1)| + |m * (D - (n + 1))| := abs_sub _ _
        _ = |L - m| * (n + 1) + m * |D - (n + 1)| := by
          rw [abs_mul, abs_mul, abs_of_pos hN, abs_of_nonneg hm0]
        _ ≤ m / 2 ^ 52 * (n + 1) + m * (3 * ((n + 1) / 2 ^ 52)) :=
          add_le_add (mul_le_mul_of_nonneg_right (abs_le.mpr ⟨hlow, hhigh⟩) hN.le)
            (mul_le_mul_of_nonneg_left hD hm0)
        _ = 4 * (m * (n + 1)) / 2 ^ 52 := by ring
    rw [hcross, abs_div, abs_of_pos (mul_pos hD0 hN), div_le_iff₀ (mul_pos hD0 hN)]
    calc |(L - m) * (n + 1) - m * (D - (n + 1))| ≤ 4 * (m * (n + 1)) / 2 ^ 52 := hnum
      _ = m / 2 ^ 49 * ((n + 1) / 2) := by ring
      _ ≤ m / 2 ^ 49 * D := mul_le_mul_of_nonneg_left hDhalf (by positivity)
      _ = m / (n + 1) / 2 ^ 49 * (D * (n + 1)) := by field_simp
  have hx0 : 0 ≤ (m : ℚ) / (n + 1) := by positivity
  have hxle : (m : ℚ) / (n + 1) ≤ 10 ^ 18 :=
    (div_le_self hm0 (by linarith)).trans hmle
  generalize (m : ℚ) / (n + 1) = x at hquotient hx0 hxle ⊢
  obtain ⟨hqlow, hqhigh⟩ := abs_le.mp hquotient
  have hq0 : 0 ≤ L / D := by positivity
  generalize L / D = q at hqlow hqhigh hq0 ⊢
  have hnear := fmt.near q (by
    rw [abs_of_nonneg hq0]
    norm_num at *
    linarith)
  rw [abs_of_nonneg hq0] at hnear
  obtain ⟨hrlow, hrhigh⟩ := abs_le.mp hnear
  rw [abs_le]
  constructor <;> norm_num at * <;> linarith

/-- **Reading and printing again** a fraction with `k` places. -/
theorem abs_reprint_sub_le (k : ℕ) {a : ℚ} (hle : fixedValue k a ≤ 2 ^ 64) :
    |fixedValue k (fmt.round (fixedValue k a)) - fixedValue k a| ≤
      (fixedValue k a + 1) / 2 ^ 52 := by
  have hv0 : 0 ≤ fixedValue k a := Decimal.fixedValue_nonneg k
  have hnear := fmt.near (fixedValue k a) (by rwa [abs_of_nonneg hv0])
  rw [abs_of_nonneg hv0] at hnear
  have hnearest := Decimal.abs_fixedValue_sub_le_fixedValue k (fmt.round_nonneg hv0) a
  calc |fixedValue k (fmt.round (fixedValue k a)) - fixedValue k a|
      ≤ |fixedValue k (fmt.round (fixedValue k a)) - fmt.round (fixedValue k a)| +
          |fmt.round (fixedValue k a) - fixedValue k a| := abs_sub_le _ _ _
    _ ≤ |fmt.round (fixedValue k a) - fixedValue k a| +
          |fmt.round (fixedValue k a) - fixedValue k a| := by
        rw [abs_sub_comm (fixedValue k a)] at hnearest
        exact add_le_add_left hnearest _
    _ ≤ (fixedValue k a + 1) / 2 ^ 52 := by
        norm_num at hnear ⊢
        linarith

end Rounding

end XtpRs.Lib

import Mathlib.Data.Int.Interval
import Mathlib.Order.Interval.Set.UnorderedInterval
import Mathlib.Tactic.Linarith
import Mathlib.Tactic.Ring

/-!
# Ramps

A ramp takes an integer from a start to a target in a number of ticks, each by the same truncated
quotient, with the rest made up in the last.  It never turns back and never leaves the interval
between its ends.
-/

namespace ZephyrSamples
namespace Ramp

/-- Where a ramp from `x` to `y` in `n` ticks is after `k` of them. -/
def ramp (x y : ℤ) (n k : ℕ) : ℤ := if k < n then x - k * (x - y).tdiv n else y

variable {x y : ℤ} {n k : ℕ}

theorem ramp_of_lt (h : k < n) : ramp x y n k = x - k * (x - y).tdiv n := if_pos h

theorem ramp_of_le (h : n ≤ k) : ramp x y n k = y := if_neg (Nat.not_lt.mpr h)

theorem ramp_zero (h : 0 < n) : ramp x y n 0 = x := by
  rw [ramp_of_lt h]
  simp

/-- Every tick but the last is the same step. -/
theorem ramp_succ (h : k + 1 < n) : ramp x y n (k + 1) = ramp x y n k - (x - y).tdiv n := by
  rw [ramp_of_lt h, ramp_of_lt (by omega)]
  push_cast
  ring

/-- Downwards, all the steps together go no further than the target. -/
theorem ramp_down (hle : y ≤ x) (h : k < n) :
    0 ≤ (x - y).tdiv n ∧ k * (x - y).tdiv n + (x - y).tdiv n ≤ x - y := by
  have hdiv := Int.mul_tdiv_add_tmod (x - y) n
  have hmod := Int.tmod_nonneg (n : ℤ) (by omega : 0 ≤ x - y)
  have hquot := Int.tdiv_nonneg (by omega : 0 ≤ x - y) (Int.natCast_nonneg n)
  have hk : (k : ℤ) + 1 ≤ n := by omega
  exact ⟨hquot, by nlinarith⟩

/-- Upwards likewise. -/
theorem ramp_up (hle : x ≤ y) (h : k < n) :
    (x - y).tdiv n ≤ 0 ∧ x - y ≤ k * (x - y).tdiv n + (x - y).tdiv n := by
  obtain ⟨hquot, hsum⟩ := ramp_down hle h
  have hneg : (y - x).tdiv n = -(x - y).tdiv n := by
    rw [← Int.neg_tdiv, neg_sub]
  rw [hneg] at hquot hsum
  constructor <;> linarith

theorem ramp_mem_uIcc : ramp x y n k ∈ Set.uIcc x y := by
  by_cases hk : k < n
  · rw [ramp_of_lt hk]
    rcases le_total y x with hle | hle
    · obtain ⟨hquot, hsum⟩ := ramp_down hle hk
      have hsteps : 0 ≤ (k : ℤ) * (x - y).tdiv n := mul_nonneg (Int.natCast_nonneg k) hquot
      exact Set.mem_uIcc_of_ge (by linarith) (by linarith)
    · obtain ⟨hquot, hsum⟩ := ramp_up hle hk
      have hsteps : (k : ℤ) * (x - y).tdiv n ≤ 0 :=
        mul_nonpos_of_nonneg_of_nonpos (Int.natCast_nonneg k) hquot
      exact Set.mem_uIcc_of_le (by linarith) (by linarith)
  · rw [ramp_of_le (Nat.not_lt.mp hk)]
    exact Set.right_mem_uIcc

/-- A tick goes on towards the target. -/
theorem ramp_succ_mem_uIcc : ramp x y n (k + 1) ∈ Set.uIcc (ramp x y n k) y := by
  by_cases hk : k + 1 < n
  · rw [ramp_succ hk, ramp_of_lt (by omega)]
    rcases le_total y x with hle | hle
    · obtain ⟨hquot, hsum⟩ := ramp_down hle (by omega : k < n)
      exact Set.mem_uIcc_of_ge (by linarith) (by linarith)
    · obtain ⟨hquot, hsum⟩ := ramp_up hle (by omega : k < n)
      exact Set.mem_uIcc_of_le (by linarith) (by linarith)
  · rw [ramp_of_le (Nat.not_lt.mp hk)]
    exact Set.right_mem_uIcc

end Ramp
end ZephyrSamples

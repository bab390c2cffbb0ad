import Mathlib.Algebra.BigOperators.Intervals
import Mathlib.Algebra.Order.BigOperators.Group.Finset
import Mathlib.Algebra.Order.Field.Basic
import Mathlib.Tactic.Linarith

/-! # Delays that double up to a ceiling

The delay after `n` failures in a row is `initial * 2 ^ n`, the ceiling at most. A delay below
the ceiling is saved time; what a whole row of failures can still save is its shortfall.
-/

namespace KalshiBot.Backoff

set_option autoImplicit false

variable {K : Type} [Field K] [LinearOrder K] [IsStrictOrderedRing K]

def delay (initial ceiling : K) (failures : ℕ) : K :=
  min ceiling (initial * 2 ^ failures)

/-- What the failures from the `failures`-th up to the `steps`-th save against the ceiling. -/
def shortfall (initial ceiling : K) (steps failures : ℕ) : K :=
  ∑ failure ∈ Finset.Ico failures steps, (ceiling - delay initial ceiling failure)

variable {initial ceiling : K} {steps : ℕ}

omit [IsStrictOrderedRing K] in
theorem delay_zero (h : initial ≤ ceiling) : delay initial ceiling 0 = initial := by
  rw [delay, pow_zero, mul_one, min_eq_right h]

omit [IsStrictOrderedRing K] in
theorem delay_le (failures : ℕ) : delay initial ceiling failures ≤ ceiling :=
  min_le_left _ _

theorem delay_pos (hInitial : 0 < initial) (hCeiling : 0 < ceiling) (failures : ℕ) :
    0 < delay initial ceiling failures :=
  lt_min hCeiling (mul_pos hInitial (pow_pos two_pos failures))

/-- One more failure: the delay is doubled, and cut at the ceiling. -/
theorem delay_succ (hCeiling : 0 ≤ ceiling) (failures : ℕ) :
    min (delay initial ceiling failures * 2) ceiling = delay initial ceiling (failures + 1) := by
  have hDouble : ceiling ≤ ceiling * 2 := by linarith
  rw [delay, delay, min_mul_of_nonneg _ _ zero_le_two, pow_succ, ← mul_assoc, min_right_comm,
    min_eq_right hDouble]

theorem delay_mono (hInitial : 0 ≤ initial) : Monotone (delay initial ceiling) := by
  intro failures later h
  have hPow : (2 : K) ^ failures ≤ 2 ^ later := pow_le_pow_right₀ one_le_two h
  exact min_le_min le_rfl (mul_le_mul_of_nonneg_left hPow hInitial)

theorem delay_of_steps_le (hInitial : 0 ≤ initial) (hSteps : delay initial ceiling steps = ceiling)
    {failures : ℕ} (h : steps ≤ failures) : delay initial ceiling failures = ceiling :=
  le_antisymm (delay_le failures) (hSteps.ge.trans (delay_mono hInitial h))

theorem shortfall_nonneg (failures : ℕ) : 0 ≤ shortfall initial ceiling steps failures :=
  Finset.sum_nonneg fun failure _ => sub_nonneg.mpr (delay_le failure)

theorem shortfall_le_zero (failures : ℕ) :
    shortfall initial ceiling steps failures ≤ shortfall initial ceiling steps 0 := by
  refine Finset.sum_le_sum_of_subset_of_nonneg (Finset.Ico_subset_Ico_left failures.zero_le) ?_
  intro failure _ _
  exact sub_nonneg.mpr (delay_le failure)

/-- A failure costs a full ceiling of time, in its delay or out of the shortfall. -/
theorem delay_add_shortfall (hInitial : 0 ≤ initial)
    (hSteps : delay initial ceiling steps = ceiling) (failures : ℕ) :
    delay initial ceiling failures + shortfall initial ceiling steps failures =
      ceiling + shortfall initial ceiling steps (failures + 1) := by
  obtain hBefore | hAfter := lt_or_ge failures steps
  · rw [shortfall, Finset.sum_eq_sum_Ico_succ_bot hBefore, ← shortfall, ← add_assoc,
      add_sub_cancel]
  · rw [delay_of_steps_le hInitial hSteps hAfter, shortfall, shortfall,
      Finset.Ico_eq_empty_of_le hAfter, Finset.Ico_eq_empty_of_le (by omega)]

end KalshiBot.Backoff

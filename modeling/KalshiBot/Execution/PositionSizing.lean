import KalshiBot.Library.PythonText
import Mathlib.Algebra.Order.Field.Basic
import Mathlib.Tactic.GCongr

/-! # Position sizing

A fraction of the Kelly stake, capped by a share of the balance and floored at the
configured count.
-/

namespace KalshiBot.Execution

open PythonText

set_option autoImplicit false

def sizePosition (edge kalshiPrice balanceDollars kellyFraction maxPositionPctOfBalance : ℚ)
    (minContractCount : ℤ) : ℤ :=
  if ¬(0 < kalshiPrice ∧ kalshiPrice < 1) ∨ balanceDollars ≤ 0 then minContractCount
  else
    let fullKellyFraction := max 0 edge / (1 - kalshiPrice)
    let stakeFraction := min (fullKellyFraction * max 0 kellyFraction) maxPositionPctOfBalance
    let stakeDollars := stakeFraction * balanceDollars
    max (truncate (stakeDollars / kalshiPrice)) minContractCount

/-- The stake of a tradeable price and a known balance. -/
def stakeDollars (edge kalshiPrice balanceDollars kellyFraction maxPositionPctOfBalance : ℚ) : ℚ :=
  min (max 0 edge / (1 - kalshiPrice) * max 0 kellyFraction) maxPositionPctOfBalance * balanceDollars

theorem sizePosition_of_unsized {edge kalshiPrice balanceDollars kellyFraction cap : ℚ} {least : ℤ}
    (h : ¬(0 < kalshiPrice ∧ kalshiPrice < 1) ∨ balanceDollars ≤ 0) :
    sizePosition edge kalshiPrice balanceDollars kellyFraction cap least = least := if_pos h

theorem sizePosition_of_sized {edge kalshiPrice balanceDollars kellyFraction cap : ℚ} {least : ℤ}
    (hPrice : 0 < kalshiPrice ∧ kalshiPrice < 1) (hBalance : 0 < balanceDollars) :
    sizePosition edge kalshiPrice balanceDollars kellyFraction cap least =
      max (truncate (stakeDollars edge kalshiPrice balanceDollars kellyFraction cap / kalshiPrice))
        least :=
  if_neg (not_or.mpr ⟨not_not.mpr hPrice, not_le.mpr hBalance⟩)

theorem le_sizePosition (edge kalshiPrice balanceDollars kellyFraction cap : ℚ) (least : ℤ) :
    least ≤ sizePosition edge kalshiPrice balanceDollars kellyFraction cap least := by
  unfold sizePosition
  split
  · exact le_rfl
  · exact le_max_right _ _

section Stakes

variable {edge edge' kalshiPrice balance balance' kelly kelly' cap cap' : ℚ}

theorem sized_or_unsized (kalshiPrice balance : ℚ) :
    (0 < kalshiPrice ∧ kalshiPrice < 1) ∧ 0 < balance ∨
      (¬(0 < kalshiPrice ∧ kalshiPrice < 1) ∨ balance ≤ 0) := by
  rw [← not_lt, ← not_and_or]
  exact Decidable.em _

theorem kellyStake_nonneg (hPrice : kalshiPrice < 1) :
    0 ≤ max 0 edge / (1 - kalshiPrice) * max 0 kelly :=
  mul_nonneg (div_nonneg (le_max_left _ _) (sub_pos.mpr hPrice).le) (le_max_left _ _)

theorem stakeDollars_nonneg (hPrice : kalshiPrice < 1) (hBalance : 0 ≤ balance) (hCap : 0 ≤ cap) :
    0 ≤ stakeDollars edge kalshiPrice balance kelly cap :=
  mul_nonneg (le_min (kellyStake_nonneg hPrice) hCap) hBalance

theorem stakeDollars_mono (hPrice : kalshiPrice < 1) (hBalance : 0 ≤ balance) (hEdge : edge ≤ edge')
    (hKelly : kelly ≤ kelly') (hCap : cap ≤ cap') :
    stakeDollars edge kalshiPrice balance kelly cap ≤
      stakeDollars edge' kalshiPrice balance kelly' cap' := by
  have hRoom : 0 ≤ 1 - kalshiPrice := (sub_pos.mpr hPrice).le
  unfold stakeDollars
  gcongr

/-- Nothing but the balance decides whether a stake is computed at all. -/
theorem sizePosition_mono (hEdge : edge ≤ edge') (hKelly : kelly ≤ kelly') (hCap : cap ≤ cap')
    (least : ℤ) :
    sizePosition edge kalshiPrice balance kelly cap least ≤
      sizePosition edge' kalshiPrice balance kelly' cap' least := by
  obtain ⟨hPrice, hBalance⟩ | hUnsized := sized_or_unsized kalshiPrice balance
  · have hStake : stakeDollars edge kalshiPrice balance kelly cap / kalshiPrice ≤
        stakeDollars edge' kalshiPrice balance kelly' cap' / kalshiPrice :=
      div_le_div_of_nonneg_right
        (stakeDollars_mono hPrice.2 hBalance.le hEdge hKelly hCap) hPrice.1.le
    rw [sizePosition_of_sized hPrice hBalance, sizePosition_of_sized hPrice hBalance]
    exact max_le_max_right least (truncate_mono hStake)
  · rw [sizePosition_of_unsized hUnsized, sizePosition_of_unsized hUnsized]

theorem sizePosition_mono_balance (hCap : 0 ≤ cap) (hBalance : balance ≤ balance') (least : ℤ) :
    sizePosition edge kalshiPrice balance kelly cap least ≤
      sizePosition edge kalshiPrice balance' kelly cap least := by
  obtain ⟨hPrice, hPositive⟩ | hUnsized := sized_or_unsized kalshiPrice balance
  · have hStake : stakeDollars edge kalshiPrice balance kelly cap / kalshiPrice ≤
        stakeDollars edge kalshiPrice balance' kelly cap / kalshiPrice :=
      div_le_div_of_nonneg_right (mul_le_mul_of_nonneg_left hBalance
        (le_min (kellyStake_nonneg hPrice.2) hCap)) hPrice.1.le
    rw [sizePosition_of_sized hPrice hPositive,
      sizePosition_of_sized hPrice (hPositive.trans_le hBalance)]
    exact max_le_max_right least (truncate_mono hStake)
  · rw [sizePosition_of_unsized hUnsized]
    exact le_sizePosition _ _ _ _ _ _

/-- More than the least count is bought only for what the caps allow. -/
theorem le_or_mul_le_of_le_sizePosition (hCap : 0 ≤ cap) {least count : ℤ}
    (hCount : count ≤ sizePosition edge kalshiPrice balance kelly cap least) :
    count ≤ least ∨
      count * kalshiPrice ≤ balance * min cap (max 0 kelly * max 0 edge / (1 - kalshiPrice)) := by
  obtain ⟨hPrice, hBalance⟩ | hUnsized := sized_or_unsized kalshiPrice balance
  · rw [sizePosition_of_sized hPrice hBalance] at hCount
    obtain hTruncated | hLeast := le_max_iff.mp hCount
    · right
      have hStake : 0 ≤ stakeDollars edge kalshiPrice balance kelly cap :=
        stakeDollars_nonneg hPrice.2 hBalance.le hCap
      rw [truncate_of_nonneg (div_nonneg hStake hPrice.1.le)] at hTruncated
      calc (count : ℚ) * kalshiPrice
          ≤ stakeDollars edge kalshiPrice balance kelly cap :=
            (le_div_iff₀ hPrice.1).mp (Int.le_floor.mp hTruncated)
        _ = balance * min cap (max 0 kelly * max 0 edge / (1 - kalshiPrice)) := by
            rw [stakeDollars, mul_comm, min_comm, div_mul_eq_mul_div, mul_comm (max 0 edge)]
    · exact .inl hLeast
  · rw [sizePosition_of_unsized hUnsized] at hCount
    exact .inl hCount

end Stakes

end KalshiBot.Execution

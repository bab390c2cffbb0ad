import Mathlib.Algebra.BigOperators.Group.List.Basic
import Mathlib.Algebra.Order.Floor.Ring
import Mathlib.Tactic.Linarith

/-! # Sums of rounded parts

The parts of a sum, each rounded by itself, add up to about the rounded sum. Rounding up never
loses, and gains less than one unit for each part but the first.
-/

namespace KalshiBot.RoundedSums

set_option autoImplicit false

variable {K : Type} [Field K] [LinearOrder K] [IsStrictOrderedRing K]

section Up

variable [FloorRing K]

theorem ceil_sum_le (parts : List K) : ⌈parts.sum⌉ ≤ (parts.map Int.ceil).sum := by
  induction parts with
  | nil => simp
  | cons part parts ih =>
    rw [List.map_cons, List.sum_cons, List.sum_cons]
    exact (Int.ceil_add_le part parts.sum).trans (by omega)

theorem sum_ceil_le {parts : List K} (hSome : parts ≠ []) :
    (parts.map Int.ceil).sum ≤ ⌈parts.sum⌉ + (parts.length - 1) := by
  induction parts with
  | nil => exact absurd rfl hSome
  | cons part parts ih =>
    rw [List.map_cons, List.sum_cons, List.sum_cons, List.length_cons]
    obtain rfl | hRest := eq_or_ne parts []
    · simp
    · have hTwo := Int.ceil_add_ceil_le part parts.sum
      have hTail := ih hRest
      push_cast
      omega

end Up

section Nearest

variable {round : K → K} {error : K} (hRound : ∀ x, |round x - x| ≤ error)

include hRound

theorem abs_sum_sub_le (parts : List K) :
    |(parts.map round).sum - parts.sum| ≤ parts.length * error := by
  induction parts with
  | nil => simp
  | cons part parts ih =>
    rw [List.map_cons, List.sum_cons, List.sum_cons, List.length_cons, add_sub_add_comm]
    refine (abs_add_le _ _).trans ?_
    push_cast
    linarith [hRound part]

theorem abs_sum_sub_round_le (parts : List K) :
    |(parts.map round).sum - round parts.sum| ≤ (parts.length + 1) * error := by
  have hParts := abs_sum_sub_le hRound parts
  have hWhole := hRound parts.sum
  rw [abs_sub_comm] at hWhole
  have hTriangle := abs_sub_le (parts.map round).sum parts.sum (round parts.sum)
  linarith

end Nearest

end KalshiBot.RoundedSums

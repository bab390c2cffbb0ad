import Mathlib.Algebra.BigOperators.Group.Finset.Basic
import Mathlib.Algebra.Order.BigOperators.Group.Finset
import Mathlib.Algebra.Order.Field.Basic
import Mathlib.Data.Nat.Cast.Order.Field

/-! # Weighted Jaccard similarity

Shared weight over total weight, and shared members over all members where nothing has a weight.
-/

namespace KalshiBot

set_option autoImplicit false

variable {T K : Type} [DecidableEq T] [Field K] [LinearOrder K]

/-- Similarity of two finite sets, `0` where either is empty. -/
def weightedJaccard (weight : T → K) (left right : Finset T) : K :=
  if left = ∅ ∨ right = ∅ then 0
  else if ∑ token ∈ left ∪ right, weight token ≤ 0 then
    (left ∩ right).card / (left ∪ right).card
  else (∑ token ∈ left ∩ right, weight token) / ∑ token ∈ left ∪ right, weight token

theorem weightedJaccard_comm (weight : T → K) (left right : Finset T) :
    weightedJaccard weight left right = weightedJaccard weight right left := by
  rw [weightedJaccard, weightedJaccard, Finset.union_comm, Finset.inter_comm]
  exact if_congr or_comm rfl rfl

theorem weightedJaccard_of_empty {weight : T → K} {left right : Finset T}
    (h : left = ∅ ∨ right = ∅) : weightedJaccard weight left right = 0 := if_pos h

theorem weightedJaccard_of_disjoint {weight : T → K} {left right : Finset T}
    (h : Disjoint left right) : weightedJaccard weight left right = 0 := by
  rw [weightedJaccard, Finset.disjoint_iff_inter_eq_empty.mp h, Finset.card_empty,
    Finset.sum_empty, Nat.cast_zero, zero_div, zero_div, ite_self, ite_self]

variable [IsStrictOrderedRing K]

theorem weightedJaccard_self {weight : T → K} {tokens : Finset T} (h : tokens.Nonempty) :
    weightedJaccard weight tokens tokens = 1 := by
  rw [weightedJaccard, Finset.union_self, Finset.inter_self, if_neg (by simp [h.ne_empty])]
  split
  next => exact div_self (Nat.cast_ne_zero.mpr h.card_ne_zero)
  next hWeight => exact div_self (not_le.mp hWeight).ne'

theorem weightedJaccard_nonneg {weight : T → K} (h : ∀ token, 0 ≤ weight token)
    (left right : Finset T) : 0 ≤ weightedJaccard weight left right := by
  rw [weightedJaccard]
  split
  next => exact le_refl 0
  next =>
    split
    next => exact div_nonneg (Nat.cast_nonneg _) (Nat.cast_nonneg _)
    next hWeight =>
      exact div_nonneg (Finset.sum_nonneg fun token _ => h token) (not_le.mp hWeight).le

theorem weightedJaccard_le_one {weight : T → K} (h : ∀ token, 0 ≤ weight token)
    (left right : Finset T) : weightedJaccard weight left right ≤ 1 := by
  have hShared : left ∩ right ⊆ left ∪ right :=
    Finset.inter_subset_left.trans Finset.subset_union_left
  rw [weightedJaccard]
  split
  next => exact zero_le_one
  next =>
    split
    next =>
      exact div_le_one_of_le₀ (Nat.cast_le.mpr (Finset.card_le_card hShared)) (Nat.cast_nonneg _)
    next hWeight =>
      exact div_le_one_of_le₀
        (Finset.sum_le_sum_of_subset_of_nonneg hShared fun token _ _ => h token)
        (not_le.mp hWeight).le

end KalshiBot

import KalshiBot.CrossVenue.MissingData
import KalshiBot.Library.WeightedJaccard
import Mathlib.Data.Rat.Cast.Order

/-! # The scale of scores

Overlap of tokens is a similarity of their sets, and a score is a weighted mean of three ratios.
-/

namespace KalshiBot.CrossVenue

open PythonText

set_option autoImplicit false

section Overlap

variable {K : Type} [Field K] [LinearOrder K]

theorem weightedOverlap_eq (left right : List String) (weights : Dict String K) (default : K) :
    weightedOverlap left right weights default =
      weightedJaccard (fun token => Dict.getD weights token default) left.toFinset right.toFinset := by
  have hUnion : (left.dedup ∪ right.dedup).Nodup := right.nodup_dedup.union _
  have hShared : (left.dedup ∩ right.dedup).Nodup := left.nodup_dedup.inter _
  have hUnionSet : (left.dedup ∪ right.dedup).toFinset = left.toFinset ∪ right.toFinset := by
    ext token
    simp
  have hSharedSet : (left.dedup ∩ right.dedup).toFinset = left.toFinset ∩ right.toFinset := by
    ext token
    simp
  have hEmpty (tokens : List String) : tokens.dedup = [] ↔ tokens.toFinset = ∅ := by
    rw [List.dedup_eq_nil, List.toFinset_eq_empty_iff]
  rw [weightedOverlap, weightedJaccard]
  dsimp only
  rw [← List.sum_toFinset _ hUnion, ← List.sum_toFinset _ hShared,
    ← List.toFinset_card_of_nodup hUnion, ← List.toFinset_card_of_nodup hShared, hUnionSet, hSharedSet]
  exact if_congr (or_congr (hEmpty left) (hEmpty right)) rfl rfl

/-- The weights of the map, and that of the tokens outside it, are non-negative. -/
structure NonnegWeights (weights : Dict String K) (default : K) : Prop where
  listed : ∀ token weight, weights.lookup token = some weight → 0 ≤ weight
  unseen : 0 ≤ default

theorem NonnegWeights.weigh {weights : Dict String K} {default : K}
    (h : NonnegWeights weights default) (token : String) :
    0 ≤ Dict.getD weights token default := by
  rw [Dict.getD]
  cases hLookup : weights.lookup token with
  | none => exact h.unseen
  | some weight => exact h.listed token weight hLookup

/-- A similarity on the scale from `0` to `1`. -/
structure OverlapLaws (weights : Dict String K) (default : K) : Prop where
  nonneg : ∀ left right, 0 ≤ weightedOverlap left right weights default
  le_one : ∀ left right, weightedOverlap left right weights default ≤ 1
  symmetric : ∀ left right,
    weightedOverlap left right weights default = weightedOverlap right left weights default
  sets : ∀ left left' right right', (∀ token, token ∈ left ↔ token ∈ left') →
    (∀ token, token ∈ right ↔ token ∈ right') →
      weightedOverlap left right weights default = weightedOverlap left' right' weights default
  equal : ∀ left right, (∀ token, token ∈ left ↔ token ∈ right) → left ≠ [] →
    weightedOverlap left right weights default = 1
  disjoint : ∀ left right, (∀ token ∈ left, token ∉ right) →
    weightedOverlap left right weights default = 0
  empty : ∀ left right, left = [] ∨ right = [] → weightedOverlap left right weights default = 0

theorem overlapLaws [IsStrictOrderedRing K] {weights : Dict String K} {default : K}
    (h : NonnegWeights weights default) : OverlapLaws weights default where
  nonneg left right := by
    rw [weightedOverlap_eq]
    exact weightedJaccard_nonneg h.weigh _ _
  le_one left right := by
    rw [weightedOverlap_eq]
    exact weightedJaccard_le_one h.weigh _ _
  symmetric left right := by
    rw [weightedOverlap_eq, weightedOverlap_eq, weightedJaccard_comm]
  sets left left' right right' hLeft hRight := by
    rw [weightedOverlap_eq, weightedOverlap_eq, List.toFinset.ext hLeft, List.toFinset.ext hRight]
  equal left right hEqual hSome := by
    rw [weightedOverlap_eq, ← List.toFinset.ext hEqual]
    exact weightedJaccard_self (List.toFinset_nonempty_iff left |>.mpr hSome)
  disjoint left right hApart := by
    rw [weightedOverlap_eq]
    refine weightedJaccard_of_disjoint (Finset.disjoint_left.mpr ?_)
    intro token hLeft hRight
    exact hApart token (List.mem_toFinset.mp hLeft) (List.mem_toFinset.mp hRight)
  empty left right hEmpty := by
    rw [weightedOverlap_eq]
    refine weightedJaccard_of_empty ?_
    rwa [List.toFinset_eq_empty_iff, List.toFinset_eq_empty_iff]

end Overlap

section Scores

variable (u : Unicode) (config : MatcherConfig)

theorem timeAgreement_le_one (kalshi other : NormalizedMarket) :
    (timeAgreement config kalshi other).1 ≤ 1 := by
  rw [timeAgreement]
  split
  next =>
    dsimp only
    split <;> norm_num
  next =>
    split
    next =>
      dsimp only
      split <;> norm_num
    next => norm_num

theorem labelAgreement_le_one (kalshi : NormalizedMarket) (other : Indexed) (matchedByTeam : Bool) :
    (labelAgreement u kalshi other matchedByTeam).1 ≤ 1 := by
  rw [labelAgreement]
  split
  next => exact le_refl 1
  next =>
    split
    next => exact zero_le_one
    next =>
      exact div_le_one_of_le₀ (Nat.cast_le.mpr (List.length_filter_le _ _)) (Nat.cast_nonneg _)

theorem timeAgreement_nonneg (kalshi other : NormalizedMarket) :
    0 ≤ (timeAgreement config kalshi other).1 := by
  rw [timeAgreement]
  split
  next =>
    dsimp only
    split <;> norm_num
  next =>
    split
    next =>
      dsimp only
      split <;> norm_num
    next => norm_num

theorem labelAgreement_nonneg (kalshi : NormalizedMarket) (other : Indexed) (matchedByTeam : Bool) :
    0 ≤ (labelAgreement u kalshi other matchedByTeam).1 := by
  rw [labelAgreement]
  split
  next => exact zero_le_one
  next =>
    split
    next => exact le_refl 0
    next => exact div_nonneg (Nat.cast_nonneg _) (Nat.cast_nonneg _)

variable {K : Type} [Field K] [LinearOrder K] [IsStrictOrderedRing K] (f : FloatMath K)

theorem score_nonneg {weights : Dict String K} (h : NonnegWeights weights 1)
    (kalshi other : Indexed) : 0 ≤ (score u f config kalshi other weights).1 := by
  have hLexical := (overlapLaws h).nonneg kalshi.tokens other.tokens
  have hTime := timeAgreement_nonneg config kalshi.market other.market
  rw [score]
  dsimp only
  generalize ((resolveAlignment u kalshi.market other.market).1.isSome &&
    decide ("teams".toList <+: (resolveAlignment u kalshi.market other.market).2.toList)) = matched
  have hLabel := labelAgreement_nonneg u kalshi.market other matched
  have hTimeShare :
      (0 : K) ≤ ((20 / 100 * (timeAgreement config kalshi.market other.market).1 : ℚ) : K) :=
    Rat.cast_nonneg.mpr (by positivity)
  have hLabelShare :
      (0 : K) ≤ ((35 / 100 * (labelAgreement u kalshi.market other matched).1 : ℚ) : K) :=
    Rat.cast_nonneg.mpr (by positivity)
  have hLexicalShare :
      (0 : K) ≤ ((45 / 100 : ℚ) : K) * weightedOverlap kalshi.tokens other.tokens weights :=
    mul_nonneg (Rat.cast_nonneg.mpr (by norm_num)) hLexical
  exact add_nonneg (add_nonneg hLexicalShare hTimeShare) hLabelShare

theorem score_le_one {weights : Dict String K} (h : NonnegWeights weights 1)
    (kalshi other : Indexed) : (score u f config kalshi other weights).1 ≤ 1 := by
  have hLexical := (overlapLaws h).le_one kalshi.tokens other.tokens
  have hTime := timeAgreement_le_one config kalshi.market other.market
  rw [score]
  dsimp only
  generalize ((resolveAlignment u kalshi.market other.market).1.isSome &&
    decide ("teams".toList <+: (resolveAlignment u kalshi.market other.market).2.toList)) = matched
  have hLabel := labelAgreement_le_one u kalshi.market other matched
  calc
    _ ≤ ((45 / 100 : ℚ) : K) * 1 + ((20 / 100 * 1 : ℚ) : K) + ((35 / 100 * 1 : ℚ) : K) := by
      gcongr
    _ = 1 := by norm_num

omit [IsStrictOrderedRing K] in
theorem lookup_inverseDocumentFrequency_nonneg {documents : List (List String)} {token : String}
    {weight : K} (h : (inverseDocumentFrequency f documents).lookup token = some weight) :
    0 ≤ weight := by
  rw [inverseDocumentFrequency] at h
  split at h
  · cases h
  · rw [Dict.lookup_mapValues] at h
    obtain ⟨frequency, -, rfl⟩ := Option.map_eq_some_iff.mp h
    exact le_max_left _ _

theorem corpusWeights_nonneg (kalshi other : List Indexed) :
    NonnegWeights (corpusWeights f kalshi other) 1 where
  listed _ _ hLookup := lookup_inverseDocumentFrequency_nonneg f hLookup
  unseen := zero_le_one

/-- A run weighs by the corpus, so whatever it returns is on the scale. -/
theorem matchAll_scores {kalshiMarkets otherMarkets : List NormalizedMarket} {pair : MatchedPair K}
    (h : pair ∈ (matchAll u f config kalshiMarkets otherMarkets).1) :
    ((config.minScore : ℚ) : K) ≤ pair.score ∧ pair.score ≤ 1 := by
  obtain ⟨kalshi, other, hPair⟩ := exists_evaluate_of_mem_matchAll u f config h
  have hCarries := evaluate_carries u f config hPair
  refine ⟨hCarries.likely, ?_⟩
  rw [hCarries.scored]
  exact score_le_one u config f (corpusWeights_nonneg f _ _) kalshi other

/-- Overlap is a similarity, and no pair is returned below `min_score` or above one. -/
theorem score_bounds {weights : Dict String K} {default : K} (h : NonnegWeights weights default) :
    OverlapLaws weights default ∧
      ∀ kalshi other pair, evaluate u f config kalshi other weights = some pair →
        ((config.minScore : ℚ) : K) ≤ pair.score ∧ pair.score ≤ 1 := by
  refine ⟨overlapLaws h, ?_⟩
  intro kalshi other pair hPair
  have hCarries := evaluate_carries u f config hPair
  refine ⟨hCarries.likely, ?_⟩
  rw [hCarries.scored]
  exact score_le_one u config f ⟨h.listed, zero_le_one⟩ kalshi other

theorem fedCut_score_bounds :
    OverlapLaws (corpusWeights twoDocuments [.of .ascii fedCutKalshi] [.of .ascii fedCutOther]) 1 ∧
      ∀ kalshi other pair,
        evaluate .ascii twoDocuments {} kalshi other
            (corpusWeights twoDocuments [.of .ascii fedCutKalshi] [.of .ascii fedCutOther]) =
          some pair →
        ((42 / 100 : ℚ) : ℚ) ≤ pair.score ∧ pair.score ≤ 1 :=
  score_bounds .ascii {} twoDocuments (corpusWeights_nonneg twoDocuments _ _)

end Scores

end KalshiBot.CrossVenue

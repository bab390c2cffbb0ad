import KalshiBot.CrossVenue.MissingData
import Mathlib.Data.Rat.Cast.Order

/-! # Tightening the configuration

A tolerance weighs on the score and again at the gate; both move the same way.
-/

namespace KalshiBot.CrossVenue

open PythonText

set_option autoImplicit false

/-- The same candidates under thresholds no lower and tolerances no wider. -/
structure Tighter (tight loose : MatcherConfig) : Prop where
  candidates : tight.maxCandidatesPerMarket = loose.maxCandidatesPerMarket
  minScore : loose.minScore ≤ tight.minScore
  strongScore : loose.strongScore ≤ tight.strongScore
  scheduledTime : tight.scheduledTimeToleranceSeconds ≤ loose.scheduledTimeToleranceSeconds
  expiry : tight.expiryToleranceSeconds ≤ loose.expiryToleranceSeconds

section Gate

variable {tight loose : MatcherConfig} (h : Tighter tight loose) (kalshi other : NormalizedMarket)

include h in
theorem timeAgreement_le : (timeAgreement tight kalshi other).1 ≤
    (timeAgreement loose kalshi other).1 := by
  have hStart : (tight.scheduledTimeToleranceSeconds : ℚ) ≤ loose.scheduledTimeToleranceSeconds :=
    Int.cast_le.mpr h.scheduledTime
  have hExpiry : (tight.expiryToleranceSeconds : ℚ) ≤ loose.expiryToleranceSeconds :=
    Int.cast_le.mpr h.expiry
  rw [timeAgreement, timeAgreement]
  cases kalshi.terms.scheduledEventTime <;> cases other.terms.scheduledEventTime
  case some.some kalshiStart otherStart =>
    dsimp only
    split
    next hWithin => rw [if_pos (hWithin.trans hStart)]
    next => split <;> norm_num
  all_goals
    dsimp only
    cases kalshi.terms.expiryTime <;> cases other.terms.expiryTime
    case some.some kalshiExpiry otherExpiry =>
      dsimp only
      split
      next hWithin => rw [if_pos (hWithin.trans hExpiry)]
      next => split <;> norm_num
    all_goals exact le_refl _

variable {kalshi other}

include h in
theorem StartsAgree.loosen (hAgree : StartsAgree tight kalshi other) :
    StartsAgree loose kalshi other := by
  obtain ⟨kalshiStart, hKalshi, otherStart, hOther, hWithin⟩ := hAgree
  exact ⟨kalshiStart, hKalshi, otherStart, hOther,
    hWithin.trans (Int.cast_le.mpr h.scheduledTime)⟩

include h in
theorem clear_loosen (u : Unicode) (hClear : (settlementBlockers u tight kalshi other).1 = []) :
    (settlementBlockers u loose kalshi other).1 = [] := by
  rw [settlementBlockers_eq_nil_iff] at hClear ⊢
  obtain ⟨hExhaustive, hLevel, hTiming, hSources⟩ := hClear
  exact ⟨hExhaustive, hLevel, hTiming.imp_left (StartsAgree.loosen h), hSources⟩

end Gate

section Scores

variable {K : Type} [Field K] [LinearOrder K] [IsStrictOrderedRing K] (u : Unicode)
  (f : FloatMath K) {tight loose : MatcherConfig} (h : Tighter tight loose)

include h in
theorem score_le (kalshi other : Indexed) (weights : Dict String K) :
    (score u f tight kalshi other weights).1 ≤ (score u f loose kalshi other weights).1 := by
  have hTime := timeAgreement_le h kalshi.market other.market
  rw [score, score]
  dsimp only
  gcongr

include h in
theorem ReachesGate.loosen {kalshi other : Indexed} {weights : Dict String K}
    (hReached : ReachesGate u f tight kalshi other weights) :
    ReachesGate u f loose kalshi other weights where
  likely := (Rat.cast_le.mpr h.minScore).trans
    (hReached.likely.trans (score_le u f h kalshi other weights))
  strong := (Rat.cast_le.mpr h.strongScore).trans
    (hReached.strong.trans (score_le u f h kalshi other weights))
  sameClaim := hReached.sameClaim
  aligned := hReached.aligned

end Scores

section Hedges

variable {K : Type}

/-- What an identical pair is traded as: the markets, and the side that goes with Kalshi's YES. -/
def hedgeOf (pair : MatchedPair K) : Option (NormalizedMarket × NormalizedMarket × Bool) :=
  if pair.confidence = .identical then some (pair.kalshi, pair.other, pair.aligned) else none

def hedges (pairs : List (MatchedPair K)) : List (NormalizedMarket × NormalizedMarket × Bool) :=
  pairs.filterMap hedgeOf

theorem mem_hedges_iff {pairs : List (MatchedPair K)} {kalshi other : NormalizedMarket}
    {aligned : Bool} : (kalshi, other, aligned) ∈ hedges pairs ↔
      ∃ pair ∈ pairs, pair.confidence = .identical ∧ pair.kalshi = kalshi ∧ pair.other = other ∧
        pair.aligned = aligned := by
  simp [hedges, hedgeOf]

variable [Field K] [LinearOrder K] (u : Unicode) (f : FloatMath K)

theorem hedgeOf_evaluate_iff {config : MatcherConfig} {kalshi other : Indexed}
    {weights : Dict String K} {hedge : NormalizedMarket × NormalizedMarket × Bool} :
    (evaluate u f config kalshi other weights).bind hedgeOf = some hedge ↔
      hedge = (kalshi.market, other.market,
        (resolveAlignment u kalshi.market other.market).1.getD true) ∧
      ReachesGate u f config kalshi other weights ∧
        (settlementBlockers u config kalshi.market other.market).1 = [] := by
  rw [← evaluate_identical_iff]
  constructor
  · intro h
    obtain ⟨pair, hPair, hHedge⟩ := Option.bind_eq_some_iff.mp h
    have hCarries := evaluate_carries u f config hPair
    rw [hedgeOf, hCarries.kalshiMarket, hCarries.otherMarket, hCarries.side] at hHedge
    split at hHedge
    next hIdentical => exact ⟨(Option.some.inj hHedge).symm, pair, hPair, hIdentical⟩
    next => cases hHedge
  · rintro ⟨rfl, pair, hPair, hIdentical⟩
    have hCarries := evaluate_carries u f config hPair
    rw [hPair, Option.bind_some, hedgeOf, if_pos hIdentical, hCarries.kalshiMarket,
      hCarries.otherMarket, hCarries.side]

/-- A partial map that is defined more often yields everything it yielded before, in order. -/
theorem filterMap_sublist_filterMap {α β : Type} {narrow wide : α → Option β}
    (h : ∀ a b, narrow a = some b → wide a = some b) (items : List α) :
    (items.filterMap narrow).Sublist (items.filterMap wide) := by
  induction items with
  | nil => exact List.Sublist.refl _
  | cons item items ih =>
    rw [List.filterMap_cons, List.filterMap_cons]
    cases hNarrow : narrow item with
    | some result =>
      rw [h item result hNarrow]
      exact ih.cons_cons result
    | none =>
      cases wide item with
      | some result => exact ih.cons result
      | none => exact ih

omit [Field K] [LinearOrder K] in
theorem hedges_sort_perm (pairs : List (MatchedPair K)) (before : MatchedPair K → MatchedPair K → Prop)
    [DecidableRel before] : (hedges (pairs.insertionSort before)).Perm (hedges pairs) :=
  (pairs.perm_insertionSort before).filterMap hedgeOf

theorem candidates_tighter {tight loose : MatcherConfig} (h : Tighter tight loose)
    (entry : Indexed) (index : Dict String (List Indexed)) (weights : Dict String K) :
    candidates tight entry index weights = candidates loose entry index weights := by
  rw [candidates, candidates, h.candidates]

variable [IsStrictOrderedRing K]

/-- The hedges under the tighter configuration, each as often, are hedges under the other. -/
theorem hedges_matchAll_tighter {tight loose : MatcherConfig} (h : Tighter tight loose)
    (kalshiMarkets otherMarkets : List NormalizedMarket) :
    (hedges (matchAll u f tight kalshiMarkets otherMarkets).1).Subperm
      (hedges (matchAll u f loose kalshiMarkets otherMarkets).1) := by
  rw [matchAll, matchAll]
  simp only [candidates_tighter h]
  split
  next => exact List.Subperm.refl _
  next =>
    dsimp only
    refine (hedges_sort_perm _ _).subperm.trans (List.Subperm.trans ?_
      (hedges_sort_perm _ _).symm.subperm)
    rw [hedges, hedges, List.filterMap_filterMap, List.filterMap_filterMap]
    refine (filterMap_sublist_filterMap ?_ _).subperm
    rintro ⟨entry, candidate⟩ hedge hHedge
    obtain ⟨hMarkets, hReached, hClear⟩ := (hedgeOf_evaluate_iff u f).mp hHedge
    exact (hedgeOf_evaluate_iff u f).mpr ⟨hMarkets, hReached.loosen u f h, clear_loosen h u hClear⟩

/-- Tightening never adds a hedge. -/
theorem identical_of_tighter {tight loose : MatcherConfig} (h : Tighter tight loose)
    (kalshiMarkets otherMarkets : List NormalizedMarket) :
    (hedges (matchAll u f tight kalshiMarkets otherMarkets).1).Subperm
        (hedges (matchAll u f loose kalshiMarkets otherMarkets).1) ∧
      ∀ pair ∈ (matchAll u f tight kalshiMarkets otherMarkets).1, pair.confidence = .identical →
        ∃ pair' ∈ (matchAll u f loose kalshiMarkets otherMarkets).1,
          pair'.confidence = .identical ∧ pair'.kalshi = pair.kalshi ∧ pair'.other = pair.other ∧
            pair'.aligned = pair.aligned := by
  have hHedges := hedges_matchAll_tighter u f h kalshiMarkets otherMarkets
  refine ⟨hHedges, ?_⟩
  intro pair hPair hIdentical
  exact mem_hedges_iff.mp (hHedges.subset
    (mem_hedges_iff.mpr ⟨pair, hPair, hIdentical, rfl, rfl, rfl⟩))

def eveningConfig : MatcherConfig where
  minScore := 1 / 2
  scheduledTimeToleranceSeconds := 600
  expiryToleranceSeconds := 43200

theorem eveningConfig_tighter : Tighter eveningConfig {} where
  candidates := rfl
  minScore := by norm_num [eveningConfig]
  strongScore := le_refl _
  scheduledTime := by decide
  expiry := by decide

theorem evening_identical_of_tighter :
    (hedges (matchAll .ascii twoDocuments eveningConfig [fedCutKalshi] [fedCutOther]).1).Subperm
        (hedges (matchAll .ascii twoDocuments {} [fedCutKalshi] [fedCutOther]).1) ∧
      ∀ pair ∈ (matchAll .ascii twoDocuments eveningConfig [fedCutKalshi] [fedCutOther]).1,
        pair.confidence = .identical →
          ∃ pair' ∈ (matchAll .ascii twoDocuments {} [fedCutKalshi] [fedCutOther]).1,
            pair'.confidence = .identical ∧ pair'.kalshi = pair.kalshi ∧
              pair'.other = pair.other ∧ pair'.aligned = pair.aligned :=
  identical_of_tighter .ascii twoDocuments eveningConfig_tighter [fedCutKalshi] [fedCutOther]

end Hedges

end KalshiBot.CrossVenue

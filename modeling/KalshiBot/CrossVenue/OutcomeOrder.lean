import KalshiBot.CrossVenue.LineMarkets
import Mathlib.Data.Rat.Cast.Order

/-! # The order in which two outcomes are listed

Alignment turns round with the outcomes. The label's share and the look for a draw read the first
outcome alone, whichever side it is.
-/

namespace KalshiBot.CrossVenue

open PythonText

set_option autoImplicit false

/-- The same market with its outcomes listed the other way round. -/
def NormalizedMarket.swapped (other : NormalizedMarket) : NormalizedMarket :=
  { other with yesLabel := other.noLabel, noLabel := other.yesLabel }

@[simp] theorem swapped_yesLabel (other : NormalizedMarket) :
    other.swapped.yesLabel = other.noLabel := rfl

@[simp] theorem swapped_noLabel (other : NormalizedMarket) :
    other.swapped.noLabel = other.yesLabel := rfl

def Indexed.swapped (other : Indexed) : Indexed := { other with market := other.market.swapped }

section Sides

variable (u : Unicode) (kalshi other : NormalizedMarket)

def Affirms (label : String) : Prop := foldLabel u label ∈ affirmativeLabels

def Denies (label : String) : Prop := foldLabel u label ∈ negativeLabels

instance (label : String) : Decidable (Affirms u label) := inferInstanceAs (Decidable (_ ∈ _))
instance (label : String) : Decidable (Denies u label) := inferInstanceAs (Decidable (_ ∈ _))

/-- The outcomes are a proposition's, in either order. -/
def Opposed : Prop :=
  Affirms u other.yesLabel ∧ Denies u other.noLabel ∨
    Denies u other.yesLabel ∧ Affirms u other.noLabel

instance : Decidable (Opposed u other) := inferInstanceAs (Decidable (_ ∨ _))

/-- The share of the words of Kalshi's label that a proposition states with `label` beside it. -/
def labelShare (label : String) : ℚ :=
  let labelTokens := (tokenize u kalshi.yesLabel).dedup
  if Opposed u other then
    (labelTokens.filter (· ∈ tokenize u (other.question ++ " " ++ label))).length /
      labelTokens.length
  else 1

variable {u kalshi other}

theorem Affirms.not_denies {label : String} (h : Affirms u label) : ¬Denies u label := by
  have hApart : ∀ text ∈ affirmativeLabels, text ∉ negativeLabels := by decide
  exact hApart _ h

theorem opposed_swapped : Opposed u other.swapped ↔ Opposed u other := by
  rw [Opposed, Opposed, or_comm]
  exact or_congr and_comm and_comm

theorem Opposed.affirms (h : Opposed u other) :
    ¬(Affirms u other.yesLabel ↔ Affirms u other.noLabel) := by
  obtain ⟨hYes, hNo⟩ | ⟨hYes, hNo⟩ := h
  · exact fun hBoth => (hBoth.mp hYes).not_denies hNo
  · exact fun hBoth => (hBoth.mpr hNo).not_denies hYes

theorem labelShare_swapped (label : String) :
    labelShare u kalshi other.swapped label = labelShare u kalshi other label := by
  rw [labelShare, labelShare]
  exact if_congr opposed_swapped rfl rfl

theorem labelShare_of_not_opposed (h : ¬Opposed u other) (label : String) :
    labelShare u kalshi other label = 1 := if_neg h

/-- What the alignment is found by: the labels of a proposition, or else one team. -/
inductive Resolved (u : Unicode) (kalshi other : NormalizedMarket) : Option Bool × String → Prop where
  | straight (hYes : Affirms u other.yesLabel) (hNo : Denies u other.noLabel) (labels : String) :
      Resolved u kalshi other (some true, "proposition outcomes " ++ labels)
  | inverted (hYes : Denies u other.yesLabel) (hNo : Affirms u other.noLabel) (labels : String) :
      Resolved u kalshi other (some false, "inverted proposition outcomes " ++ labels)
  | first (hTeams : ¬Opposed u other)
      (hYes : teamsMatch u kalshi.yesLabel.toList other.yesLabel.toList)
      (hNo : ¬teamsMatch u kalshi.yesLabel.toList other.noLabel.toList) (labels : String) :
      Resolved u kalshi other (some true, "teams matched (" ++ labels)
  | second (hTeams : ¬Opposed u other)
      (hYes : ¬teamsMatch u kalshi.yesLabel.toList other.yesLabel.toList)
      (hNo : teamsMatch u kalshi.yesLabel.toList other.noLabel.toList) (labels : String) :
      Resolved u kalshi other (some false, "teams matched (" ++ labels)
  | unknown (hTeams : ¬Opposed u other)
      (hEither : teamsMatch u kalshi.yesLabel.toList other.yesLabel.toList ↔
        teamsMatch u kalshi.yesLabel.toList other.noLabel.toList) (evidence : String) :
      Resolved u kalshi other (none, evidence)

theorem resolved : Resolved u kalshi other (resolveAlignment u kalshi other) := by
  rw [resolveAlignment]
  dsimp only
  split
  next hStraight => exact .straight hStraight.1 hStraight.2 _
  next hStraight =>
    split
    next hInverted => exact .inverted hInverted.1 hInverted.2 _
    next hInverted =>
      have hTeams : ¬Opposed u other := not_or.mpr ⟨hStraight, hInverted⟩
      split
      next hYes =>
        split
        next hNo => exact .unknown hTeams (iff_of_true hYes hNo) _
        next hNo =>
          simp only [String.append_assoc]
          exact .first hTeams hYes hNo _
      next hYes =>
        split
        next hNo =>
          simp only [String.append_assoc]
          exact .second hTeams hYes hNo _
        next hNo => exact .unknown hTeams (iff_of_false hYes hNo) _

/-- A side of the swapped market is settled by the same comparison, seen from the other label. -/
theorem Resolved.swapped {resolution : Option Bool × String} (h : Resolved u kalshi other resolution) :
    (resolveAlignment u kalshi other.swapped).1 = resolution.1.map (!·) := by
  have hTeams (hNot : ¬Opposed u other) :
      ¬(foldLabel u other.noLabel ∈ affirmativeLabels ∧
          foldLabel u other.yesLabel ∈ negativeLabels) ∧
        ¬(foldLabel u other.noLabel ∈ negativeLabels ∧
          foldLabel u other.yesLabel ∈ affirmativeLabels) :=
    not_or.mp (mt opposed_swapped.mp hNot)
  rw [resolveAlignment, swapped_yesLabel, swapped_noLabel]
  dsimp only
  cases h with
  | straight hYes hNo =>
    rw [if_neg fun hBoth => hYes.not_denies hBoth.2, if_pos ⟨hNo, hYes⟩]
    rfl
  | inverted hYes hNo =>
    rw [if_pos ⟨hNo, hYes⟩]
    rfl
  | first hNot hYes hNo =>
    rw [if_neg (hTeams hNot).1, if_neg (hTeams hNot).2, if_neg hNo, if_pos hYes]
    rfl
  | second hNot hYes hNo =>
    rw [if_neg (hTeams hNot).1, if_neg (hTeams hNot).2, if_pos hNo, if_neg hYes]
    rfl
  | unknown hNot hEither =>
    rw [if_neg (hTeams hNot).1, if_neg (hTeams hNot).2]
    by_cases hNo : teamsMatch u kalshi.yesLabel.toList other.noLabel.toList
    · rw [if_pos hNo, if_pos (hEither.mpr hNo)]
      rfl
    · rw [if_neg hNo, if_neg fun hYes => hNo (hEither.mp hYes)]
      rfl

theorem aligned_swapped (u : Unicode) (kalshi other : NormalizedMarket) :
    (resolveAlignment u kalshi other.swapped).1 =
      (resolveAlignment u kalshi other).1.map (!·) := resolved.swapped

theorem labelAgreement_eq {resolution : Option Bool × String} {tokens : List String}
    (h : Resolved u kalshi other resolution) (hAligned : resolution.1.isSome) :
    (labelAgreement u kalshi ⟨other, tokens⟩
      (resolution.1.isSome && "teams".toList <+: resolution.2.toList)).1 =
        labelShare u kalshi other other.yesLabel := by
  have hProposition (hOpposed : Opposed u other) (matched : Bool) (hMatched : matched = false) :
      (labelAgreement u kalshi ⟨other, tokens⟩ matched).1 =
        labelShare u kalshi other other.yesLabel := by
    rw [hMatched, labelAgreement, labelShare, if_pos hOpposed]
    dsimp only
    rw [if_neg Bool.false_ne_true]
    split
    next hNone =>
      rw [hNone]
      simp
    next => rfl
  have hTeam (hNot : ¬Opposed u other) (matched : Bool) (hMatched : matched = true) :
      (labelAgreement u kalshi ⟨other, tokens⟩ matched).1 =
        labelShare u kalshi other other.yesLabel := by
    rw [hMatched, labelAgreement, labelShare_of_not_opposed hNot]
    rfl
  cases h with
  | straight hYes hNo labels => exact hProposition (.inl ⟨hYes, hNo⟩) _ (by simp)
  | inverted hYes hNo labels => exact hProposition (.inr ⟨hYes, hNo⟩) _ (by simp)
  | first hNot => exact hTeam hNot _ (by simp)
  | second hNot => exact hTeam hNot _ (by simp)
  | unknown => cases hAligned

/-- The checks that look at neither outcome on its own. -/
structure OrderFree (u : Unicode) (config : MatcherConfig) (kalshi other : NormalizedMarket) :
    Prop where
  aligned : (resolveAlignment u kalshi other).1.isSome
  sameClaim : qualifierConflict (tokenize u kalshi.claimText) (tokenize u other.claimText) = none
  levels : LevelsAgree kalshi other
  times : StartsAgree config kalshi other ∨ DatesAgree kalshi other ∧
    (kalshi.terms.scheduledEventTime = none ∨ other.terms.scheduledEventTime = none)
  sources : SourcesAgree u kalshi other

theorem levelsAgree_swapped : LevelsAgree kalshi other.swapped ↔ LevelsAgree kalshi other := by
  rw [LevelsAgree, LevelsAgree, ← thresholdBlockers_eq_nil_iff, ← thresholdBlockers_eq_nil_iff]
  rfl

theorem orderFree_swapped {config : MatcherConfig} :
    OrderFree u config kalshi other.swapped ↔ OrderFree u config kalshi other := by
  have hAligned : (resolveAlignment u kalshi other.swapped).1.isSome ↔
      (resolveAlignment u kalshi other).1.isSome := by
    rw [aligned_swapped, Option.isSome_map]
  constructor
  · intro h
    exact ⟨hAligned.mp h.aligned, h.sameClaim, levelsAgree_swapped.mp h.levels, h.times, h.sources⟩
  · intro h
    exact ⟨hAligned.mpr h.aligned, h.sameClaim, levelsAgree_swapped.mpr h.levels, h.times, h.sources⟩

end Sides

section Verdicts

variable {K : Type} [Field K] [LinearOrder K] (u : Unicode) (f : FloatMath K)
  (config : MatcherConfig) (kalshi other : Indexed) (weights : Dict String K)

def Identical : Prop :=
  ∃ pair, evaluate u f config kalshi other weights = some pair ∧ pair.confidence = .identical

/-- The two orders get one verdict, and an identical pair pays on opposite sides. -/
structure OrderImmaterial : Prop where
  verdict : Identical u f config kalshi other weights ↔
    Identical u f config kalshi other.swapped weights
  sides : ∀ pair pair', evaluate u f config kalshi other weights = some pair →
    evaluate u f config kalshi other.swapped weights = some pair' →
      pair.confidence = .identical → pair'.confidence = .identical → pair'.aligned = !pair.aligned

/-- The score reaches both thresholds with `label` read as the first outcome. -/
def HighEnough (label : String) : Prop :=
  let score := ((45 / 100 : ℚ) : K) * weightedOverlap kalshi.tokens other.tokens weights +
    ((20 / 100 * (timeAgreement config kalshi.market other.market).1 : ℚ) : K) +
    ((35 / 100 * labelShare u kalshi.market other.market label : ℚ) : K)
  ((config.minScore : ℚ) : K) ≤ score ∧ ((config.strongScore : ℚ) : K) ≤ score

/-- Only one order of the outcomes gets past the draw check, or past the thresholds. -/
structure OrderDecides : Prop where
  orderFree : OrderFree u config kalshi.market other.market
  differs :
    drawable u kalshi.market other.market ≠ [] ∧
        (Affirms u other.market.yesLabel ∧ ¬Affirms u other.market.noLabel ∧
            HighEnough u config kalshi other weights other.market.yesLabel ∨
          Affirms u other.market.noLabel ∧ ¬Affirms u other.market.yesLabel ∧
            HighEnough u config kalshi other weights other.market.noLabel) ∨
      drawable u kalshi.market other.market = [] ∧
        ¬(HighEnough u config kalshi other weights other.market.yesLabel ↔
          HighEnough u config kalshi other weights other.market.noLabel)

variable {u f config kalshi other weights}

theorem highEnough_swapped (label : String) :
    HighEnough u config kalshi other.swapped weights label ↔
      HighEnough u config kalshi other weights label := by
  have hShare : labelShare u kalshi.market other.swapped.market label =
      labelShare u kalshi.market other.market label := labelShare_swapped label
  rw [HighEnough, hShare]
  rfl

theorem HighEnough.of_share {left right : String}
    (hShare : labelShare u kalshi.market other.market left =
      labelShare u kalshi.market other.market right)
    (h : HighEnough u config kalshi other weights left) :
    HighEnough u config kalshi other weights right := by
  rw [HighEnough, hShare] at h
  exact h

theorem highEnough_iff (hAligned : (resolveAlignment u kalshi.market other.market).1.isSome) :
    HighEnough u config kalshi other weights other.market.yesLabel ↔
      ((config.minScore : ℚ) : K) ≤ (score u f config kalshi other weights).1 ∧
        ((config.strongScore : ℚ) : K) ≤ (score u f config kalshi other weights).1 := by
  have hLabel := @labelAgreement_eq u kalshi.market other.market _ other.tokens resolved hAligned
  rw [HighEnough, ← hLabel]
  rfl

theorem identical_iff : Identical u f config kalshi other weights ↔
    OrderFree u config kalshi.market other.market ∧
      HighEnough u config kalshi other weights other.market.yesLabel ∧
      (Affirms u other.market.yesLabel ∨ drawable u kalshi.market other.market = []) := by
  rw [Identical, evaluate_identical_iff, settlementBlockers_eq_nil_iff]
  constructor
  · rintro ⟨hReached, hExhaustive, hLevels, hTimes, hSources⟩
    exact ⟨⟨hReached.aligned, hReached.sameClaim, hLevels, hTimes, hSources⟩,
      (highEnough_iff hReached.aligned).mpr ⟨hReached.likely, hReached.strong⟩, hExhaustive⟩
  · rintro ⟨hFree, hEnough, hExhaustive⟩
    obtain ⟨hLikely, hStrong⟩ := (highEnough_iff (f := f) hFree.aligned).mp hEnough
    exact ⟨⟨hLikely, hStrong, hFree.sameClaim, hFree.aligned⟩, hExhaustive, hFree.levels,
      hFree.times, hFree.sources⟩

theorem identical_swapped_iff : Identical u f config kalshi other.swapped weights ↔
    OrderFree u config kalshi.market other.market ∧
      HighEnough u config kalshi other weights other.market.noLabel ∧
      (Affirms u other.market.noLabel ∨ drawable u kalshi.market other.market = []) := by
  rw [identical_iff, highEnough_swapped]
  exact and_congr orderFree_swapped Iff.rfl

theorem sides_of_identical {pair pair' : MatchedPair K}
    (hPair : evaluate u f config kalshi other weights = some pair)
    (hPair' : evaluate u f config kalshi other.swapped weights = some pair')
    (hIdentical : pair.confidence = .identical) : pair'.aligned = !pair.aligned := by
  have hAligned := (identical_iff.mp ⟨pair, hPair, hIdentical⟩).1.aligned
  obtain ⟨side, hSide⟩ := Option.isSome_iff_exists.mp hAligned
  have hSide' : (resolveAlignment u kalshi.market other.swapped.market).1 = some (!side) := by
    rw [Indexed.swapped, aligned_swapped, hSide]
    rfl
  rw [(evaluate_carries u f config hPair).side, (evaluate_carries u f config hPair').side, hSide,
    hSide']
  rfl

theorem orderImmaterial_iff_verdict : OrderImmaterial u f config kalshi other weights ↔
    (Identical u f config kalshi other weights ↔
      Identical u f config kalshi other.swapped weights) :=
  ⟨fun h => h.verdict, fun h => ⟨h, fun _ _ hPair hPair' hIdentical _ =>
    sides_of_identical hPair hPair' hIdentical⟩⟩

/-- Two guarded facts part only where one guard alone holds, if two guards make the facts equal. -/
theorem guarded_iff_guarded {left right first second : Prop}
    (h : left → right → (first ↔ second)) : (first ∧ left ↔ second ∧ right) ↔
      ¬(left ∧ ¬right ∧ first ∨ right ∧ ¬left ∧ second) := by
  by_cases hLeft : left <;> by_cases hRight : right <;> simp [hLeft, hRight]
  exact h hLeft hRight

theorem orderImmaterial_iff : OrderImmaterial u f config kalshi other weights ↔
    ¬OrderDecides u config kalshi other weights := by
  rw [orderImmaterial_iff_verdict, identical_iff, identical_swapped_iff]
  by_cases hFree : OrderFree u config kalshi.market other.market
  case neg =>
    exact iff_of_true (iff_of_false (fun h => hFree h.1) fun h => hFree h.1)
      fun h => hFree h.orderFree
  have hTeams : Affirms u other.market.yesLabel → Affirms u other.market.noLabel →
      (HighEnough u config kalshi other weights other.market.yesLabel ↔
        HighEnough u config kalshi other weights other.market.noLabel) := by
    intro hYes hNo
    have hNot : ¬Opposed u other.market := fun hOpposed => hOpposed.affirms (iff_of_true hYes hNo)
    have hShare (left right : String) : labelShare u kalshi.market other.market left =
        labelShare u kalshi.market other.market right :=
      (labelShare_of_not_opposed hNot left).trans (labelShare_of_not_opposed hNot right).symm
    exact ⟨.of_share (hShare _ _), .of_share (hShare _ _)⟩
  have hDecides : OrderDecides u config kalshi other weights ↔ _ :=
    ⟨fun h => h.differs, fun h => ⟨hFree, h⟩⟩
  rw [hDecides]
  by_cases hDraw : drawable u kalshi.market other.market = []
  · simp only [hFree, hDraw, or_true, and_true, true_and, ne_eq, not_true_eq_false, false_and,
      false_or, not_not]
  · simp only [hFree, hDraw, or_false, true_and, ne_eq, not_false_eq_true, false_and]
    exact guarded_iff_guarded hTeams

end Verdicts

section Markets

variable (u : Unicode) (kalshi other : NormalizedMarket)

/-- Two markets that some configuration pairs in one order of the outcomes and not in the other. -/
structure OrderMatters : Prop where
  aligned : (resolveAlignment u kalshi other).1.isSome
  sameClaim : qualifierConflict (tokenize u kalshi.claimText) (tokenize u other.claimText) = none
  levels : LevelsAgree kalshi other
  times : kalshi.terms.scheduledEventTime.isSome ∧ other.terms.scheduledEventTime.isSome ∨
    DatesAgree kalshi other ∧
      (kalshi.terms.scheduledEventTime = none ∨ other.terms.scheduledEventTime = none)
  sources : SourcesAgree u kalshi other
  differs :
    drawable u kalshi other ≠ [] ∧ ¬(Affirms u other.yesLabel ↔ Affirms u other.noLabel) ∨
      drawable u kalshi other = [] ∧
        labelShare u kalshi other other.yesLabel ≠ labelShare u kalshi other other.noLabel

/-- What two markets without tokens score, with the starts within the tolerance if stated. -/
def bareScore (label : String) : ℚ :=
  20 / 100 * (timeAgreement { scheduledTimeToleranceSeconds := wideTolerance kalshi other }
    kalshi other).1 + 35 / 100 * labelShare u kalshi other label

/-- Tolerant, with the bare score of one order for both thresholds. -/
def thresholdAt (label : String) : MatcherConfig where
  minScore := bareScore u kalshi other label
  strongScore := bareScore u kalshi other label
  scheduledTimeToleranceSeconds := wideTolerance kalshi other

variable {u kalshi other} {K : Type} [Field K] [LinearOrder K]

theorem OrderDecides.matters {config : MatcherConfig} {kalshiTokens otherTokens : List String}
    {weights : Dict String K}
    (h : OrderDecides u config ⟨kalshi, kalshiTokens⟩ ⟨other, otherTokens⟩ weights) :
    OrderMatters u kalshi other where
  aligned := h.orderFree.aligned
  sameClaim := h.orderFree.sameClaim
  levels := h.orderFree.levels
  times := by
    obtain ⟨left, hLeft, right, hRight, -⟩ | hDates := h.orderFree.times
    · exact .inl ⟨Option.isSome_iff_exists.mpr ⟨left, hLeft⟩,
        Option.isSome_iff_exists.mpr ⟨right, hRight⟩⟩
    · exact .inr hDates
  sources := h.orderFree.sources
  differs := by
    obtain ⟨hDraw, ⟨hYes, hNo, -⟩ | ⟨hNo, hYes, -⟩⟩ | ⟨hDraw, hDiffer⟩ := h.differs
    · exact .inl ⟨hDraw, fun hBoth => hNo (hBoth.mp hYes)⟩
    · exact .inl ⟨hDraw, fun hBoth => hYes (hBoth.mpr hNo)⟩
    · exact .inr ⟨hDraw, fun hShare => hDiffer ⟨.of_share hShare, .of_share hShare.symm⟩⟩

theorem OrderMatters.orderFree (h : OrderMatters u kalshi other) (label : String) :
    OrderFree u (thresholdAt u kalshi other label) kalshi other where
  aligned := h.aligned
  sameClaim := h.sameClaim
  levels := h.levels
  times := h.times.imp_left fun hStarts => startsAgree_wide rfl hStarts.1 hStarts.2
  sources := h.sources

variable [IsStrictOrderedRing K]

theorem highEnough_thresholdAt_iff {label label' : String} :
    HighEnough u (thresholdAt u kalshi other label) ⟨kalshi, []⟩ ⟨other, []⟩ (∅ : Dict String K)
        label' ↔
      bareScore u kalshi other label ≤ bareScore u kalshi other label' := by
  have hOverlap : weightedOverlap [] [] (∅ : Dict String K) = 0 := by
    rw [weightedOverlap]
    exact if_pos (Or.inl rfl)
  rw [HighEnough]
  dsimp only
  rw [hOverlap, mul_zero, zero_add, ← Rat.cast_add, Rat.cast_le, Rat.cast_le]
  exact and_self_iff

theorem OrderMatters.decides (h : OrderMatters u kalshi other) :
    ∃ label, OrderDecides u (thresholdAt u kalshi other label) ⟨kalshi, []⟩ ⟨other, []⟩
      (∅ : Dict String K) := by
  obtain ⟨hDraw, hAffirms⟩ | ⟨hDraw, hShare⟩ := h.differs
  · by_cases hYes : Affirms u other.yesLabel
    · refine ⟨other.yesLabel, h.orderFree _, .inl ⟨hDraw, .inl ⟨hYes, ?_, ?_⟩⟩⟩
      · exact fun hNo => hAffirms (iff_of_true hYes hNo)
      · exact highEnough_thresholdAt_iff.mpr (le_refl _)
    · refine ⟨other.noLabel, h.orderFree _, .inl ⟨hDraw, .inr ⟨?_, hYes, ?_⟩⟩⟩
      · exact by_contra fun hNo => hAffirms (iff_of_false hYes hNo)
      · exact highEnough_thresholdAt_iff.mpr (le_refl _)
  · have hScores :
        bareScore u kalshi other other.yesLabel ≠ bareScore u kalshi other other.noLabel := by
      intro hEqual
      rw [bareScore, bareScore] at hEqual
      exact hShare (by linarith)
    obtain hBelow | hAbove := hScores.lt_or_gt
    · refine ⟨other.noLabel, h.orderFree _, .inr ⟨hDraw, ?_⟩⟩
      rw [highEnough_thresholdAt_iff, highEnough_thresholdAt_iff]
      exact fun hBoth => absurd (hBoth.mpr (le_refl _)) (not_le.mpr hBelow)
    · refine ⟨other.yesLabel, h.orderFree _, .inr ⟨hDraw, ?_⟩⟩
      rw [highEnough_thresholdAt_iff, highEnough_thresholdAt_iff]
      exact fun hBoth => absurd (hBoth.mp (le_refl _)) (not_le.mpr hAbove)

/-- The order is immaterial to two markets, whatever the configuration, their tokens and the
weights, exactly where it does not matter. -/
theorem order_immaterial_iff (u : Unicode) (f : FloatMath K) (kalshi other : NormalizedMarket) :
    (∀ (config : MatcherConfig) (kalshiTokens otherTokens : List String) (weights : Dict String K),
      OrderImmaterial u f config ⟨kalshi, kalshiTokens⟩ ⟨other, otherTokens⟩ weights) ↔
        ¬OrderMatters u kalshi other := by
  constructor
  · intro h hMatters
    obtain ⟨label, hDecides⟩ := hMatters.decides (K := K)
    exact orderImmaterial_iff.mp (h _ [] [] ∅) hDecides
  · intro h config kalshiTokens otherTokens weights
    exact orderImmaterial_iff.mpr fun hDecides => h hDecides.matters

theorem celtics_order_immaterial_iff :
    (∀ (config : MatcherConfig) (kalshiTokens otherTokens : List String) (weights : Dict String ℚ),
      OrderImmaterial .ascii twoDocuments config ⟨celticsKalshi, kalshiTokens⟩
        ⟨celticsOther handicap, otherTokens⟩ weights) ↔
      ¬OrderMatters .ascii celticsKalshi (celticsOther handicap) :=
  order_immaterial_iff .ascii twoDocuments celticsKalshi (celticsOther handicap)

def finalKalshi : NormalizedMarket :=
  { celticsKalshi with
    question := "Will Argentina win the soccer final?"
    yesLabel := "Argentina"
    noLabel := "not Argentina"
    claimText := "Will Argentina win the soccer final? Argentina"
    searchText := "Will Argentina win the soccer final? Argentina" }

def finalOther : NormalizedMarket :=
  { celticsOther "Will Argentina win the soccer final?" with
    yesLabel := "Yes"
    noLabel := "No"
    terms := celticsKalshi.terms
    claimText := "Will Argentina win the soccer final?"
    searchText := "Will Argentina win the soccer final?" }

def pointsKalshi : NormalizedMarket :=
  { celticsKalshi with
    question := "Boston vs Los Angeles L: total points"
    yesLabel := "Over 220.5"
    noLabel := "not over 220.5"
    claimText := "Boston vs Los Angeles L: total points"
    searchText := "Boston vs Los Angeles L: total points Over 220.5" }

def pointsOther : NormalizedMarket :=
  { celticsOther "Celtics vs. Lakers: O/U 220.5" with
    yesLabel := "Over"
    noLabel := "Under"
    terms := celticsKalshi.terms
    claimText := "Celtics vs. Lakers: O/U 220.5"
    searchText := "Celtics vs. Lakers: O/U 220.5 Over Under" }

/-- What the default configuration makes of two markets whose tokens all weigh the same. -/
def unweightedVerdict (kalshi other : Indexed) : Option (MatchConfidence × Bool) :=
  (evaluate .ascii twoDocuments {} kalshi other ∅).map fun pair => (pair.confidence, pair.aligned)

theorem not_orderImmaterial {kalshi other : Indexed} {side side' : Bool}
    {confidence : MatchConfidence} (h : unweightedVerdict kalshi other = some (.identical, side))
    (h' : unweightedVerdict kalshi other.swapped = some (confidence, side'))
    (hOther : confidence ≠ .identical) :
    ¬OrderImmaterial .ascii twoDocuments {} kalshi other ∅ := by
  intro hImmaterial
  obtain ⟨pair, hPair, hFields⟩ := Option.map_eq_some_iff.mp h
  obtain ⟨hIdentical, -⟩ := Prod.mk.inj hFields
  obtain ⟨pair', hPair', hIdentical'⟩ := hImmaterial.verdict.mp ⟨pair, hPair, hIdentical⟩
  rw [unweightedVerdict, hPair', Option.map_some, hIdentical'] at h'
  exact hOther (Prod.mk.inj (Option.some.inj h')).1.symm

/-- With No listed first a draw is suspected, and with Under listed first a word goes missing. -/
theorem listed_first_decides :
    (unweightedVerdict (.of .ascii finalKalshi) (.of .ascii finalOther) =
        some (.identical, true) ∧
      unweightedVerdict (.of .ascii finalKalshi) (Indexed.of .ascii finalOther).swapped =
        some (.strong, false) ∧
      ¬OrderImmaterial .ascii twoDocuments {} (.of .ascii finalKalshi) (.of .ascii finalOther) ∅) ∧
    unweightedVerdict (.of .ascii pointsKalshi) (.of .ascii pointsOther) =
        some (.identical, true) ∧
      unweightedVerdict (.of .ascii pointsKalshi) (Indexed.of .ascii pointsOther).swapped =
        some (.weak, false) ∧
      ¬OrderImmaterial .ascii twoDocuments {} (.of .ascii pointsKalshi) (.of .ascii pointsOther)
        ∅ := by
  have hFinal : unweightedVerdict (.of .ascii finalKalshi) (.of .ascii finalOther) =
      some (.identical, true) := by decide +kernel
  have hFinal' : unweightedVerdict (.of .ascii finalKalshi)
      (Indexed.of .ascii finalOther).swapped = some (.strong, false) := by decide +kernel
  have hPoints : unweightedVerdict (.of .ascii pointsKalshi) (.of .ascii pointsOther) =
      some (.identical, true) := by decide +kernel
  have hPoints' : unweightedVerdict (.of .ascii pointsKalshi)
      (Indexed.of .ascii pointsOther).swapped = some (.weak, false) := by decide +kernel
  exact ⟨⟨hFinal, hFinal', not_orderImmaterial hFinal hFinal' (by decide)⟩, hPoints, hPoints',
    not_orderImmaterial hPoints hPoints' (by decide)⟩

end Markets

end KalshiBot.CrossVenue

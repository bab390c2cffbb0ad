import KalshiBot.CrossVenue.Matching

/-! # What the gate does with missing data

Sources, times and levels that a side leaves out block the pair. The units of a level do not:
the comparison of units is skipped where either side states none.
-/

namespace KalshiBot.CrossVenue

open PythonText

set_option autoImplicit false

structure SameUnits (kalshi other : NormalizedMarket) : Prop where
  stated : Stated kalshi.terms.thresholdUnits ∧ Stated other.terms.thresholdUnits
  equal : kalshi.terms.thresholdUnits = other.terms.thresholdUnits

/-- Every fact that settlement rests on was stated on both sides and agrees. -/
structure Settled (u : Unicode) (config : MatcherConfig) (kalshi other : NormalizedMarket) :
    Prop where
  sources : SourcesAgree u kalshi other
  times : StartsAgree config kalshi other ∨ DatesAgree kalshi other
  level : NoLevel kalshi other ∨ SameLevel kalshi other ∧ SameUnits kalshi other

/-- A fact that settlement rests on is absent on either side. -/
inductive FactAbsent (kalshi other : NormalizedMarket) : Prop where
  | source (h : kalshi.terms.resolutionSources = [] ∨ other.terms.resolutionSources = [])
  | time
      (hStart : kalshi.terms.scheduledEventTime = none ∨ other.terms.scheduledEventTime = none)
      (hExpiry : kalshi.terms.expiryTime = none ∨ other.terms.expiryTime = none)
  | threshold (h : kalshi.terms.threshold.isSome ≠ other.terms.threshold.isSome)
  | kalshiUnits (h : kalshi.terms.threshold.isSome) (hUnits : ¬Stated kalshi.terms.thresholdUnits)
  | otherUnits (h : other.terms.threshold.isSome) (hUnits : ¬Stated other.terms.thresholdUnits)

variable (K : Type) [Field K] [LinearOrder K] (u : Unicode) (config : MatcherConfig)
  (kalshi other : NormalizedMarket)

/-- Missing data is a blocker for this pair, whatever markets it is matched among. -/
structure MissingDataBlocks : Prop where
  settled : ∀ (f : FloatMath K) (kalshiMarkets otherMarkets : List NormalizedMarket),
    ∀ pair ∈ (matchAll u f config kalshiMarkets otherMarkets).1, pair.kalshi = kalshi →
      pair.other = other → pair.confidence = .identical → Settled u config kalshi other
  blocked : FactAbsent kalshi other → (settlementBlockers u config kalshi other).1 ≠ []

/-- Both sides state a level, and at least one of them no units for it. -/
def UnitsOmitted : Prop :=
  (kalshi.terms.threshold.isSome ∧ other.terms.threshold.isSome) ∧
    ¬(Stated kalshi.terms.thresholdUnits ∧ Stated other.terms.thresholdUnits)

/-- Nothing but its units stands against the pair: the outcomes are exhaustive, the levels
equivalent, the times agree as far as they are stated, and the sources share a term. -/
structure PassesElsewhere : Prop where
  exhaustive : Exhaustive u kalshi other
  level : SameLevel kalshi other
  times : StartsAgree config kalshi other ∨ DatesAgree kalshi other ∧
    (kalshi.terms.scheduledEventTime = none ∨ other.terms.scheduledEventTime = none)
  sources : SourcesAgree u kalshi other

variable {u config kalshi other}

theorem PassesElsewhere.clear (h : PassesElsewhere u config kalshi other)
    (hOmitted : UnitsOmitted kalshi other) :
    (settlementBlockers u config kalshi other).1 = [] := by
  rw [settlementBlockers_eq_nil_iff]
  exact ⟨h.exhaustive, .inr ⟨h.level, fun hKalshi hOther => absurd ⟨hKalshi, hOther⟩ hOmitted.2⟩,
    h.times, h.sources⟩

theorem UnitsOmitted.absent (h : UnitsOmitted kalshi other) : FactAbsent kalshi other := by
  obtain ⟨⟨hKalshi, hOther⟩, hUnits⟩ := h
  obtain hUnits | hUnits := not_and_or.mp hUnits
  · exact .kalshiUnits hKalshi hUnits
  · exact .otherUnits hOther hUnits

theorem settled_of_clear (h : UnitsOmitted kalshi other → ¬PassesElsewhere u config kalshi other)
    (hClear : (settlementBlockers u config kalshi other).1 = []) :
    Settled u config kalshi other := by
  rw [settlementBlockers_eq_nil_iff] at hClear
  obtain ⟨hExhaustive, hLevel, hTimes, hSources⟩ := hClear
  constructor
  · exact hSources
  · exact hTimes.imp_right And.left
  · obtain hNone | ⟨hSame, hUnits⟩ := hLevel
    · exact .inl hNone
    · have hStated : Stated kalshi.terms.thresholdUnits ∧ Stated other.terms.thresholdUnits :=
        by_contra fun hOmitted =>
          h ⟨hSame.stated, hOmitted⟩ ⟨hExhaustive, hSame, hTimes, hSources⟩
      exact .inr ⟨hSame, hStated, hUnits hStated.1 hStated.2⟩

theorem Settled.not_absent (h : Settled u config kalshi other) : ¬FactAbsent kalshi other := by
  have hLevels : kalshi.terms.threshold.isSome = other.terms.threshold.isSome := by
    obtain ⟨hKalshi, hOther⟩ | ⟨hSame, -⟩ := h.level
    · rw [hKalshi, hOther]
    · rw [hSame.stated.1, hSame.stated.2]
  have hUnits : kalshi.terms.threshold.isSome → SameUnits kalshi other := by
    intro hSome
    obtain ⟨hKalshi, -⟩ | ⟨-, hUnits⟩ := h.level
    · rw [hKalshi] at hSome
      cases hSome
    · exact hUnits
  intro hAbsent
  cases hAbsent with
  | source hSource =>
    obtain ⟨term, hKalshi, hOther⟩ := h.sources
    obtain hNone | hNone := hSource
    · simp [hNone, sourceTokens] at hKalshi
    · simp [hNone, sourceTokens] at hOther
  | time hStart hExpiry =>
    obtain ⟨left, hLeft, right, hRight, -⟩ | ⟨left, hLeft, right, hRight, -⟩ := h.times
    · obtain hNone | hNone := hStart
      · simp [hNone] at hLeft
      · simp [hNone] at hRight
    · obtain hNone | hNone := hExpiry
      · simp [hNone] at hLeft
      · simp [hNone] at hRight
  | threshold hThreshold => exact hThreshold hLevels
  | kalshiUnits hSome hOmitted => exact hOmitted (hUnits hSome).stated.1
  | otherUnits hSome hOmitted => exact hOmitted (hUnits (hLevels ▸ hSome)).stated.2

variable (u config kalshi other)

theorem missingDataBlocks_iff :
    MissingDataBlocks K u config kalshi other ↔
      (UnitsOmitted kalshi other → ¬PassesElsewhere u config kalshi other) := by
  constructor
  · intro h hOmitted hPasses
    exact h.blocked hOmitted.absent (hPasses.clear hOmitted)
  · intro h
    constructor
    · rintro f kalshiMarkets otherMarkets pair hPair rfl rfl hIdentical
      exact settled_of_clear h (clear_of_mem_matchAll u f config hPair hIdentical)
    · intro hAbsent hClear
      exact (settled_of_clear h hClear).not_absent hAbsent

/-- A cut above 25 of no stated unit. -/
def fedCutKalshi : NormalizedMarket where
  venue := .kalshi
  marketId := "KXFEDCUT-26SEP-25"
  eventId := "KXFEDCUT-26SEP"
  question := "Fed cut above 25 in September?"
  yesLabel := "above 25"
  noLabel := "not above 25"
  category := "economics"
  terms :=
    { closeTime := some 1789000000000000
      expiryTime := some 1789000000000000
      comparator := .greater
      threshold := some 25
      resolutionSources := ["federal reserve https://www.federalreserve.gov/"] }
  fee := ⟨.kalshi, 7 / 100, true, "test", 0⟩
  tickDollars := 1 / 100
  minOrderContracts := 1
  claimText := "Fed cut above 25 in September? above 25"
  searchText := "Fed cut above 25 in September? above 25"

def fedCutOther : NormalizedMarket :=
  { fedCutKalshi with
    venue := .polymarketIntl
    marketId := "0x25"
    question := "Fed cut above 25 bps in September?"
    yesLabel := "Yes"
    noLabel := "No"
    terms :=
      { fedCutKalshi.terms with
        thresholdUnits := some "bps"
        resolutionSources := ["https://www.federalreserve.gov/"] }
    claimText := "Fed cut above 25 bps in September? Yes"
    searchText := "Fed cut above 25 bps in September? Yes No" }

/-- A logarithm with the sign of the real one, zero at one; no weight of two documents is positive. -/
def twoDocuments : FloatMath ℚ := ⟨fun q => q - 1, formatFixed 3⟩

theorem fedCut_identical_without_units :
    (matchAll .ascii twoDocuments {} [fedCutKalshi] [fedCutOther]).1.map
        (fun pair => (pair.kalshi, pair.other, pair.confidence)) =
      [(fedCutKalshi, fedCutOther, .identical)] ∧
    fedCutKalshi.terms.thresholdUnits = none ∧
    ¬MissingDataBlocks ℚ .ascii {} fedCutKalshi fedCutOther := by
  have hReturned : (matchAll .ascii twoDocuments {} [fedCutKalshi] [fedCutOther]).1.map
      (fun pair => (pair.kalshi, pair.other, pair.confidence)) =
        [(fedCutKalshi, fedCutOther, .identical)] := by decide +kernel
  refine ⟨hReturned, rfl, fun h => ?_⟩
  obtain ⟨pair, hPair, hKalshi, hOther, hIdentical⟩ := exists_returned hReturned
  have hSettled := h.settled twoDocuments _ _ pair hPair hKalshi hOther hIdentical
  obtain ⟨hNone, -⟩ | ⟨-, hUnits⟩ := hSettled.level
  · cases hNone
  · exact absurd hUnits.equal (by decide)

end KalshiBot.CrossVenue

import KalshiBot.CrossVenue.Normalize
import KalshiBot.CrossVenue.Retrieval

/-! # Line markets against outcome markets

A line market is told apart by the number in its question. A question without one leaves no
level, and then the gate takes the market for an outcome like any other.
-/

namespace KalshiBot.CrossVenue

open PythonText

set_option autoImplicit false

variable (u : Unicode) (parsers : Parsers)

/-- What a payload of a line market's type normalizes to. -/
inductive NormalizedLine (other : NormalizedMarket) : Prop where
  | intl (market : Payload) (hType : sportsMarketType u market ∉ moneylineMarketTypes)
      (h : normalizePolymarketMarket u parsers market = some (some other))
  | us (market event : Payload) (hType : marketType u market ∉ pmUsOutcomeMarketTypes)
      (h : normalizePolymarketUsMarket u parsers market event = some (some other))

/-- The matcher never returns the pair as identical, among whatever markets and whatever the
configuration. -/
def NeverIdentical {K : Type} [Field K] [LinearOrder K] (f : FloatMath K)
    (kalshi other : NormalizedMarket) : Prop :=
  ∀ (config : MatcherConfig) (kalshiMarkets otherMarkets : List NormalizedMarket),
    ∀ pair ∈ (matchAll u f config kalshiMarkets otherMarkets).1, pair.kalshi = kalshi →
      pair.other = other → pair.confidence ≠ .identical

/-- Levels aside, the pair could be taken for identical under some configuration. -/
structure Comparable (kalshi other : NormalizedMarket) : Prop where
  aligned : (resolveAlignment u kalshi other).1.isSome
  sameClaim : qualifierConflict (tokenize u kalshi.claimText) (tokenize u other.claimText) = none
  exhaustive : Exhaustive u kalshi other
  times : kalshi.terms.scheduledEventTime.isSome ∧ other.terms.scheduledEventTime.isSome ∨
    DatesAgree kalshi other ∧
      (kalshi.terms.scheduledEventTime = none ∨ other.terms.scheduledEventTime = none)
  sources : SourcesAgree u kalshi other

def LevelsAgree (kalshi other : NormalizedMarket) : Prop :=
  NoLevel kalshi other ∨ SameLevel kalshi other ∧
    (Stated kalshi.terms.thresholdUnits → Stated other.terms.thresholdUnits →
      kalshi.terms.thresholdUnits = other.terms.thresholdUnits)

def ReadsNumber (other : NormalizedMarket) : Prop :=
  ∃ c ∈ other.question.toList, (u.digit c).isSome

variable {u parsers} {kalshi other : NormalizedMarket}

theorem NormalizedLine.threshold (h : NormalizedLine u parsers other) :
    other.terms.threshold = parseNumber u other.question.toList := by
  cases h with
  | intl market hType h =>
    rw [normalizePolymarketMarket] at h
    simp only [polymarketClaim, if_pos hType] at h
    split at h
    · simp only [Option.bind_eq_bind, Option.bind_eq_some_iff, Option.pure_def,
        Option.some.injEq] at h
      obtain ⟨slug, -, title, -, fee, -, tickDollars, -, minOrderContracts, -, rfl⟩ := h
      rfl
    · cases h
  | us market event hType h =>
    rw [normalizePolymarketUsMarket] at h
    simp only [polymarketUsClaim, if_pos hType] at h
    split at h
    · split at h
      · cases h
      · simp only [Option.bind_eq_bind, Option.bind_eq_some_iff, Option.pure_def,
          Option.some.injEq] at h
        obtain ⟨fee, -, tickDollars, -, minOrderContracts, -, rfl⟩ := h
        rfl
    · cases h

theorem NormalizedLine.threshold_isSome_iff (h : NormalizedLine u parsers other) :
    other.terms.threshold.isSome ↔ ReadsNumber u other := by
  rw [h.threshold, parseNumber_isSome_iff, ReadsNumber]

theorem not_neverIdentical {config : MatcherConfig}
    (hReturned : (matchAll u twoDocuments config [kalshi] [other]).1.map
      (fun pair => (pair.kalshi, pair.other, pair.confidence)) = [(kalshi, other, .identical)]) :
    ¬NeverIdentical u twoDocuments kalshi other := by
  intro h
  obtain ⟨pair, hPair, hKalshi, hOther, hIdentical⟩ := exists_returned hReturned
  exact h config _ _ pair hPair hKalshi hOther hIdentical

theorem comparable_of_clear {K : Type} [Field K] [LinearOrder K] {f : FloatMath K}
    {config : MatcherConfig} {kalshiTokens otherTokens : List String} {weights : Dict String K}
    (h : ReachesGate u f config ⟨kalshi, kalshiTokens⟩ ⟨other, otherTokens⟩ weights)
    (hClear : (settlementBlockers u config kalshi other).1 = []) :
    Comparable u kalshi other := by
  rw [settlementBlockers_eq_nil_iff] at hClear
  obtain ⟨hExhaustive, -, hTimes, hSources⟩ := hClear
  refine ⟨h.aligned, h.sameClaim, hExhaustive, ?_, hSources⟩
  obtain ⟨left, hLeft, right, hRight, -⟩ | hDates := hTimes
  · exact .inl ⟨Option.isSome_iff_exists.mpr ⟨left, hLeft⟩,
      Option.isSome_iff_exists.mpr ⟨right, hRight⟩⟩
  · exact .inr hDates

/-- A tolerance wide enough for the two starts, if both are stated. -/
def wideTolerance (kalshi other : NormalizedMarket) : ℤ :=
  match kalshi.terms.scheduledEventTime, other.terms.scheduledEventTime with
  | some kalshiStart, some otherStart => ⌈secondsBetween kalshiStart otherStart⌉
  | _, _ => 0

theorem startsAgree_wide {config : MatcherConfig}
    (hTolerance : config.scheduledTimeToleranceSeconds = wideTolerance kalshi other)
    (hKalshi : kalshi.terms.scheduledEventTime.isSome)
    (hOther : other.terms.scheduledEventTime.isSome) : StartsAgree config kalshi other := by
  obtain ⟨left, hLeft⟩ := Option.isSome_iff_exists.mp hKalshi
  obtain ⟨right, hRight⟩ := Option.isSome_iff_exists.mp hOther
  refine ⟨left, hLeft, right, hRight, ?_⟩
  rw [hTolerance, wideTolerance, hLeft, hRight]
  exact Int.le_ceil _

theorem Comparable.clear (h : Comparable u kalshi other) (hLevels : LevelsAgree kalshi other) :
    (settlementBlockers u (scoreless (wideTolerance kalshi other)) kalshi other).1 = [] := by
  rw [settlementBlockers_eq_nil_iff]
  refine ⟨h.exhaustive, hLevels, ?_, h.sources⟩
  obtain ⟨hKalshi, hOther⟩ | hDates := h.times
  · exact .inl (startsAgree_wide rfl hKalshi hOther)
  · exact .inr hDates

variable {K : Type} [Field K] [LinearOrder K] [IsStrictOrderedRing K] {f : FloatMath K}

/-- Some run returns the pair as identical exactly if it can be retrieved and all that it states
agrees. -/
theorem neverIdentical_iff_not (hLog : f.Lawful) (hSplits : u.SplitsAtSpaces)
    (hAscii : u.AgreesOnAscii) (hOnce : u.FoldsOnce) : NeverIdentical u f kalshi other ↔
      ¬(ShareToken u kalshi other ∧ Comparable u kalshi other ∧ LevelsAgree kalshi other) := by
  constructor
  · rintro h ⟨hShared, hComparable, hLevels⟩
    obtain ⟨kalshiMarkets, pair, hPair, hKalshi, hOther, hIdentical⟩ :=
      exists_identical hLog hSplits hAscii hOnce (wideTolerance kalshi other) hShared
        hComparable.aligned hComparable.sameClaim (hComparable.clear hLevels)
    exact h _ kalshiMarkets [other] pair hPair hKalshi hOther hIdentical
  · rintro hNot config kalshiMarkets otherMarkets pair hPair rfl rfl hIdentical
    obtain ⟨kalshiTokens, otherTokens, weights, hReaches, hClear⟩ :=
      gate_passed_of_mem_matchAll u f config hPair hIdentical
    refine hNot ⟨shareToken_of_mem_matchAll hPair, comparable_of_clear hReaches hClear, ?_⟩
    rw [settlementBlockers_eq_nil_iff] at hClear
    exact hClear.2.1

theorem neverIdentical_iff (hLog : f.Lawful) (hSplits : u.SplitsAtSpaces)
    (hAscii : u.AgreesOnAscii) (hOnce : u.FoldsOnce) (hLine : NormalizedLine u parsers other)
    (hKalshi : kalshi.terms.threshold = none) :
    NeverIdentical u f kalshi other ↔
      ReadsNumber u other ∨ ¬ShareToken u kalshi other ∨ ¬Comparable u kalshi other := by
  have hLevels : LevelsAgree kalshi other ↔ ¬ReadsNumber u other := by
    rw [← hLine.threshold_isSome_iff, Option.not_isSome_iff_eq_none]
    constructor
    · rintro (⟨-, hOther⟩ | ⟨hSame, -⟩)
      · exact hOther
      · have hStated := hSame.stated.1
        rw [hKalshi] at hStated
        cases hStated
    · exact fun hOther => .inl ⟨hKalshi, hOther⟩
  rw [neverIdentical_iff_not hLog hSplits hAscii hOnce, hLevels]
  tauto

/-- The two arrays and the one date that the payloads below hold. -/
def sampleParsers : Parsers where
  loads text :=
    if text = "[\"Boston Celtics\", \"Los Angeles Lakers\"]" then
      some (.list [.str "Boston Celtics", .str "Los Angeles Lakers"])
    else if text = "[\"8088\", \"6120\"]" then some (.list [.str "8088", .str "6120"])
    else none
  fromIsoFormat text :=
    if text = "2026-10-21T23:30:00+00:00" then some (1792625400000000, some 0) else none

def celticsKalshi : NormalizedMarket where
  venue := .kalshi
  marketId := "KXNBAGAME-26OCT21BOSLAL-BOS"
  eventId := "KXNBAGAME-26OCT21BOSLAL"
  question := "Boston vs Los Angeles L: winner?"
  yesLabel := "Boston"
  noLabel := "not Boston"
  category := "sports"
  terms :=
    { closeTime := some 1792625400000000
      expiryTime := some 1792625400000000
      scheduledEventTime := some 1792625400000000
      resolutionSources := ["nba https://www.nba.com/"] }
  fee := ⟨.kalshi, 7 / 100, true, "test", 0⟩
  tickDollars := 1 / 100
  minOrderContracts := 1
  claimText := "Boston vs Los Angeles L: winner? Boston"
  searchText := "Boston vs Los Angeles L: winner? Boston"

/-- The winner of the first half, or with a number in its question the winner after a handicap. -/
def celticsPayload (question : String) : Payload :=
  [("conditionId", .str "0x8088"), ("question", .str question),
    ("outcomes", .str "[\"Boston Celtics\", \"Los Angeles Lakers\"]"),
    ("clobTokenIds", .str "[\"8088\", \"6120\"]"),
    ("sportsMarketType", .str "first_half_moneyline"),
    ("resolutionSource", .str "https://www.nba.com/"), ("endDate", .str "2026-10-21T23:30:00Z"),
    ("gameStartTime", .str "2026-10-21 23:30:00+00:00"), ("feesEnabled", .bool false)]

def celticsOther (question : String) : NormalizedMarket where
  venue := .polymarketIntl
  marketId := "0x8088"
  eventId := ""
  question := question
  yesLabel := "Boston Celtics"
  noLabel := "Los Angeles Lakers"
  category := ""
  terms :=
    { closeTime := some 1792625400000000
      expiryTime := some 1792625400000000
      scheduledEventTime := some 1792625400000000
      comparator := .greater
      threshold := parseNumber .ascii question.toList
      thresholdUnits := some "first_half_moneyline"
      resolutionSources := ["https://www.nba.com/"]
      canCloseEarly := true }
  fee := ⟨.polymarketIntl, 0, false, "gamma feesEnabled=False feeType=None", 0⟩
  tickDollars := 1 / 100
  minOrderContracts := 1
  yesToken := "8088"
  noToken := "6120"
  claimText := question ++ " Boston Celtics"
  searchText := question ++ " Boston Celtics Los Angeles Lakers"

def firstHalf : String := "Celtics vs. Lakers: first half winner"
def handicap : String := "Celtics (-3.5) vs. Lakers: first half winner"

theorem handicap_neverIdentical :
    NeverIdentical .ascii twoDocuments celticsKalshi (celticsOther handicap) ↔
      ReadsNumber .ascii (celticsOther handicap) ∨
        ¬ShareToken .ascii celticsKalshi (celticsOther handicap) ∨
          ¬Comparable .ascii celticsKalshi (celticsOther handicap) :=
  have hLine : NormalizedLine .ascii sampleParsers (celticsOther handicap) :=
    .intl (celticsPayload handicap) (by decide +kernel) (by decide +kernel)
  neverIdentical_iff twoDocuments_lawful Unicode.ascii_splitsAtSpaces Unicode.ascii_agreesOnAscii
    Unicode.ascii_foldsOnce hLine rfl

theorem firstHalf_identical_to_game :
    sportsMarketType .ascii (celticsPayload firstHalf) ∉ moneylineMarketTypes ∧
    normalizePolymarketMarket .ascii sampleParsers (celticsPayload firstHalf) =
      some (some (celticsOther firstHalf)) ∧
    celticsKalshi.terms.threshold = none ∧
    (matchAll .ascii twoDocuments {} [celticsKalshi] [celticsOther firstHalf]).1.map
        (fun pair => (pair.kalshi, pair.other, pair.confidence)) =
      [(celticsKalshi, celticsOther firstHalf, .identical)] ∧
    ¬NeverIdentical .ascii twoDocuments celticsKalshi (celticsOther firstHalf) := by
  have hReturned : (matchAll .ascii twoDocuments {} [celticsKalshi] [celticsOther firstHalf]).1.map
      (fun pair => (pair.kalshi, pair.other, pair.confidence)) =
        [(celticsKalshi, celticsOther firstHalf, .identical)] := by decide +kernel
  exact ⟨by decide +kernel, by decide +kernel, rfl, hReturned, not_neverIdentical hReturned⟩

end KalshiBot.CrossVenue

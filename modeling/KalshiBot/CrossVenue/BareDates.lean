import KalshiBot.CrossVenue.KalshiMarkets
import KalshiBot.CrossVenue.LineMarkets

/-! # Dates without a time of day

A phrase that states a date and no time is read as the midnight that begins the date, and the gate
compares that midnight like any stated start.
-/

namespace KalshiBot.CrossVenue

open PythonText

set_option autoImplicit false

variable (u : Unicode) (tolerance : ℤ) (kalshi other : NormalizedMarket)

/-- Whenever a run with this tolerance returns the pair as identical, both expiries fall on one
date. -/
def DatedWhenIdentical {K : Type} [Field K] [LinearOrder K] (f : FloatMath K) : Prop :=
  ∀ (config : MatcherConfig) (kalshiMarkets otherMarkets : List NormalizedMarket),
    config.scheduledTimeToleranceSeconds = tolerance →
      ∀ pair ∈ (matchAll u f config kalshiMarkets otherMarkets).1, pair.kalshi = kalshi →
        pair.other = other → pair.confidence = .identical → DatesAgree kalshi other

/-- Nothing but its times stands against the pair. -/
structure Alike : Prop where
  aligned : (resolveAlignment u kalshi other).1.isSome
  sameClaim : qualifierConflict (tokenize u kalshi.claimText) (tokenize u other.claimText) = none
  exhaustive : Exhaustive u kalshi other
  levels : LevelsAgree kalshi other
  sources : SourcesAgree u kalshi other

def StartsNear : Prop :=
  ∃ kalshiStart ∈ kalshi.terms.scheduledEventTime, ∃ otherStart ∈ other.terms.scheduledEventTime,
    secondsBetween kalshiStart otherStart ≤ tolerance

variable {u tolerance kalshi other}

theorem alike_of_clear {K : Type} [Field K] [LinearOrder K] {f : FloatMath K}
    {config : MatcherConfig} {kalshiTokens otherTokens : List String} {weights : Dict String K}
    (h : ReachesGate u f config ⟨kalshi, kalshiTokens⟩ ⟨other, otherTokens⟩ weights)
    (hClear : (settlementBlockers u config kalshi other).1 = []) :
    Alike u kalshi other ∧
      (StartsNear config.scheduledTimeToleranceSeconds kalshi other ∨ DatesAgree kalshi other) := by
  rw [settlementBlockers_eq_nil_iff] at hClear
  obtain ⟨hExhaustive, hLevels, hTimes, hSources⟩ := hClear
  exact ⟨⟨h.aligned, h.sameClaim, hExhaustive, hLevels, hSources⟩, hTimes.imp_right And.left⟩

theorem Alike.clear (h : Alike u kalshi other) (hStarts : StartsNear tolerance kalshi other) :
    (settlementBlockers u (scoreless tolerance) kalshi other).1 = [] := by
  rw [settlementBlockers_eq_nil_iff]
  exact ⟨h.exhaustive, h.levels, .inl hStarts, h.sources⟩

section

variable {K : Type} [Field K] [LinearOrder K] [IsStrictOrderedRing K] {f : FloatMath K}

theorem datedWhenIdentical_iff (hLog : f.Lawful) (hSplits : u.SplitsAtSpaces)
    (hAscii : u.AgreesOnAscii) (hOnce : u.FoldsOnce) :
    DatedWhenIdentical u tolerance kalshi other f ↔
      ¬(ShareToken u kalshi other ∧ Alike u kalshi other ∧ StartsNear tolerance kalshi other ∧
        ¬DatesAgree kalshi other) := by
  constructor
  · rintro h ⟨hShared, hAlike, hStarts, hApart⟩
    obtain ⟨kalshiMarkets, pair, hPair, hKalshi, hOther, hIdentical⟩ :=
      exists_identical hLog hSplits hAscii hOnce tolerance hShared hAlike.aligned hAlike.sameClaim
        (hAlike.clear hStarts)
    exact hApart (h _ kalshiMarkets [other] rfl pair hPair hKalshi hOther hIdentical)
  · rintro hNot config kalshiMarkets otherMarkets rfl pair hPair rfl rfl hIdentical
    obtain ⟨kalshiTokens, otherTokens, weights, hReaches, hClear⟩ :=
      gate_passed_of_mem_matchAll u f config hPair hIdentical
    obtain ⟨hAlike, hStarts | hDates⟩ := alike_of_clear hReaches hClear
    · exact by_contra fun hApart =>
        hNot ⟨shareToken_of_mem_matchAll hPair, hAlike, hStarts, hApart⟩
    · exact hDates

end

/-- The midnight of a phrase's date in the zone that stands for a missing one. -/
def bareStart (zoneInfo : String → Option Zone) (phrase : DatePhrase) : Option ℤ := do
  let month ← months.lookup phrase.month
  let zone ← zoneInfo "UTC"
  let date ← phrase.date month
  zone (date.localTime 0 0)

theorem parse_bare {zoneInfo : String → Option Zone} {text : String} {phrase : DatePhrase}
    {start : Option ℤ} (hPhrase : searchPhrase u text.toList = some phrase)
    (hBare : phrase.clock = none) (h : parseDatetimePhrase u zoneInfo text = some start) :
    start = bareStart zoneInfo phrase := by
  have hZone : zoneOf zoneInfo ((phrase.clock.bind Clock.tz).getD "UTC") = zoneInfo "UTC" := by
    rw [hBare]
    rfl
  simp only [parseDatetimePhrase, hPhrase, DatePhrase.time, hZone] at h
  simp only [hBare, Option.map_none, Option.bind_none, Option.getD_none] at h
  rw [bareStart]
  cases hMonth : months.lookup phrase.month with
  | none =>
    rw [hMonth] at h
    exact (Option.some.inj h).symm
  | some month =>
    rw [hMonth] at h
    cases hUtc : zoneInfo "UTC" with
    | none =>
      rw [hUtc] at h
      cases h
    | some zone =>
      rw [hUtc] at h
      cases hDate : phrase.date month with
      | none =>
        simp only [hDate] at h
        simpa [hDate] using (Option.some.inj h).symm
      | some date =>
        simp only [hDate] at h
        obtain ⟨time, hTime, rfl⟩ := Option.map_eq_some_iff.mp h
        simpa [hDate] using hTime.symm

/-- The midnight of the bare date lies within the tolerance of the other side's start. -/
def MidnightNear (zoneInfo : String → Option Zone) (phrase : DatePhrase) (tolerance : ℤ)
    (other : NormalizedMarket) : Prop :=
  ∃ midnight ∈ bareStart zoneInfo phrase, ∃ otherStart ∈ other.terms.scheduledEventTime,
    secondsBetween midnight otherStart ≤ tolerance

/-- The two arrays and the two times that the payloads below hold. -/
def eveningParsers : Parsers where
  loads := sampleParsers.loads
  fromIsoFormat text :=
    if text = "2026-10-22T00:10:00+00:00" then some (1792627800000000, some 0)
    else if text = "2026-10-23T03:00:00+00:00" then some (1792724400000000, some 0)
    else none

def utcOnly (zoneName : String) : Option Zone := if zoneName = "UTC" then some some else none

/-- A game that is said to be on Oct 22, and no time. -/
def bareKalshiPayload : Payload :=
  [("ticker", .str "KXNBAGAME-26OCT22BOSLAL-BOS"), ("event_ticker", .str "KXNBAGAME-26OCT22BOSLAL"),
    ("yes_sub_title", .str "Boston"), ("expected_expiration_time", .str "2026-10-23T03:00:00Z"),
    ("rules_primary", .str "If Boston wins the game scheduled for Oct 22, 2026, then Yes.")]

def bareKalshiEvent : Payload :=
  [("title", .str "Boston vs Los Angeles L"), ("category", .str "Sports"),
    ("settlement_sources", .list
      [.dict [("name", .str "NBA"), ("url", .str "https://www.nba.com/")]])]

/-- The game that begins on the evening of Oct 21 in New York, ten minutes into Oct 22 in UTC. -/
def eveningPayload : Payload :=
  [("conditionId", .str "0x2121"), ("question", .str "Celtics vs. Lakers"),
    ("outcomes", .str "[\"Boston Celtics\", \"Los Angeles Lakers\"]"),
    ("clobTokenIds", .str "[\"8088\", \"6120\"]"), ("sportsMarketType", .str "moneyline"),
    ("resolutionSource", .str "https://www.nba.com/"), ("endDate", .str "2026-10-22T00:10:00Z"),
    ("gameStartTime", .str "2026-10-22 00:10:00+00:00"), ("feesEnabled", .bool false)]

def bareKalshi : NormalizedMarket where
  venue := .kalshi
  marketId := "KXNBAGAME-26OCT22BOSLAL-BOS"
  eventId := "KXNBAGAME-26OCT22BOSLAL"
  question := "Boston vs Los Angeles L"
  yesLabel := "Boston"
  noLabel := "not Boston"
  category := "sports"
  terms :=
    { closeTime := none
      expiryTime := some 1792724400000000
      scheduledEventTime := some 1792627200000000
      resolutionSources := ["nba https://www.nba.com/"]
      rawRules := "If Boston wins the game scheduled for Oct 22, 2026, then Yes." }
  fee := celticsKalshi.fee
  tickDollars := 1 / 100
  minOrderContracts := 1
  yesToken := "KXNBAGAME-26OCT22BOSLAL-BOS"
  noToken := "KXNBAGAME-26OCT22BOSLAL-BOS"
  claimText := "Boston vs Los Angeles L  Boston"
  searchText := "Boston vs Los Angeles L Boston " ++
    "If Boston wins the game scheduled for Oct 22, 2026, then Yes."

def eveningOther : NormalizedMarket :=
  { celticsOther "Celtics vs. Lakers" with
    marketId := "0x2121"
    terms :=
      { (celticsOther "Celtics vs. Lakers").terms with
        closeTime := some 1792627800000000
        expiryTime := some 1792627800000000
        scheduledEventTime := some 1792627800000000
        comparator := .none
        threshold := none
        thresholdUnits := none } }

def oct22 : DatePhrase := ⟨"oct", 22, 2026, none⟩

theorem bareKalshi_phrase :
    searchPhrase .ascii (textField bareKalshiPayload "rules_primary").toList = some oct22 := by
  decide +kernel

theorem bareKalshi_normalized : normalizeKalshiMarket .ascii eveningParsers utcOnly bareKalshiPayload
    bareKalshiEvent celticsKalshi.fee = some bareKalshi := by
  decide +kernel

end KalshiBot.CrossVenue

import KalshiBot.CrossVenue.DatePhrases
import KalshiBot.CrossVenue.Normalize

/-! # Lowering Kalshi's payloads

A market's start stands in its rules only, its sources and its title on the event. The `none` of
a result is an exception.
-/

namespace KalshiBot.CrossVenue

open PythonText

set_option autoImplicit false

variable (u : Unicode)

def kalshiStep : PyValue → Option ℚ
  | .dict entry => ((entry.lookup "step").bind PyValue.toFloat).filter (0 < ·)
  | _ => none

/-- The finest step that can be read; what cannot be iterated raises. -/
def kalshiTick (market : Payload) : Option ℚ :=
  match (field market "price_ranges").orElse (.list []) with
  | .list entries => some ((entries.filterMap kalshiStep).min?.getD (1 / 100))
  | .str _ | .dict _ => some (1 / 100)
  | _ => none

def kalshiUnits (market : Payload) : Option String :=
  let text := u.lower (textField market "yes_sub_title" ++ " " ++ textField market "rules_primary").toList
  let has := fun word : String => decide (word.toList <:+: text)
  if has "fahrenheit" ∨ has "°" then some "fahrenheit"
  else if has "bps" ∨ has "basis point" then some "bps"
  else if has "percent" ∨ has "%" then some "percent"
  else if has "$" ∨ has "dollar" then some "usd"
  else none

def settlementSource : PyValue → List String
  | .str source => [lowerText u source]
  | .dict source =>
    let joined := foldLabel u (joinParts [textField source "name", textField source "url"])
    if joined = "" then [] else [joined]
  | _ => []

def flattenSettlementSources : PyValue → List String
  | .list entries => entries.flatMap (settlementSource u)
  | _ => []

/-- The value if it is a text. -/
def asText : PyValue → Option String
  | .str text => some text
  | _ => none

def normalizeKalshiMarket (parsers : Parsers) (zoneInfo : String → Option Zone)
    (market event : Payload) (fee : TakerFeeModel) : Option NormalizedMarket := do
  let (comparator, threshold, thresholdUpper) := kalshiStrike market
  let rules := textField market "rules_primary"
  let scheduledEventTime ← parseDatetimePhrase u zoneInfo rules
  let terms : SettlementTerms :=
    { closeTime := parseIso parsers (field market "close_time")
      expiryTime := parseIso parsers (field market "expected_expiration_time") <|>
        parseIso parsers (field market "expiration_time")
      scheduledEventTime := scheduledEventTime
      comparator := comparator
      threshold := threshold
      thresholdUpper := thresholdUpper
      thresholdUnits := kalshiUnits u market
      resolutionSources := flattenSettlementSources u (field event "settlement_sources")
      canCloseEarly := (field market "can_close_early").truthy
      rawRules := rules }
  let title := textField market "title"
  let yesLabel :=
    (((field market "yes_sub_title").orElse (field market "subtitle")).orElse (.str title)).text
  let eventTitle := (asText (field event "title")).toList
  let ticker := textField market "ticker"
  let tickDollars ← kalshiTick market
  pure
    { venue := .kalshi
      marketId := ticker
      eventId := textField market "event_ticker"
      question := ((field event "title").orElse (.str title)).text
      yesLabel := yesLabel
      noLabel := ((field market "no_sub_title").orElse (.str ("not " ++ yesLabel))).text
      category := lowerText u (textField event "category")
      terms := terms
      fee := fee
      tickDollars := tickDollars
      minOrderContracts := 1
      yesToken := ticker
      noToken := ticker
      claimText := " ".intercalate (eventTitle ++ [title, yesLabel])
      searchText := joinParts (eventTitle ++ [title, yesLabel] ++
        (asText (field market "sub_title")).toList ++ [rules]) }

theorem scheduledEventTime_of_normalized {parsers : Parsers} {zoneInfo : String → Option Zone}
    {market event : Payload} {fee : TakerFeeModel} {kalshi : NormalizedMarket}
    (h : normalizeKalshiMarket u parsers zoneInfo market event fee = some kalshi) :
    parseDatetimePhrase u zoneInfo (textField market "rules_primary") =
      some kalshi.terms.scheduledEventTime := by
  rw [normalizeKalshiMarket] at h
  simp only [Option.bind_eq_bind, Option.bind_eq_some_iff, Option.pure_def, Option.some.injEq] at h
  obtain ⟨start, hStart, tickDollars, -, rfl⟩ := h
  exact hStart

end KalshiBot.CrossVenue

import KalshiBot.CrossVenue.Markets

/-! # Lowering raw payloads

One function per counterparty venue. The outer `none` of a result is an exception, the inner one
a market that is skipped. JSON and ISO dates are read by functions given from outside.
-/

namespace KalshiBot.CrossVenue

open PythonText

set_option autoImplicit false

abbrev Payload := List (String × PyValue)

/-- `orjson.loads`, and `datetime.fromisoformat` as local time and offset. -/
structure Parsers where
  loads : String → Option PyValue
  fromIsoFormat : String → Option (ℤ × Option ℤ)

variable (u : Unicode) (parsers : Parsers)

/-- `payload.get(key)` -/
def field (payload : Payload) (key : String) : PyValue := (payload.lookup key).getD .null

/-- `str(payload.get(key) or "")` -/
def textField (payload : Payload) (key : String) : String :=
  ((field payload key).orElse (.str "")).text

/-- `float(payload.get(key) or default)` -/
def floatField (payload : Payload) (key : String) (default : ℚ) : Option ℚ :=
  ((field payload key).orElse (.float default)).toFloat

/-- `" ".join(part for part in parts if part)` -/
def joinParts (parts : List String) : String := " ".intercalate (parts.filter (· ≠ ""))

def decodeJsonArray (raw : PyValue) : List PyValue :=
  match raw with
  | .list items => items
  | .str text =>
    if text = "" then []
    else match parsers.loads text with
      | some (.list items) => items
      | _ => []
  | _ => []

def parseIso (value : PyValue) : Option ℤ :=
  match value with
  | .str value =>
    let text := (strip value.toList).flatMap fun c => if c = 'Z' then "+00:00".toList else [c]
    let text := if ' ' ∈ text ∧ 'T' ∉ text then
        text.takeWhile (· ≠ ' ') ++ 'T' :: (text.dropWhile (· ≠ ' ')).tail
      else text
    if value = "" then none
    else (parsers.fromIsoFormat (String.ofList text)).map fun parsed =>
      parsed.1 - parsed.2.getD 0
  | _ => none

def comparators : List Comparator :=
  [.greater, .greaterEqual, .less, .lessEqual, .between, .equal, .none]

/-- `Comparator(name)` -/
def Comparator.ofValue (name : String) : Comparator :=
  (comparators.find? fun comparator => comparator.value = name).getD .none

def kalshiStrike (market : Payload) : Comparator × Option ℚ × Option ℚ :=
  let floor := (field market "floor_strike").toFloat
  let cap := (field market "cap_strike").toFloat
  let strikeType := textField market "strike_type"
  if strikeType = "greater" then (.greater, floor, none)
  else if strikeType = "greater_or_equal" then (.greaterEqual, floor, none)
  else if strikeType = "less" then (.less, cap, none)
  else if strikeType = "less_or_equal" then (.lessEqual, cap, none)
  else if strikeType = "between" then (.between, floor, cap)
  else (.none, none, none)

def moneylineMarketTypes : List String := ["moneyline", ""]
def genericSideLabels : List String := ["yes", "no"]
def pmUsOutcomeMarketTypes : List String := ["futures", "moneyline", "election"]

def polymarketUnits (question : String) : Option String :=
  let lowered := u.lower question.toList
  if "bps".toList <:+: lowered ∨ "basis point".toList <:+: lowered then some "bps"
  else if '%' ∈ lowered ∨ "percent".toList <:+: lowered then some "percent"
  else if '$' ∈ lowered then some "usd"
  else none

def polymarketCategory (market : Payload) : String :=
  lowerText u (String.ofList ((textField market "feeType").toList.takeWhile (· ≠ '_')))

/-- `value == 1` -/
def isOne : PyValue → Bool
  | .bool b => b
  | .int i => i = 1
  | .float q => q = 1
  | _ => false

def polymarketFeeModel (market : Payload) : Option TakerFeeModel :=
  let feeType := field market "feeType"
  match (field market "feesEnabled").truthy, field market "feeSchedule" with
  | true, .dict schedule =>
    let exponent := field schedule "exponent"
    if isOne exponent then
      (field schedule "rate").toFloat.map fun rate =>
        { venue := .polymarketIntl, rate := rate, roundUpToCent := false
          source := "gamma feeType=" ++ feeType.text ++ " rate=" ++ formatGeneral rate ++
            " exponent=" ++ exponent.text }
    else none
  | _, _ => some
      { venue := .polymarketIntl, rate := 0, roundUpToCent := false
        source := "gamma feesEnabled=" ++ (field market "feesEnabled").repr ++ " feeType=" ++
          feeType.repr }

def polymarketUsFeeModel (market : Payload) : Option TakerFeeModel :=
  match (field market "feeCoefficient").toFloat with
  | none => none
  | some rate =>
    if rate < 0 then none
    else some
      { venue := .polymarketUs, rate := rate, roundUpToCent := false
        source := "gateway /v1/markets feeCoefficient=" ++ formatGeneral rate }

def questionClaim (question : String) : Comparator × Option ℚ :=
  let comparator := Comparator.ofValue (extractComparator u question.toList)
  (comparator, if comparator = .none then none else parseNumber u question.toList)

def sportsMarketType (market : Payload) : String :=
  lowerText u (textField market "sportsMarketType")

/-- Comparator, level and units; a line market's level is whatever number its question holds. -/
def polymarketClaim (market : Payload) : Comparator × Option ℚ × Option String :=
  let question := textField market "question"
  let sportsType := sportsMarketType u market
  if sportsType ∉ moneylineMarketTypes then
    (.greater, parseNumber u question.toList, some sportsType)
  else ((questionClaim u question).1, (questionClaim u question).2, polymarketUnits u question)

def normalizePolymarketMarket (market : Payload) : Option (Option NormalizedMarket) :=
  let outcomes := (decodeJsonArray parsers (field market "outcomes")).map PyValue.text
  let tokenIds := (decodeJsonArray parsers (field market "clobTokenIds")).map PyValue.text
  match outcomes, tokenIds with
  | [yesLabel, noLabel], [yesToken, noToken] => do
    let question := textField market "question"
    let (comparator, threshold, units) := polymarketClaim u market
    let event := match (field market "events").orElse (.list []) with
      | .list (event :: _) => event
      | _ => .dict []
    let slug ← event.get? "slug"
    let title ← event.get? "title"
    let resolutionSource := lowerText u (textField market "resolutionSource")
    let endDate := parseIso parsers (field market "endDate")
    let terms : SettlementTerms :=
      { closeTime := endDate
        expiryTime := endDate
        scheduledEventTime := parseIso parsers (field market "gameStartTime")
        comparator := comparator
        threshold := threshold
        thresholdUnits := units
        resolutionSources := if resolutionSource = "" then [] else [resolutionSource]
        canCloseEarly := true
        rawRules := textField market "description" }
    let fee ← polymarketFeeModel market
    let tickDollars ← floatField market "orderPriceMinTickSize" (1 / 100)
    let minOrderContracts ← floatField market "orderMinSize" 1
    pure (some
      { venue := .polymarketIntl
        marketId := (((field market "conditionId").orElse (field market "id")).orElse
          (.str "")).text
        eventId := ((slug.orElse (field market "slug")).orElse (.str "")).text
        question := question
        yesLabel := yesLabel
        noLabel := noLabel
        category := polymarketCategory u market
        terms := terms
        fee := fee
        tickDollars := tickDollars
        minOrderContracts := minOrderContracts
        yesToken := yesToken
        noToken := noToken
        claimText := question ++ " " ++ yesLabel
        searchText := joinParts [question, yesLabel, noLabel, (title.orElse (.str "")).text] })
  | _, _ => some none

def pmUsLabels (longSide shortSide title question : String) : String × String :=
  if foldLabel u longSide ∉ genericSideLabels then (longSide, shortSide)
  else if title = "" ∨ title = question then (longSide, shortSide)
  else (title, "not " ++ title)

def pmUsSettlementSources (event : Payload) : List String :=
  match field event "primaryTag" with
  | .dict tag =>
    match field tag "league" with
    | .dict league =>
      let joined := foldLabel u (joinParts [textField league "name", textField league "resolution"])
      if joined = "" then [] else [joined]
    | _ => []
  | _ => []

def sideDescription : PyValue → String
  | .dict side => textField side "description"
  | _ => ""

def marketType (market : Payload) : String := lowerText u (textField market "marketType")

/-- Classified by the market's type, tagged with the finer one of its sport. -/
def polymarketUsClaim (market : Payload) : Comparator × Option ℚ × Option String :=
  let question := textField market "question"
  let sportsType := sportsMarketType u market
  if marketType u market ∉ pmUsOutcomeMarketTypes then
    (.greater, parseNumber u question.toList,
      some (if sportsType = "" then marketType u market else sportsType))
  else ((questionClaim u question).1, (questionClaim u question).2, polymarketUnits u question)

def normalizePolymarketUsMarket (market event : Payload) : Option (Option NormalizedMarket) :=
  match field market "marketSides" with
  | .list [long, short] =>
    let longSide := sideDescription long
    let shortSide := sideDescription short
    if longSide = "" ∨ shortSide = "" then some none
    else do
      let question := textField market "question"
      let title := String.ofList (strip (textField market "title").toList)
      let (longLabel, shortLabel) := pmUsLabels u longSide shortSide title question
      let (comparator, threshold, units) := polymarketUsClaim u market
      let endDate := parseIso parsers (field market "endDate")
      let gameStart := parseIso parsers (field market "gameStartTime")
      let ownTitle := if title ≠ longLabel then title else ""
      let slug := textField market "slug"
      let terms : SettlementTerms :=
        { closeTime := endDate
          expiryTime := endDate
          scheduledEventTime := gameStart <|> parseIso parsers (field event "startTime")
          comparator := comparator
          threshold := threshold
          thresholdUnits := units
          resolutionSources := pmUsSettlementSources u event
          rawRules := textField market "description" }
      let fee ← polymarketUsFeeModel market
      let tickDollars ← floatField market "orderPriceMinTickSize" (1 / 100)
      let minOrderContracts ← floatField market "minimumTradeQty" 1
      pure (some
        { venue := .polymarketUs
          marketId := slug
          eventId := (((field event "slug").orElse (field event "ticker")).orElse (.str "")).text
          question := question
          yesLabel := longLabel
          noLabel := shortLabel
          category := lowerText u
            (((field market "category").orElse (field event "category")).orElse (.str "")).text
          terms := terms
          fee := fee
          tickDollars := tickDollars
          minOrderContracts := minOrderContracts
          yesToken := slug
          noToken := slug
          claimText := joinParts [question, ownTitle, longLabel]
          searchText := joinParts [question, ownTitle, textField market "subtitle", longLabel,
            shortLabel, textField event "title"] })
  | _ => some none

end KalshiBot.CrossVenue

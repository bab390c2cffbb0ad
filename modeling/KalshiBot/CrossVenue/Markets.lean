import KalshiBot.CrossVenue.Text

/-! # Normalized markets

What every venue's payload is lowered into. Times are UTC, in microseconds since the epoch.
-/

namespace KalshiBot.CrossVenue

open PythonText

set_option autoImplicit false

inductive Venue where
  | kalshi
  | polymarketIntl
  | polymarketUs
deriving DecidableEq

inductive Comparator where
  | greater
  | greaterEqual
  | less
  | lessEqual
  | between
  | equal
  | none
deriving DecidableEq

def Comparator.value : Comparator → String
  | .greater => "greater"
  | .greaterEqual => "greater_equal"
  | .less => "less"
  | .lessEqual => "less_equal"
  | .between => "between"
  | .equal => "equal"
  | .none => "none"

/-- The empty text is no statement, as in the code's truth tests. -/
def Stated (units : Option String) : Prop := ∃ text, units = some text ∧ text ≠ ""

instance (units : Option String) : Decidable (Stated units) :=
  match units with
  | none => isFalse fun ⟨_, h, _⟩ => nomatch h
  | some text => decidable_of_iff (text ≠ "")
      ⟨fun h => ⟨text, rfl, h⟩, fun ⟨_, h, hText⟩ => Option.some.inj h ▸ hText⟩

structure SettlementTerms where
  closeTime : Option ℤ
  expiryTime : Option ℤ
  scheduledEventTime : Option ℤ := none
  comparator : Comparator := .none
  threshold : Option ℚ := none
  thresholdUpper : Option ℚ := none
  thresholdUnits : Option String := none
  resolutionSources : List String := []
  canCloseEarly : Bool := false
  rawRules : String := ""
deriving DecidableEq

structure TakerFeeModel where
  venue : Venue
  rate : ℚ
  roundUpToCent : Bool
  source : String
  makerRate : ℚ := 0
deriving DecidableEq

structure NormalizedMarket where
  venue : Venue
  marketId : String
  eventId : String
  question : String
  yesLabel : String
  noLabel : String
  category : String
  terms : SettlementTerms
  fee : TakerFeeModel
  tickDollars : ℚ
  minOrderContracts : ℚ
  yesToken : String := ""
  noToken : String := ""
  claimText : String := ""
  searchText : String := ""
deriving DecidableEq

def secondUs : ℤ := 1000000
def dayUs : ℤ := 86400 * secondUs

/-- `time.date()`, in days since the epoch. -/
def dateOf (time : ℤ) : ℤ := time / dayUs

/-- `abs((left - right).total_seconds())` -/
def secondsBetween (left right : ℤ) : ℚ := |left - right| / secondUs

structure BookLevel where
  priceDollars : ℚ
  sizeContracts : ℚ
deriving DecidableEq

/-- A bid at `p` for one outcome offers the other one at `1 - p`. -/
def BookLevel.complement (level : BookLevel) : BookLevel :=
  { level with priceDollars := 1 - level.priceDollars }

structure OutcomeBook where
  asks : List BookLevel := []
  bids : List BookLevel := []

namespace OutcomeBook

def bestAsk (book : OutcomeBook) : Option ℚ := book.asks.head?.map BookLevel.priceDollars

def askDepthContracts (book : OutcomeBook) : ℚ := (book.asks.map BookLevel.sizeContracts).sum

end OutcomeBook

inductive MatchConfidence where
  | identical
  | strong
  | weak
  | rejected
deriving DecidableEq

structure MatchedPair (K : Type) where
  kalshi : NormalizedMarket
  other : NormalizedMarket
  aligned : Bool
  confidence : MatchConfidence
  score : K
  evidence : List String := []
  blockers : List String := []

structure MatcherConfig where
  minScore : ℚ := 42 / 100
  strongScore : ℚ := 60 / 100
  scheduledTimeToleranceSeconds : ℤ := 1800
  expiryToleranceSeconds : ℤ := 86400
  maxCandidatesPerMarket : ℤ := 10

end KalshiBot.CrossVenue

import Mathlib.Data.Finset.Sort
import KalshiBot.Library.PythonText
import KalshiBot.Library.RollingWindow

/-! # The risk gate

The last check between a wake and a real order: attempt, notional, position,
concurrency, cooldown and shard caps over in-memory state. Dollars, prices and
contract counts that the source holds in floats are exact rationals here. `check`
returns early, before the deques are pruned, on the three reasons of `checkEarly`.
-/

namespace KalshiBot.Risk

open PythonText RollingWindow

set_option autoImplicit false

def hourMs : ℤ := 3600000
def dayMs : ℤ := 86400000

def eventTickerOf (marketTicker : String) : String :=
  if '-' ∈ marketTicker.toList then
    String.ofList (marketTicker.toList.reverse.dropWhile (· ≠ '-')).tail.reverse
  else marketTicker

example : eventTickerOf "KXBTCD-26AUG2118-T78399.99" = "KXBTCD-26AUG2118" := by decide

structure RiskLimits where
  allowedExchangeIndexes : Finset ℤ
  maxAttemptsPerHour : ℤ := 10
  maxAttemptsPerDay : ℤ := 50
  maxAttemptsPerTickerPerDay : ℤ := 5
  maxNotionalPerDayDollars : ℚ := 50
  maxConcurrentDispatches : ℤ := 2
  maxPositionContractsPerTicker : ℚ := 5
  maxAttemptsPerCorrelationGroupPerDay : ℤ := 10
  maxPositionContractsPerCorrelationGroup : ℚ := 10
  maxAttemptsPerEventPerDay : ℤ := 6
  maxPositionContractsPerEvent : ℚ := 6
  refireCooldownSeconds : ℚ := 60

structure Attempt where
  requestedAtMs : ℤ
  ticker : String
  correlationGroup : String
  notionalDollars : ℚ
  deriving DecidableEq

/-- A layered fill. Both places that append one have just seen a positive count. -/
structure Fill where
  recordedAtMs : ℤ
  ticker : String
  correlationGroup : String
  fillCount : ℚ
  pos : 0 < fillCount
  deriving DecidableEq

structure RiskGate where
  limits : RiskLimits
  attempts : List Attempt := []
  lastAttemptMs : Dict (String × String) ℤ := ∅
  fills : List Fill := []
  correlationGroupByTicker : Dict String String := ∅
  reconciledPositionByTicker : Dict String ℚ := ∅
  reconciledPositionByGroup : Dict String ℚ := ∅
  reconciledPositionByEvent : Dict String ℚ := ∅
  reconciledAtMs : ℤ := 0
  inFlight : ℤ := 0

structure Candidate where
  ticker : String
  direction : String
  exchangeIndex : ℤ
  count : ℤ
  priceDollars : ℚ
  correlationGroup : String := ""
  deriving DecidableEq

def Candidate.key (c : Candidate) : String × String := (c.ticker, c.direction)

def Candidate.notional (c : Candidate) : ℚ := c.count * c.priceDollars

inductive Rejection where
  | exchangeIndex (exchangeIndex : ℤ) (allowed : Finset ℤ)
  | concurrency (inFlight max : ℤ)
  | cooldown (direction ticker : String) (elapsedMs : ℤ) (seconds : ℚ)
  | hourlyAttempts (attempts : ℕ) (max : ℤ)
  | dailyAttempts (attempts : ℕ) (max : ℤ)
  | tickerAttempts (attempts : ℕ) (ticker : String) (max : ℤ)
  | eventAttempts (attempts : ℕ) (eventTicker : String) (max : ℤ)
  | groupAttempts (attempts : ℕ) (correlationGroup : String) (max : ℤ)
  | notional (notional max : ℚ)
  | tickerPosition (ticker : String) (position max : ℚ)
  | eventPosition (eventTicker : String) (position max : ℚ)
  | groupPosition (correlationGroup : String) (position max : ℚ)

/-- `sorted(indexes)` -/
def sortedIndexes (indexes : Finset ℤ) : List ℤ := indexes.sort (· ≤ ·)

def Rejection.message : Rejection → String
  | .exchangeIndex i allowed =>
    "exchange_index=" ++ toString i ++ " not in allowed [" ++
      ", ".intercalate ((sortedIndexes allowed).map toString) ++ "]" ++
      (if i = -1 then " (unknown shard cannot be verified as funded)" else "")
  | .concurrency n max =>
    toString n ++ " dispatches already in flight (max " ++ toString max ++ ")"
  | .cooldown direction ticker elapsedMs seconds =>
    "cooldown: last " ++ direction ++ " attempt on " ++ ticker ++ " was " ++
      formatFixed 1 (elapsedMs / 1000) ++ "s ago (min " ++ formatFixed 0 seconds ++ "s)"
  | .hourlyAttempts n max =>
    toString n ++ " attempts in the last hour (max " ++ toString max ++ ")"
  | .dailyAttempts n max =>
    toString n ++ " attempts in the last 24h (max " ++ toString max ++ ")"
  | .tickerAttempts n ticker max =>
    toString n ++ " attempts on " ++ ticker ++ " in the last 24h (max " ++ toString max ++ ")"
  | .eventAttempts n event max =>
    toString n ++ " attempts across event " ++ pyRepr event ++ " in the last 24h (max " ++
      toString max ++ ")"
  | .groupAttempts n group max =>
    toString n ++ " attempts across correlation group " ++ pyRepr group ++
      " in the last 24h (max " ++ toString max ++ ")"
  | .notional n max =>
    "daily notional would reach $" ++ formatFixed 2 n ++ " (max $" ++ formatFixed 2 max ++ ")"
  | .tickerPosition ticker position max =>
    "position on " ++ ticker ++ " would reach " ++ formatGeneral position ++
      " contracts (max " ++ formatGeneral max ++ ")"
  | .eventPosition event position max =>
    "position across event " ++ pyRepr event ++ " would reach " ++ formatGeneral position ++
      " contracts (max " ++ formatGeneral max ++ ")"
  | .groupPosition group position max =>
    "position across correlation group " ++ pyRepr group ++ " would reach " ++
      formatGeneral position ++ " contracts (max " ++ formatGeneral max ++ ")"

def refuseIf (p : Prop) [Decidable p] (r : Rejection) : Option Rejection :=
  if p then some r else none

@[simp] theorem refuseIf_eq_none (p : Prop) {_ : Decidable p} (r : Rejection) :
    refuseIf p r = none ↔ ¬p := by
  simp [refuseIf]

/-- The outcome of checks made in turn, each returning at once when it refuses. -/
def firstRejection (checks : List (Option Rejection)) : Option Rejection := checks.findSome? id

@[simp] theorem firstRejection_eq_none (checks : List (Option Rejection)) :
    firstRejection checks = none ↔ ∀ check ∈ checks, check = none := by
  simp [firstRejection]

namespace RiskGate

def unconfirmed (g : RiskGate) (on : Fill → Bool) (nowMs : ℤ) : ℚ :=
  total Fill.fillCount
    (g.fills.filter fun f => on f ∧ max g.reconciledAtMs (nowMs - dayMs) ≤ f.recordedAtMs)

def positionForTicker (g : RiskGate) (ticker : String) (nowMs : ℤ) : ℚ :=
  (g.reconciledPositionByTicker.lookup ticker).getD 0 +
    g.unconfirmed (fun f => f.ticker = ticker) nowMs

def positionForEvent (g : RiskGate) (eventTicker : String) (nowMs : ℤ) : ℚ :=
  (g.reconciledPositionByEvent.lookup eventTicker).getD 0 +
    g.unconfirmed (fun f => eventTickerOf f.ticker = eventTicker) nowMs

def positionForGroup (g : RiskGate) (correlationGroup : String) (nowMs : ℤ) : ℚ :=
  (g.reconciledPositionByGroup.lookup correlationGroup).getD 0 +
    g.unconfirmed (fun f => f.correlationGroup = correlationGroup) nowMs

def prune (g : RiskGate) (nowMs : ℤ) : RiskGate :=
  { g with
    attempts := pruneBefore Attempt.requestedAtMs (nowMs - dayMs) g.attempts
    fills := pruneBefore Fill.recordedAtMs (nowMs - dayMs) g.fills }

def checkEarly (g : RiskGate) (c : Candidate) (nowMs : ℤ) : Option Rejection :=
  firstRejection [
    refuseIf (c.exchangeIndex ∉ g.limits.allowedExchangeIndexes)
      (.exchangeIndex c.exchangeIndex g.limits.allowedExchangeIndexes),
    refuseIf (g.limits.maxConcurrentDispatches ≤ g.inFlight)
      (.concurrency g.inFlight g.limits.maxConcurrentDispatches),
    (g.lastAttemptMs.lookup c.key).bind fun last =>
      refuseIf (((nowMs - last : ℤ) : ℚ) < g.limits.refireCooldownSeconds * 1000)
        (.cooldown c.direction c.ticker (nowMs - last) g.limits.refireCooldownSeconds)]

def checkAttempts (g : RiskGate) (c : Candidate) (nowMs : ℤ) : Option Rejection :=
  let lastHour := (since Attempt.requestedAtMs (nowMs - hourMs) g.attempts).length
  let ticker := (g.attempts.filter fun a => a.ticker = c.ticker).length
  let event := (g.attempts.filter fun a => eventTickerOf a.ticker = eventTickerOf c.ticker).length
  let group := (g.attempts.filter fun a => a.correlationGroup = c.correlationGroup).length
  firstRejection [
    refuseIf (g.limits.maxAttemptsPerHour ≤ lastHour)
      (.hourlyAttempts lastHour g.limits.maxAttemptsPerHour),
    refuseIf (g.limits.maxAttemptsPerDay ≤ g.attempts.length)
      (.dailyAttempts g.attempts.length g.limits.maxAttemptsPerDay),
    refuseIf (g.limits.maxAttemptsPerTickerPerDay ≤ ticker)
      (.tickerAttempts ticker c.ticker g.limits.maxAttemptsPerTickerPerDay),
    refuseIf (g.limits.maxAttemptsPerEventPerDay ≤ event)
      (.eventAttempts event (eventTickerOf c.ticker) g.limits.maxAttemptsPerEventPerDay),
    refuseIf (c.correlationGroup ≠ "" ∧ g.limits.maxAttemptsPerCorrelationGroupPerDay ≤ group)
      (.groupAttempts group c.correlationGroup g.limits.maxAttemptsPerCorrelationGroupPerDay)]

def checkExposure (g : RiskGate) (c : Candidate) (nowMs : ℤ) : Option Rejection :=
  let notional := total Attempt.notionalDollars g.attempts + c.notional
  let position := g.positionForTicker c.ticker nowMs + c.count
  let event := g.positionForEvent (eventTickerOf c.ticker) nowMs + c.count
  let group := g.positionForGroup c.correlationGroup nowMs + c.count
  firstRejection [
    refuseIf (g.limits.maxNotionalPerDayDollars < notional)
      (.notional notional g.limits.maxNotionalPerDayDollars),
    refuseIf (g.limits.maxPositionContractsPerTicker < position)
      (.tickerPosition c.ticker position g.limits.maxPositionContractsPerTicker),
    refuseIf (g.limits.maxPositionContractsPerEvent < event)
      (.eventPosition (eventTickerOf c.ticker) event g.limits.maxPositionContractsPerEvent),
    refuseIf (c.correlationGroup ≠ "" ∧ g.limits.maxPositionContractsPerCorrelationGroup < group)
      (.groupPosition c.correlationGroup group g.limits.maxPositionContractsPerCorrelationGroup)]

/-- The verdict, `none` to allow, and the gate that the check leaves behind. -/
def check (g : RiskGate) (c : Candidate) (nowMs : ℤ) : Option Rejection × RiskGate :=
  match g.checkEarly c nowMs with
  | some rejection => (some rejection, g)
  | none =>
    let pruned := g.prune nowMs
    (firstRejection [pruned.checkAttempts c nowMs, pruned.checkExposure c nowMs], pruned)

def learnGroup (known : Dict String String) (ticker correlationGroup : String) :
    Dict String String :=
  if correlationGroup = "" then known else known.insert ticker correlationGroup

def recordAttempt (g : RiskGate) (ticker direction : String) (count : ℤ) (priceDollars : ℚ)
    (nowMs : ℤ) (correlationGroup : String := "") : RiskGate :=
  { g with
    attempts := g.attempts ++ [⟨nowMs, ticker, correlationGroup, count * priceDollars⟩]
    lastAttemptMs := g.lastAttemptMs.insert (ticker, direction) nowMs
    correlationGroupByTicker :=
      learnGroup g.correlationGroupByTicker ticker correlationGroup }

def groupOf (g : RiskGate) (ticker : String) : String :=
  (g.correlationGroupByTicker.lookup ticker).getD ""

def recordFill (g : RiskGate) (ticker : String) (fillCount : ℚ) (nowMs : ℤ) : RiskGate :=
  if h : 0 < fillCount then
    { g with fills := g.fills ++ [⟨nowMs, ticker, g.groupOf ticker, fillCount, h⟩] }
  else g

def aggregate (label : String → String) (skipEmpty : Bool) (openPositions : Dict String ℚ) :
    Dict String ℚ :=
  openPositions.entries.foldl (fun sums entry =>
    -- groups leave out a ticker whose group is unknown, events leave out nothing
    if skipEmpty ∧ label entry.1 = "" then sums
    else sums.insert (label entry.1) ((sums.lookup (label entry.1)).getD 0 + entry.2)) ∅

def reconcileOpenPositions (g : RiskGate) (openPositions : Dict String ℚ) (snapshotAtMs : ℤ) :
    RiskGate :=
  { g with
    reconciledPositionByTicker := openPositions
    reconciledPositionByGroup := aggregate g.groupOf true openPositions
    reconciledPositionByEvent := aggregate eventTickerOf false openPositions
    reconciledAtMs := snapshotAtMs }

/-- A fill touches the fill deque and nothing else. -/
theorem recordFill_eq (g : RiskGate) (ticker : String) (fillCount : ℚ) (nowMs : ℤ) :
    g.recordFill ticker fillCount nowMs =
      { g with fills := (g.recordFill ticker fillCount nowMs).fills } := by
  unfold recordFill
  split <;> rfl

theorem recordFill_of_pos (g : RiskGate) (ticker : String) {fillCount : ℚ} (nowMs : ℤ)
    (h : 0 < fillCount) : g.recordFill ticker fillCount nowMs =
      { g with fills := g.fills ++ [⟨nowMs, ticker, g.groupOf ticker, fillCount, h⟩] } := by
  rw [recordFill, dif_pos h]

theorem recordFill_of_nonpos (g : RiskGate) (ticker : String) {fillCount : ℚ} (nowMs : ℤ)
    (h : fillCount ≤ 0) : g.recordFill ticker fillCount nowMs = g := by
  rw [recordFill, dif_neg (not_lt.mpr h)]

theorem mem_recordFill {g : RiskGate} {ticker : String} {fillCount : ℚ} {nowMs : ℤ} {f : Fill}
    (h : f ∈ (g.recordFill ticker fillCount nowMs).fills) : f ∈ g.fills ∨
      f.recordedAtMs = nowMs ∧ f.ticker = ticker ∧ f.correlationGroup = g.groupOf ticker := by
  obtain hPos | hNot := lt_or_ge 0 fillCount
  · rw [g.recordFill_of_pos _ _ hPos] at h
    obtain h | h := List.mem_append.mp h
    · exact .inl h
    · rw [List.mem_singleton.mp h]
      exact .inr ⟨rfl, rfl, rfl⟩
  · rw [g.recordFill_of_nonpos _ _ hNot] at h
    exact .inl h

/-- What a fill adds to any total, `p` telling whether the new entry is in it. -/
theorem total_recordFill (g : RiskGate) (ticker : String) {fillCount : ℚ} (nowMs : ℤ)
    (h : 0 ≤ fillCount) {on : Fill → Bool} {p : Prop} [Decidable p]
    (hOn : ∀ pos, on ⟨nowMs, ticker, g.groupOf ticker, fillCount, pos⟩ = decide p) :
    total Fill.fillCount ((g.recordFill ticker fillCount nowMs).fills.filter on) =
      total Fill.fillCount (g.fills.filter on) + if p then fillCount else 0 := by
  obtain hZero | hPos := h.eq_or_lt
  · rw [g.recordFill_of_nonpos _ _ hZero.symm.le, ← hZero, ite_self, add_zero]
  · rw [g.recordFill_of_pos ticker nowMs hPos, List.filter_append, total_append,
      List.filter_singleton, hOn, Bool.cond_decide]
    split <;> simp

def beginDispatch (g : RiskGate) : RiskGate := { g with inFlight := g.inFlight + 1 }

def endDispatch (g : RiskGate) : RiskGate := { g with inFlight := max 0 (g.inFlight - 1) }

/-- A row of `orders_fired` as the warm start selects it; `null` is SQL's `NULL`. -/
structure FetchedOrder where
  ticker : String
  correlationGroup : Option String
  outcomeSide : String
  count : PyValue
  priceDollars : PyValue
  fillCount : PyValue
  requestedAtMs : ℤ

def asFloat (value : PyValue) : ℚ := value.toFloat.getD 0

def warmStartFill (row : FetchedOrder) : List Fill :=
  match row.fillCount with
  | .null => []
  | value =>
    if h : 0 < asFloat value then
      [⟨row.requestedAtMs, row.ticker, row.correlationGroup.getD "", asFloat value, h⟩]
    else []

def warmStartRow (g : RiskGate) (row : FetchedOrder) : RiskGate :=
  let group := row.correlationGroup.getD ""
  let key := (row.ticker, row.outcomeSide)
  { g with
    attempts := g.attempts ++
      [⟨row.requestedAtMs, row.ticker, group, asFloat row.count * asFloat row.priceDollars⟩]
    lastAttemptMs :=
      g.lastAttemptMs.insert key (max ((g.lastAttemptMs.lookup key).getD 0) row.requestedAtMs)
    correlationGroupByTicker := learnGroup g.correlationGroupByTicker row.ticker group
    fills := g.fills ++ warmStartFill row }

/-- The gate that `warm_start` builds from the rows its query returned, in their order. -/
def warmStart (limits : RiskLimits) (rows : List FetchedOrder) : RiskGate :=
  rows.foldl warmStartRow { limits }

end RiskGate

end KalshiBot.Risk

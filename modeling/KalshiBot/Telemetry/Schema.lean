import KalshiBot.Library.PythonText

/-! # The telemetry schema

The tables and columns by name, and the jobs that travel the write queue. A row is the
dict a recorder was given, read by `row.get`: a key it lacks is `None`.
-/

namespace KalshiBot.Telemetry

open PythonText

set_option autoImplicit false

inductive Column where
  | id | createdAtMs | correlationId | clientOrderId | kalshiOrderId | ticker | correlationGroup
  | outcomeSide | count | priceDollars | timeInForce | selfTradePreventionType | postOnly | status
  | errorMessage | fillCount | remainingCount | averageFillPrice | averageFeePaid | requestedAtMs
  | submittedAtMs | acknowledgedAtMs | fillId | orderId | bookSide | countFp | yesPriceDollars
  | feeCost | isTaker | exchangeIndex | postPositionFp | source | filledAtMs | recordedAtMs
  | yesBidDollars | yesAskDollars | noBidDollars | noAskDollars | volume | openInterest
  | observedAtMs | stage | startedAtMs | endedAtMs | durationMs | metadataJson | asset | exchange
  | price | fairValueIndex | marketTicker | shouldFire | direction | modelProbability | kalshiPrice
  | fee | edge | tsMs | process | pid | beatAtMs | queueDepth | droppedRows | balanceDollars
  | portfolioValue | totalRealizedPnlDollars | totalNetRealizedPnlDollars | totalFeesPaidDollars
  | totalMarketExposureDollars | openPositionCount | snapshotAtMs
  deriving DecidableEq

/-- The keys of `_TABLE_COLUMNS`. -/
inductive Table where
  | ordersFired | fills | marketSnapshots | latencyEvents | indexObservations | decisionResults
  | heartbeats | accountSnapshots
  deriving DecidableEq

/-- `_TABLE_COLUMNS`. -/
def tableColumns : Table → List Column
  | .ordersFired =>
    [.correlationId, .clientOrderId, .kalshiOrderId, .ticker, .correlationGroup, .outcomeSide, .count,
      .priceDollars, .timeInForce, .selfTradePreventionType, .postOnly, .status, .errorMessage,
      .fillCount, .remainingCount, .averageFillPrice, .averageFeePaid, .requestedAtMs,
      .submittedAtMs, .acknowledgedAtMs]
  | .fills =>
    [.fillId, .orderId, .clientOrderId, .ticker, .outcomeSide, .bookSide, .countFp, .yesPriceDollars,
      .feeCost, .isTaker, .exchangeIndex, .postPositionFp, .source, .filledAtMs, .recordedAtMs]
  | .marketSnapshots =>
    [.correlationId, .ticker, .yesBidDollars, .yesAskDollars, .noBidDollars, .noAskDollars, .volume,
      .openInterest, .source, .observedAtMs]
  | .latencyEvents =>
    [.correlationId, .stage, .startedAtMs, .endedAtMs, .durationMs, .metadataJson]
  | .indexObservations =>
    [.correlationId, .asset, .exchange, .price, .fairValueIndex, .observedAtMs]
  | .decisionResults =>
    [.correlationId, .marketTicker, .asset, .shouldFire, .direction, .modelProbability, .kalshiPrice,
      .fee, .edge, .tsMs]
  | .heartbeats => [.process, .pid, .startedAtMs, .beatAtMs, .queueDepth, .droppedRows]
  | .accountSnapshots =>
    [.balanceDollars, .portfolioValue, .totalRealizedPnlDollars, .totalNetRealizedPnlDollars,
      .totalFeesPaidDollars, .totalMarketExposureDollars, .openPositionCount, .snapshotAtMs]

/-- The table name a job carries: a table, or the pseudo-table of an order's final state. -/
inductive JobTable where
  | insertInto (table : Table)
  | orderResolution
  deriving DecidableEq

def JobTable.target : JobTable → Table
  | .insertInto table => table
  | .orderResolution => .ordersFired

def undroppableTables : List JobTable :=
  [.insertInto .ordersFired, .orderResolution, .insertInto .fills]

abbrev Row := Column → PyValue

def rowOf (items : List (Column × PyValue)) : Row := fun column =>
  (items.lookup column).getD .null

structure WriteJob where
  table : JobTable
  row : Row

end KalshiBot.Telemetry

import KalshiBot.Library.SqliteScripts
import KalshiBot.Telemetry.Schema

/-! # Opening the telemetry database

The statements of `schema.sql` and of the migrations, and how `initialize` runs them.
`executescript` commits what is pending, then runs its statements each on its own.
-/

namespace KalshiBot.Telemetry

open Sqlite

set_option autoImplicit false

inductive TableName where
  | of (table : Table)
  | correlations
  | latencyEventsNew
  deriving DecidableEq

def latencyColumns : List Column :=
  [.id, .correlationId, .stage, .startedAtMs, .endedAtMs, .durationMs, .metadataJson, .createdAtMs]

/-- The columns `schema.sql` creates a table with, and those of the rebuild of `latency_events`. -/
def schemaColumns : TableName → List Column
  | .correlations => [.correlationId, .createdAtMs]
  | .latencyEventsNew | .of .latencyEvents => latencyColumns
  | .of .ordersFired =>
    [.id, .correlationId, .clientOrderId, .kalshiOrderId, .ticker, .correlationGroup, .outcomeSide,
      .count, .priceDollars, .timeInForce, .selfTradePreventionType, .postOnly, .status,
      .errorMessage, .fillCount, .remainingCount, .averageFillPrice, .averageFeePaid, .requestedAtMs,
      .submittedAtMs, .acknowledgedAtMs, .createdAtMs]
  | .of .fills =>
    [.id, .fillId, .orderId, .clientOrderId, .ticker, .outcomeSide, .bookSide, .countFp,
      .yesPriceDollars, .feeCost, .isTaker, .exchangeIndex, .postPositionFp, .source, .filledAtMs,
      .recordedAtMs, .createdAtMs]
  | .of .marketSnapshots =>
    [.id, .correlationId, .ticker, .yesBidDollars, .yesAskDollars, .noBidDollars, .noAskDollars,
      .volume, .openInterest, .source, .observedAtMs, .createdAtMs]
  | .of .indexObservations =>
    [.id, .correlationId, .asset, .exchange, .price, .fairValueIndex, .observedAtMs, .createdAtMs]
  | .of .decisionResults =>
    [.id, .correlationId, .marketTicker, .asset, .shouldFire, .direction, .modelProbability,
      .kalshiPrice, .fee, .edge, .tsMs, .createdAtMs]
  | .of .heartbeats => [.process, .pid, .startedAtMs, .beatAtMs, .queueDepth, .droppedRows]
  | .of .accountSnapshots =>
    [.id, .balanceDollars, .portfolioValue, .totalRealizedPnlDollars, .totalFeesPaidDollars,
      .totalNetRealizedPnlDollars, .totalMarketExposureDollars, .openPositionCount, .snapshotAtMs,
      .createdAtMs]

def indexes : TableName → List (List Column)
  | .of .ordersFired => [[.ticker], [.status], [.requestedAtMs], [.correlationId]]
  | .of .marketSnapshots => [[.ticker], [.observedAtMs], [.ticker, .observedAtMs]]
  | .of .latencyEvents => [[.stage], [.correlationId], [.startedAtMs]]
  | .of .indexObservations => [[.asset], [.observedAtMs], [.asset, .observedAtMs]]
  | .of .decisionResults => [[.marketTicker], [.asset], [.shouldFire], [.tsMs]]
  | .of .accountSnapshots => [[.snapshotAtMs]]
  | .of .fills => [[.orderId], [.ticker], [.source]]
  | .correlations | .latencyEventsNew | .of .heartbeats => []

def createWithIndexes (name : TableName) : List (Statement TableName Column) :=
  .createTableIfNotExists name (schemaColumns name) ::
    (indexes name).map (.createIndexIfNotExists name)

def schemaTables : List TableName :=
  [.correlations, .of .ordersFired, .of .marketSnapshots, .of .latencyEvents, .of .indexObservations,
    .of .decisionResults, .of .heartbeats, .of .accountSnapshots, .of .fills]

def schemaSql : List (Statement TableName Column) :=
  .pragma :: schemaTables.flatMap createWithIndexes

abbrev Steps := List (Step TableName Column)

def executescript (script : List (Statement TableName Column)) : Steps := .commit :: script.map .run

def dropLatencyStageCheck : Steps :=
  executescript
    ([.createTable .latencyEventsNew latencyColumns,
      .copyRows (.of .latencyEvents) .latencyEventsNew latencyColumns,
      .dropTable (.of .latencyEvents),
      .renameTable .latencyEventsNew (.of .latencyEvents)] ++
        (indexes (.of .latencyEvents)).map (.createIndexIfNotExists (.of .latencyEvents)))

def addOrderFillColumns : Steps :=
  executescript
    [.addColumn (.of .ordersFired) .fillCount, .addColumn (.of .ordersFired) .remainingCount,
      .addColumn (.of .ordersFired) .averageFillPrice, .addColumn (.of .ordersFired) .averageFeePaid]

def addOrderCorrelationGroupColumn : Steps :=
  [.run (.addColumn (.of .ordersFired) .correlationGroup)]

def addAccountSnapshotNetPnlColumn : Steps :=
  [.run (.ifTable (.of .accountSnapshots)
    (.addColumn (.of .accountSnapshots) .totalNetRealizedPnlDollars))]

def addOrderPostOnlyColumn : Steps := [.run (.addColumn (.of .ordersFired) .postOnly)]

def createFillsTable : Steps := (createWithIndexes (.of .fills)).map .run

/-- `_MIGRATIONS`. -/
def migrations : List Steps :=
  [dropLatencyStageCheck, addOrderFillColumns, addOrderCorrelationGroupColumn,
    addAccountSnapshotNetPnlColumn, addOrderPostOnlyColumn, createFillsTable]

def schemaVersion : ℕ := migrations.length

def applyMigration (migration : Steps) (version : ℕ) : Steps :=
  .begin :: migration ++ [.run (.setUserVersion version), .commit]

def pendingMigrations (current : ℕ) : Steps :=
  ((migrations.drop current).zipIdx (current + 1)).flatMap fun (migration, version) =>
    applyMigration migration version

/-- The pragmas around the migrations turn `foreign_keys` off and on again. -/
def applyMigrations (current : ℕ) : Steps :=
  if schemaVersion ≤ current then []
  else .run .pragma :: pendingMigrations current ++ [.run .pragma]

/-- The first pragmas set `journal_mode` and `busy_timeout`. -/
def initializeSteps (hasTables : Bool) (current : ℕ) : Steps :=
  [.run .pragma, .run .pragma] ++
    (if hasTables then applyMigrations current ++ executescript schemaSql
      else executescript schemaSql ++ [.run (.setUserVersion schemaVersion)]) ++ [.commit]

abbrev TelemetryFile := Database TableName Column

def hasTables (db : TelemetryFile) : Bool := (db.tables (.of .latencyEvents)).isSome

/-- The database after `initialize`, and whether it has not raised. -/
def initializeDb (db : TelemetryFile) : TelemetryFile × Bool :=
  let (c, finished) := runSteps (initializeSteps (hasTables db) db.userVersion) { committed := db }
  (c.committed, finished)

/-- What is committed when `initialize` is cut off after these of its steps. -/
def interrupted (db : TelemetryFile) (completed : Steps) : TelemetryFile :=
  (runSteps completed { committed := db }).1.committed

end KalshiBot.Telemetry

import KalshiBot.Library.Sqlite
import KalshiBot.Library.Transactions
import KalshiBot.Telemetry.Schema

/-! # What the writer thread does to the tables

The inserts of `_insert` under the constraints of `schema.sql`. SQLite's reading of a text
as a number, `CAST(… AS REAL)`, is a parameter. The columns that SQLite or the clock
fills in, `id` and `created_at_ms`, are no part of a row here.
-/

namespace KalshiBot.Telemetry

open PythonText Sqlite

set_option autoImplicit false

abbrev InRange (i : ℤ) : Prop := -2 ^ 63 ≤ i ∧ i < 2 ^ 63

/-- The value bound for a Python one; `none` is the error for a type SQLite has no value for,
or an integer of more than 64 bits. -/
def bindValue : PyValue → Option Value
  | .null => some .null
  | .bool b => some (.integer (if b then 1 else 0))
  | .int i => if InRange i then some (.integer i) else none
  | .float q => some (.real q)
  | .str s => some (.text s)
  | .list _ | .dict _ => none

def castReal (castText : String → ℚ) : Value → Option ℚ
  | .null => none
  | .integer i => some i
  | .real q => some q
  | .text s => some (castText s)

inductive Check where
  | oneOf (values : List Value)
  | positive
  | betweenZeroAndOne

/-- A check is passed unless it is false: null passes every one. -/
def Check.passes (castText : String → ℚ) (value : Value) : Check → Bool
  | oneOf values => value = .null || value ∈ values
  | positive => (castReal castText value).all fun q => 0 < q
  | betweenZeroAndOne => (castReal castText value).all fun q => 0 < q && q < 1

def oneOfTexts (texts : List String) : Check := .oneOf (texts.map .text)

def zeroOrOne : Check := .oneOf [.integer 0, .integer 1]

def notNull : Table → List Column
  | .ordersFired =>
    [.correlationId, .clientOrderId, .ticker, .outcomeSide, .count, .priceDollars, .timeInForce,
      .selfTradePreventionType, .status, .requestedAtMs]
  | .fills =>
    [.fillId, .orderId, .ticker, .outcomeSide, .countFp, .yesPriceDollars, .source, .recordedAtMs]
  | .marketSnapshots => [.correlationId, .ticker, .source, .observedAtMs]
  | .latencyEvents => [.correlationId, .stage, .startedAtMs, .endedAtMs, .durationMs]
  | .indexObservations => [.correlationId, .asset, .exchange, .price, .observedAtMs]
  | .decisionResults =>
    [.correlationId, .marketTicker, .asset, .shouldFire, .direction, .modelProbability, .kalshiPrice,
      .fee, .edge, .tsMs]
  | .heartbeats => [.pid, .startedAtMs, .beatAtMs, .queueDepth, .droppedRows]
  | .accountSnapshots =>
    [.balanceDollars, .portfolioValue, .totalRealizedPnlDollars, .totalFeesPaidDollars,
      .totalMarketExposureDollars, .openPositionCount, .snapshotAtMs]

def checks : Table → List (Column × Check)
  | .ordersFired =>
    [(.outcomeSide, oneOfTexts ["yes", "no"]), (.count, .positive),
      (.priceDollars, .betweenZeroAndOne),
      (.timeInForce, oneOfTexts ["fill_or_kill", "good_till_canceled", "immediate_or_cancel"]),
      (.selfTradePreventionType, oneOfTexts ["taker_at_cross", "maker"]), (.postOnly, zeroOrOne),
      (.status, oneOfTexts
        ["pending", "submitted", "accepted", "rejected", "filled", "canceled", "error"])]
  | .fills =>
    [(.outcomeSide, oneOfTexts ["yes", "no"]), (.bookSide, oneOfTexts ["bid", "ask"]),
      (.isTaker, zeroOrOne), (.source, oneOfTexts ["ws", "rest"])]
  | .marketSnapshots => [(.source, oneOfTexts ["poll", "ws"])]
  | .decisionResults => [(.shouldFire, zeroOrOne), (.direction, oneOfTexts ["yes", "no"])]
  | .latencyEvents | .indexObservations | .heartbeats | .accountSnapshots => []

def uniqueColumn : Table → Option Column
  | .ordersFired => some .clientOrderId
  | .fills => some .fillId
  | .heartbeats => some .process
  | _ => none

def constraints (castText : String → ℚ) (table : Table) : Constraints Column where
  unique := uniqueColumn table
  admits row :=
    (notNull table).all (fun c => row c ≠ .null) &&
      (checks table).all fun (c, check) => check.passes castText (row c)

def correlationConstraints : Constraints Column where
  unique := some .correlationId
  admits _ := true

/-- The tables' rows, those of `correlations` apart. -/
structure Store where
  correlations : List (Sqlite.Row Column)
  rows : Table → List (Sqlite.Row Column)

def emptyStore : Store := ⟨[], fun _ => []⟩

def bindRow (columns : List Column) (row : Row) : Option (Sqlite.Row Column) :=
  if columns.all fun c => (bindValue (row c)).isSome then
    some fun c => if c ∈ columns then (bindValue (row c)).getD .null else .null
  else none

/-- The `INSERT OR IGNORE INTO correlations` in front of every insert. -/
def insertCorrelation (row : Row) (s : Store) : Option Store :=
  match row .correlationId with
  | .null => some s
  | value => (bindValue value).map fun v =>
    { s with
      correlations := insertOrIgnore correlationConstraints s.correlations
        fun c => if c = .correlationId then v else .null }

/-- The correlation a row refers to exists, if its table refers to one. -/
def referenceHolds (table : Table) (s : Store) (row : Sqlite.Row Column) : Bool :=
  .correlationId ∉ tableColumns table || row .correlationId = .null ||
    s.correlations.any fun other => other .correlationId = row .correlationId

def updatable : List Column :=
  (tableColumns .ordersFired).filter fun c => c ∉ [Column.clientOrderId, Column.requestedAtMs]

/-- The correlation's insert, then the statement that writes the row bound to its table. -/
def execute (table : Table)
    (statement : List (Sqlite.Row Column) → Sqlite.Row Column → Option (List (Sqlite.Row Column)))
    (s : Store) (row : Row) : Option Store := do
  let s ← insertCorrelation row s
  let bound ← bindRow (tableColumns table) row
  let rows ← statement (s.rows table) bound
  if referenceHolds table s bound then some { s with rows := Function.update s.rows table rows }
  else none

def upsertOrder (castText : String → ℚ) (s : Store) (row : Row) : Option Store :=
  execute .ordersFired (upsert (constraints castText .ordersFired) updatable) s row

def insertVerb (castText : String → ℚ) (table : Table) (rows : List (Sqlite.Row Column))
    (row : Sqlite.Row Column) : Option (List (Sqlite.Row Column)) :=
  match table with
  | .heartbeats => insertOrReplace (constraints castText table) rows row
  | .fills => some (insertOrIgnore (constraints castText table) rows row)
  | _ => insert (constraints castText table) rows row

/-- `_insert`; `none` is the `sqlite3.Error` it raises. -/
def insertJob (castText : String → ℚ) (s : Store) (job : WriteJob) : Option Store :=
  match job.table with
  | .orderResolution => upsertOrder castText s job.row
  | .insertInto table => execute table (insertVerb castText table) s job.row

theorem eq_of_bindRow {columns : List Column} {row : Row} {bound : Sqlite.Row Column}
    (h : bindRow columns row = some bound) :
    (∀ c ∈ columns, bindValue (row c) = some (bound c)) ∧ ∀ c ∉ columns, bound c = .null := by
  unfold bindRow at h
  split at h
  next hBinds =>
    cases h
    refine ⟨fun c hMem => ?_, fun c hNot => if_neg hNot⟩
    obtain ⟨v, hValue⟩ := Option.isSome_iff_exists.mp (List.all_eq_true.mp hBinds c hMem)
    simp only [if_pos hMem, hValue, Option.getD_some]
  · cases h

theorem bindRow_of_binds {columns : List Column} {row : Row}
    (h : ∀ c ∈ columns, (bindValue (row c)).isSome) : ∃ bound, bindRow columns row = some bound :=
  ⟨_, if_pos (List.all_eq_true.mpr h)⟩

theorem rows_insertCorrelation {row : Row} {s s' : Store} (h : insertCorrelation row s = some s') :
    s'.rows = s.rows := by
  unfold insertCorrelation at h
  split at h
  · cases h
    rfl
  · obtain ⟨v, -, rfl⟩ := Option.map_eq_some_iff.mp h
    rfl

theorem bindValue_ne_null {value : PyValue} {v : Value} (h : bindValue value = some v)
    (hValue : value ≠ .null) : v ≠ .null := by
  rintro rfl
  cases value with
  | null => exact hValue rfl
  | int i =>
    rw [bindValue] at h
    split at h <;> cases h
  | bool | float | str | list | dict => cases h

/-- The insert into `correlations` comes first, so no reference can fail. -/
theorem referenceHolds_insertCorrelation {table : Table} {row : Row} {s s' : Store}
    {bound : Sqlite.Row Column} (h : insertCorrelation row s = some s')
    (hBound : bindRow (tableColumns table) row = some bound) : referenceHolds table s' bound := by
  unfold referenceHolds
  by_cases hMem : Column.correlationId ∈ tableColumns table
  · have hValue := (eq_of_bindRow hBound).1 _ hMem
    unfold insertCorrelation at h
    split at h
    next hNull =>
      rw [hNull] at hValue
      simp [← Option.some.inj hValue]
    next hNull =>
      obtain ⟨v, hBind, rfl⟩ := Option.map_eq_some_iff.mp h
      obtain rfl : v = bound .correlationId := Option.some.inj (hBind.symm.trans hValue)
      let correlation : Sqlite.Row Column := fun c =>
        if c = .correlationId then bound .correlationId else .null
      have hPresent : rowsWith .correlationId (correlation .correlationId)
          (insertOrIgnore correlationConstraints s.correlations correlation) ≠ [] :=
        rowsWith_insertOrIgnore_ne_nil rfl (bindValue_ne_null hBind hNull) rfl
      obtain ⟨other, hOther⟩ := List.exists_mem_of_ne_nil _ hPresent
      obtain ⟨hIn, hSame⟩ := List.mem_filter.mp hOther
      simp only [Bool.or_eq_true]
      exact .inr (List.any_eq_true.mpr ⟨other, hIn, hSame⟩)
  · simp [hMem]

/-- The constraints look at one column at a time, so two rows they admit mix. -/
theorem admits_overwrite (castText : String → ℚ) (table : Table) (columns : List Column)
    {row other : Sqlite.Row Column} (hRow : (constraints castText table).admits row)
    (hOther : (constraints castText table).admits other) :
    (constraints castText table).admits (overwrite columns row other) := by
  simp only [constraints, Bool.and_eq_true, List.all_eq_true] at hRow hOther ⊢
  refine ⟨fun c hMem => ?_, fun check hMem => ?_⟩
  · rw [overwrite]
    split
    · exact hRow.1 c hMem
    · exact hOther.1 c hMem
  · rw [overwrite]
    split
    · exact hRow.2 check hMem
    · exact hOther.2 check hMem

theorem execute_eq_some {table : Table}
    {statement : List (Sqlite.Row Column) → Sqlite.Row Column → Option (List (Sqlite.Row Column))}
    {s s' : Store} {row : Row} (h : execute table statement s row = some s') :
    ∃ bound, bindRow (tableColumns table) row = some bound ∧
      statement (s.rows table) bound = some (s'.rows table) ∧
        ∀ other, other ≠ table → s'.rows other = s.rows other := by
  simp only [execute, Option.bind_eq_bind, Option.bind_eq_some_iff] at h
  obtain ⟨mid, hMid, bound, hBound, rows, hRows, hLast⟩ := h
  have hSame := rows_insertCorrelation hMid
  rw [hSame] at hRows hLast
  split at hLast
  · cases hLast
    refine ⟨bound, hBound, hRows.trans (congrArg some ?_), fun other hOther => ?_⟩
    · exact (Function.update_self table rows s.rows).symm
    · exact Function.update_of_ne hOther rows s.rows
  · cases hLast

theorem execute_of_statement {table : Table}
    {statement : List (Sqlite.Row Column) → Sqlite.Row Column → Option (List (Sqlite.Row Column))}
    {s : Store} {row : Row} {bound : Sqlite.Row Column} {rows : List (Sqlite.Row Column)}
    (hColumn : .correlationId ∈ tableColumns table)
    (hBound : bindRow (tableColumns table) row = some bound)
    (hRows : statement (s.rows table) bound = some rows) :
    ∃ s', execute table statement s row = some s' ∧ s'.rows table = rows := by
  have hCorrelation : ∃ mid, insertCorrelation row s = some mid := by
    unfold insertCorrelation
    split
    · exact ⟨s, rfl⟩
    · rw [(eq_of_bindRow hBound).1 _ hColumn]
      exact ⟨_, rfl⟩
  obtain ⟨mid, hMid⟩ := hCorrelation
  refine ⟨{ mid with rows := Function.update mid.rows table rows }, ?_,
    Function.update_self table rows mid.rows⟩
  have hHolds := referenceHolds_insertCorrelation hMid hBound
  simp [execute, hMid, hBound, rows_insertCorrelation hMid, hRows, hHolds]

end KalshiBot.Telemetry

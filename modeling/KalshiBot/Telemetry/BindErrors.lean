import KalshiBot.Library.RaisingTransactions
import KalshiBot.Telemetry.Rows

/-! # What the driver raises

`sqlite3` binds the values of a statement one after another, and the first that it cannot bind
raises: an `OverflowError` or a `UnicodeEncodeError` is no `sqlite3.Error`. A value that is bound
is stored as the affinity of its column has it.
-/

namespace KalshiBot.Telemetry

open PythonText Sqlite

set_option autoImplicit false

inductive WriteError where
  | sqliteError
  | overflowError
  | unicodeEncodeError
  deriving DecidableEq

/-- `except sqlite3.Error`. -/
def WriteError.caught : WriteError → Bool
  | sqliteError => true
  | overflowError | unicodeEncodeError => false

/-- What SQLite and its driver make of values: a text read as a number, whether a text has a
UTF-8 form, and the value that a column stores. -/
structure Driver where
  castText : String → ℚ
  encodes : String → Bool
  affinity : Column → Value → Value

/-- The statement that writes a row, the correlation's apart. -/
def jobStatement (castText : String → ℚ) :
    JobTable → List (Sqlite.Row Column) → Sqlite.Row Column → Option (List (Sqlite.Row Column))
  | .orderResolution => upsert (constraints castText .ordersFired) updatable
  | .insertInto table => insertVerb castText table

theorem insertJob_eq (castText : String → ℚ) (s : Store) (job : WriteJob) :
    insertJob castText s job = execute job.table.target (jobStatement castText job.table) s job.row := by
  obtain ⟨table, row⟩ := job
  cases table <;> rfl

/-- The statement on what was bound; a constraint that fails is a `sqlite3.Error`. -/
def writeBound (table : Table)
    (statement : List (Sqlite.Row Column) → Sqlite.Row Column → Option (List (Sqlite.Row Column)))
    (s : Store) (bound : Sqlite.Row Column) : Except WriteError Store :=
  match statement (s.rows table) bound with
  | none => .error .sqliteError
  | some rows =>
    if referenceHolds table s bound then .ok { s with rows := Function.update s.rows table rows }
    else .error .sqliteError

theorem writeBound_eq_error {table : Table}
    {statement : List (Sqlite.Row Column) → Sqlite.Row Column → Option (List (Sqlite.Row Column))}
    {s : Store} {bound : Sqlite.Row Column} {error : WriteError}
    (h : writeBound table statement s bound = .error error) : error = .sqliteError := by
  unfold writeBound at h
  split at h
  · cases h
    rfl
  · split at h
    · cases h
    · cases h
      rfl

theorem writeBound_toOption (table : Table)
    (statement : List (Sqlite.Row Column) → Sqlite.Row Column → Option (List (Sqlite.Row Column)))
    (s : Store) (bound : Sqlite.Row Column) : (writeBound table statement s bound).toOption =
      (statement (s.rows table) bound).bind fun rows =>
        if referenceHolds table s bound then some { s with rows := Function.update s.rows table rows }
        else none := by
  rw [writeBound]
  cases statement (s.rows table) bound with
  | none => rfl
  | some rows =>
    by_cases hHolds : referenceHolds table s bound
    · simp only [if_pos hHolds]
      rfl
    · simp only [if_neg hHolds]
      rfl

namespace Driver

variable (driver : Driver)

def bindError : PyValue → Option WriteError
  | .int i => if InRange i then none else some .overflowError
  | .str s => if driver.encodes s then none else some .unicodeEncodeError
  | .list _ | .dict _ => some .sqliteError
  | .null | .bool _ | .float _ => none

def stored (column : Column) (value : PyValue) : Value :=
  driver.affinity column ((bindValue value).getD .null)

def bindRow (columns : List Column) (row : Row) : Except WriteError (Sqlite.Row Column) :=
  match columns.findSome? fun column => driver.bindError (row column) with
  | some error => .error error
  | none => .ok fun column => if column ∈ columns then driver.stored column (row column) else .null

def insertCorrelation (row : Row) (s : Store) : Except WriteError Store :=
  match row .correlationId with
  | .null => .ok s
  | value =>
    match driver.bindError value with
    | some error => .error error
    | none => .ok
      { s with
        correlations := insertOrIgnore correlationConstraints s.correlations fun column =>
          if column = .correlationId then driver.stored .correlationId value else .null }

def execute (table : Table)
    (statement : List (Sqlite.Row Column) → Sqlite.Row Column → Option (List (Sqlite.Row Column)))
    (s : Store) (row : Row) : Except WriteError Store := do
  let s ← driver.insertCorrelation row s
  let bound ← driver.bindRow (tableColumns table) row
  writeBound table statement s bound

/-- `_insert`. -/
def insert (s : Store) (job : WriteJob) : Except WriteError Store :=
  driver.execute job.table.target (jobStatement driver.castText job.table) s job.row

/-- The error of the first value that cannot be bound. -/
def jobError (job : WriteJob) : Option WriteError :=
  (.correlationId :: tableColumns job.table.target).findSome? fun column =>
    driver.bindError (job.row column)

def escaping (job : WriteJob) : Option WriteError :=
  (driver.jobError job).filter fun error => !error.caught

variable {driver} {columns : List Column} {row : Row} {s : Store} {job : WriteJob}
  {error : WriteError}

theorem bindRow_of_error
    (h : (columns.findSome? fun column => driver.bindError (row column)) = some error) :
    driver.bindRow columns row = .error error := by
  rw [bindRow, h]

theorem bindRow_of_bound
    (h : (columns.findSome? fun column => driver.bindError (row column)) = none) :
    driver.bindRow columns row =
      .ok fun column => if column ∈ columns then driver.stored column (row column) else .null := by
  rw [bindRow, h]

theorem insertCorrelation_of_error (h : driver.bindError (row .correlationId) = some error) :
    driver.insertCorrelation row s = .error error := by
  unfold insertCorrelation
  split
  next hNull =>
    rw [hNull] at h
    cases h
  · rw [h]

theorem insertCorrelation_of_bound (h : driver.bindError (row .correlationId) = none) :
    ∃ s', driver.insertCorrelation row s = .ok s' ∧ s'.rows = s.rows := by
  unfold insertCorrelation
  split
  · exact ⟨s, rfl, rfl⟩
  · rw [h]
    exact ⟨_, rfl, rfl⟩

/-- The correlation's insert binds first, and then the columns of the row in their order. -/
theorem insert_of_jobError (h : driver.jobError job = some error) :
    driver.insert s job = .error error := by
  rw [insert, execute]
  rw [jobError, List.findSome?_cons] at h
  cases hFirst : driver.bindError (job.row .correlationId) with
  | some first =>
    rw [hFirst] at h
    cases h
    rw [insertCorrelation_of_error hFirst]
    rfl
  | none =>
    rw [hFirst] at h
    obtain ⟨s', hCorrelation, -⟩ := @insertCorrelation_of_bound driver job.row s hFirst
    rw [hCorrelation]
    change (driver.bindRow _ _ >>= _) = _
    rw [bindRow_of_error h]
    rfl

/-- Where everything can be bound, the constraints decide. -/
theorem insert_of_bound (h : driver.jobError job = none) :
    ∃ mid bound, driver.insertCorrelation job.row s = .ok mid ∧ mid.rows = s.rows ∧
      driver.bindRow (tableColumns job.table.target) job.row = .ok bound ∧
      driver.insert s job =
        writeBound job.table.target (jobStatement driver.castText job.table) mid bound := by
  rw [jobError, List.findSome?_cons] at h
  cases hFirst : driver.bindError (job.row .correlationId) with
  | some first =>
    rw [hFirst] at h
    cases h
  | none =>
    rw [hFirst] at h
    obtain ⟨mid, hCorrelation, hRows⟩ := @insertCorrelation_of_bound driver job.row s hFirst
    refine ⟨mid, _, hCorrelation, hRows, bindRow_of_bound h, ?_⟩
    rw [insert, execute, hCorrelation]
    change (driver.bindRow _ _ >>= _) = _
    rw [bindRow_of_bound h]
    rfl

theorem escapesBy : Connection.EscapesBy driver.insert WriteError.caught driver.escaping := by
  intro s job error
  rw [escaping]
  cases hJob : driver.jobError job with
  | some first =>
    rw [insert_of_jobError hJob, Option.filter_some]
    cases first <;> cases error <;> simp [WriteError.caught]
  | none =>
    obtain ⟨mid, bound, -, -, -, hInsert⟩ := @insert_of_bound driver s job hJob
    rw [Option.filter_none, hInsert]
    refine iff_of_false ?_ (Option.some_ne_none error).symm
    rintro ⟨hError, hMissed⟩
    rw [writeBound_eq_error hError] at hMissed
    cases hMissed

/-- Where every text has its UTF-8 form and columns store what they are given, this is `_insert`
with its errors all alike. -/
def plain (castText : String → ℚ) : Driver where
  castText
  encodes _ := true
  affinity _ value := value

theorem bindError_plain (castText : String → ℚ) (value : PyValue) :
    (plain castText).bindError value = none ↔ (bindValue value).isSome := by
  cases value with
  | int i =>
    rw [bindError, bindValue]
    split
    · exact iff_of_true rfl rfl
    · exact iff_of_false (Option.some_ne_none _) Bool.false_ne_true
  | null | bool | float | str => exact iff_of_true rfl rfl
  | list | dict => exact iff_of_false (Option.some_ne_none _) Bool.false_ne_true

theorem bindRow_plain (castText : String → ℚ) (columns : List Column) (row : Row) :
    ((plain castText).bindRow columns row).toOption = Telemetry.bindRow columns row := by
  rw [bindRow, Telemetry.bindRow]
  cases hError : columns.findSome? fun column => (plain castText).bindError (row column) with
  | none =>
    have hAll : columns.all fun c => (bindValue (row c)).isSome := by
      rw [List.findSome?_eq_none_iff] at hError
      refine List.all_eq_true.mpr fun c hMem => ?_
      exact (bindError_plain castText (row c)).mp (hError c hMem)
    rw [if_pos hAll]
    rfl
  | some error =>
    rw [if_neg]
    · rfl
    · intro hAll
      have hNone : columns.findSome? (fun column => (plain castText).bindError (row column)) = none :=
        List.findSome?_eq_none_iff.mpr fun c hMem =>
          (bindError_plain castText (row c)).mpr (List.all_eq_true.mp hAll c hMem)
      cases hError.symm.trans hNone

theorem insertCorrelation_plain (castText : String → ℚ) (row : Row) (s : Store) :
    ((plain castText).insertCorrelation row s).toOption = Telemetry.insertCorrelation row s := by
  unfold insertCorrelation Telemetry.insertCorrelation
  generalize row .correlationId = value
  cases value with
  | int i =>
    by_cases hRange : InRange i
    · simp only [bindError, bindValue, stored, plain, if_pos hRange]
      rfl
    · simp only [bindError, bindValue, if_neg hRange]
      rfl
  | null | bool | float | str | list | dict => rfl

theorem accepting_plain (castText : String → ℚ) :
    Connection.accepting (plain castText).insert = insertJob castText := by
  funext s job
  rw [Connection.accepting, insertJob_eq, insert, execute, Telemetry.execute,
    ← insertCorrelation_plain castText]
  cases (plain castText).insertCorrelation job.row s with
  | error error => rfl
  | ok mid =>
    simp only [← bindRow_plain castText]
    change ((plain castText).bindRow _ _ >>= _).toOption = _
    cases (plain castText).bindRow (tableColumns job.table.target) job.row with
    | error error => rfl
    | ok bound =>
      exact writeBound_toOption job.table.target (jobStatement castText job.table) mid bound

end Driver

end KalshiBot.Telemetry

import KalshiBot.Library.OlderRows
import KalshiBot.Telemetry.Declarations

/-! # Writing to a migrated database

What a new database lets the writer do, a migrated one does behind its old rows.
-/

namespace KalshiBot.Telemetry

open PythonText Sqlite

set_option autoImplicit false

/-- The statement of `_insert` for a table with these constraints. -/
def statementOf (k : Constraints Column) :
    JobTable → List (Sqlite.Row Column) → Sqlite.Row Column → Option (List (Sqlite.Row Column))
  | .orderResolution => upsert k updatable
  | .insertInto .heartbeats => insertOrReplace k
  | .insertInto .fills => fun rows row => some (insertOrIgnore k rows row)
  | .insertInto _ => insert k

def rowsOf (file : TelemetryFile) (name : TableName) : List (Sqlite.Row Column) :=
  ((file.tables name).map TableContent.rows).getD []

def storeOf (file : TelemetryFile) : Store where
  correlations := rowsOf file .correlations
  rows table := rowsOf file (.of table)

/-- `_insert` on the tables that there are; a column that is missing raises as well. -/
def DeclaredFile.insertJob (db : DeclaredFile) (s : Store) (job : WriteJob) : Option Store :=
  match db.file.tables (.of job.table.target), db.declared (.of job.table.target) with
  | some content, some k =>
    if tableColumns job.table.target ⊆ content.columns ∧ (db.file.tables .correlations).isSome then
      execute job.table.target (statementOf k job.table) s job.row
    else none
  | _, _ => none

/-- The rows of a table after a run, from those it had and those that the run leaves in an
empty one. -/
def mergeRows (castText : String → ℚ) (table : Table) (old rows : List (Sqlite.Row Column)) :
    List (Sqlite.Row Column) :=
  match table with
  | .fills => old ++ newcomers (constraints castText .fills) old rows
  | .heartbeats => survivors (constraints castText .heartbeats) old rows ++ rows
  | _ => old ++ rows

def mergeStores (castText : String → ℚ) (old s : Store) : Store where
  correlations := old.correlations ++ newcomers correlationConstraints old.correlations s.correlations
  rows table := mergeRows castText table (old.rows table) (s.rows table)

/-- The job writes an order under the `client_order_id` of an old one. -/
def ReusesOrderId (old : Store) (job : WriteJob) : Prop :=
  job.table.target = .ordersFired ∧
    ∃ row ∈ old.rows .ordersFired, bindValue (job.row .clientOrderId) = some (row .clientOrderId)

section Statements

variable {castText : String → ℚ} {k : Constraints Column} {old rows rows' : List (Sqlite.Row Column)}
  {row : Sqlite.Row Column}

theorem withoutPostOnlyCheck_relaxes (castText : String → ℚ) :
    (withoutPostOnlyCheck castText).Relaxes (constraints castText .ordersFired) where
  unique := rfl
  admits row h := by
    obtain ⟨hNotNull, hChecks⟩ := Bool.and_eq_true_iff.mp h
    refine Bool.and_eq_true_iff.mpr ⟨hNotNull, List.all_eq_true.mpr fun check hMem => ?_⟩
    exact List.all_eq_true.mp hChecks check (List.mem_of_mem_filter hMem)

theorem Declares.relaxes {table : Table} (h : Declares castText (.of table) k) :
    k.Relaxes (constraints castText table) := by
  cases h with
  | created => exact Constraints.relaxes_refl _
  | unchecked => exact withoutPostOnlyCheck_relaxes castText

theorem Declares.eq_of_ne {table : Table} (h : Declares castText (.of table) k)
    (hTable : table ≠ .ordersFired) : k = constraints castText table := by
  cases h with
  | created => rfl
  | unchecked => exact absurd rfl hTable

/-- The statement of a job does behind the old rows what it does to an empty table. -/
theorem statementOf_merge {target : JobTable} (h : Declares castText (.of target.target) k)
    (hFree : target.target = .ordersFired →
      ¬old.any ((constraints castText target.target).conflict row))
    (hRun : statementOf (constraints castText target.target) target rows row = some rows') :
    statementOf k target (mergeRows castText target.target old rows) row =
      some (mergeRows castText target.target old rows') := by
  cases target with
  | orderResolution => exact upsert_of_run h.relaxes (hFree rfl) hRun
  | insertInto table =>
    cases table with
    | ordersFired => exact insert_of_run h.relaxes (hFree rfl) hRun
    | heartbeats =>
      obtain rfl := h.eq_of_ne nofun
      exact insertOrReplace_older.trans (congrArg (Option.map _) hRun)
    | fills =>
      obtain rfl := h.eq_of_ne nofun
      obtain rfl := Option.some.inj hRun
      exact congrArg some insertOrIgnore_older
    | marketSnapshots | latencyEvents | indexObservations | decisionResults | accountSnapshots =>
      exact insert_of_run h.relaxes (not_any_conflict rfl) hRun

end Statements

section Jobs

variable {castText : String → ℚ} {old s s' : Store} {row : Row}

theorem insertCorrelation_merge (h : insertCorrelation row s = some s') :
    insertCorrelation row (mergeStores castText old s) = some (mergeStores castText old s') := by
  unfold insertCorrelation at h ⊢
  split at h
  · cases h
    rfl
  · obtain ⟨v, hBind, rfl⟩ := Option.map_eq_some_iff.mp h
    rw [hBind, Option.map_some]
    refine congrArg some ?_
    simp only [mergeStores, insertOrIgnore_older]

theorem mergeStores_update (table : Table) (rows : List (Sqlite.Row Column)) :
    mergeStores castText old { s with rows := Function.update s.rows table rows } =
      { mergeStores castText old s with
        rows := Function.update (mergeStores castText old s).rows table
          (mergeRows castText table (old.rows table) rows) } := by
  refine congrArg (Store.mk _) (funext fun other => ?_)
  simp only
  obtain rfl | hOther := eq_or_ne other table
  · rw [Function.update_self, Function.update_self]
  · rw [Function.update_of_ne hOther, Function.update_of_ne hOther]
    rfl

theorem execute_merge {table : Table}
    {statement statement' : List (Sqlite.Row Column) → Sqlite.Row Column →
      Option (List (Sqlite.Row Column))}
    (hStatement : ∀ bound, bindRow (tableColumns table) row = some bound → ∀ rows rows',
      statement rows bound = some rows' →
        statement' (mergeRows castText table (old.rows table) rows) bound =
          some (mergeRows castText table (old.rows table) rows'))
    (h : execute table statement s row = some s') :
    execute table statement' (mergeStores castText old s) row =
      some (mergeStores castText old s') := by
  simp only [execute, Option.bind_eq_bind, Option.bind_eq_some_iff] at h
  obtain ⟨mid, hCorrelation, bound, hBound, rows, hRows, hLast⟩ := h
  split at hLast
  · cases hLast
    have hMerged : insertCorrelation row (mergeStores castText old s) =
        some (mergeStores castText old mid) := insertCorrelation_merge hCorrelation
    have hHolds := referenceHolds_insertCorrelation hMerged hBound
    have hLater := hStatement bound hBound _ _ hRows
    simp only [execute, Option.bind_eq_bind, hMerged, Option.bind_some, hBound]
    change (statement' (mergeRows castText table (old.rows table) (mid.rows table)) bound).bind _ = _
    rw [hLater, Option.bind_some, if_pos hHolds, mergeStores_update]
  · cases hLast

end Jobs

section Opened

variable {castText : String → ℚ} {db db' fresh : DeclaredFile} {old s s' : Store} {job : WriteJob}
  {v : ℕ}

theorem insertJob_of_complete (h : Complete db.file) (job : WriteJob) :
    ∃ k, db.declared (.of job.table.target) = some k ∧ ∀ s, db.insertJob s job =
      execute job.table.target (statementOf k job.table) s job.row := by
  obtain ⟨content, hContent, hColumns⟩ := h.subset job.table.target
  obtain ⟨correlations, hCorrelations, -⟩ := h .correlations (by decide)
  obtain ⟨k, hDeclared⟩ := Option.isSome_iff_exists.mp
    ((db.inSync (.of job.table.target)).trans (by rw [hContent]; rfl))
  refine ⟨k, hDeclared, fun s => ?_⟩
  simp only [DeclaredFile.insertJob, hContent, hDeclared]
  exact if_pos ⟨hColumns, by rw [hCorrelations]; rfl⟩

theorem execute_statementOf (castText : String → ℚ) (s : Store) (job : WriteJob) :
    execute job.table.target (statementOf (constraints castText job.table.target) job.table) s
      job.row = insertJob castText s job := by
  obtain ⟨target, row⟩ := job
  obtain table | _ := target
  · cases table <;> rfl
  · rfl

/-- Where every table has today's constraints, a job does what it does in `schema.sql`. -/
theorem insertJob_of_fresh (hComplete : Complete db.file)
    (hDeclared : ∀ name k, db.declared name = some k → k = declaredFor castText name) :
    db.insertJob = insertJob castText := by
  funext s job
  obtain ⟨k, hTable, hJob⟩ := insertJob_of_complete hComplete job
  obtain rfl := hDeclared _ k hTable
  rw [hJob]
  exact execute_statementOf castText s job

theorem reuses_of_any_conflict {bound : Sqlite.Row Column} (hTarget : job.table.target = .ordersFired)
    (hBound : bindRow (tableColumns job.table.target) job.row = some bound)
    (hAny : (old.rows job.table.target).any
      ((constraints castText job.table.target).conflict bound)) : ReusesOrderId old job := by
  refine ⟨hTarget, ?_⟩
  rw [hTarget] at hBound hAny
  obtain ⟨other, hMem, hConflict⟩ := List.any_eq_true.mp hAny
  refine ⟨other, hMem, ?_⟩
  rw [(eq_of_bindRow hBound).1 .clientOrderId (by decide)]
  exact congrArg some ((conflict_iff rfl other).mp hConflict).1

theorem insertJob_merge (hComplete : Complete db.file)
    (hDeclared : ∀ name k, db.declared name = some k → Declares castText name k)
    (hFree : ¬ReusesOrderId old job) (h : insertJob castText s job = some s') :
    db.insertJob (mergeStores castText old s) job = some (mergeStores castText old s') := by
  obtain ⟨k, hTable, hJob⟩ := insertJob_of_complete hComplete job
  rw [← execute_statementOf] at h
  rw [hJob]
  refine execute_merge (fun bound hBound rows rows' hRun => ?_) h
  refine statementOf_merge (hDeclared _ k hTable) (fun hTarget hAny => hFree ?_) hRun
  exact reuses_of_any_conflict hTarget hBound hAny

theorem mergeRows_nil (table : Table) (old : List (Sqlite.Row Column)) :
    mergeRows castText table old [] = old := by
  cases table <;> simp [mergeRows, newcomers, survivors]

theorem mergeStores_nil : mergeStores castText old ⟨[], fun _ => []⟩ = old := by
  obtain ⟨correlations, rows⟩ := old
  refine congrArg₂ Store.mk ?_ (funext fun table => mergeRows_nil table (rows table))
  exact List.append_nil correlations

def SameTables (file file' : TelemetryFile) : Prop :=
  ∀ name, (file.tables name).isSome = (file'.tables name).isSome ∧
    ∀ content content', file.tables name = some content → file'.tables name = some content' →
      ∀ c, c ∈ content.columns ↔ c ∈ content'.columns

theorem sameTables_of_shape {file file' : TelemetryFile} (hShape : Shape schemaVersion file)
    (hComplete : Complete file) (hShape' : Shape schemaVersion file') (hComplete' : Complete file') :
    SameTables file file' := by
  intro name
  constructor
  · obtain rfl | hName : name = .latencyEventsNew ∨ name ∈ schemaTables := by
      obtain table | _ | _ := name
      · cases table <;> decide
      · decide
      · decide
    · rw [hShape.no_rebuild, hShape'.no_rebuild]
    · obtain ⟨content, hContent, -⟩ := hComplete name hName
      obtain ⟨content', hContent', -⟩ := hComplete' name hName
      rw [hContent, hContent']
      rfl
  · intro content content' hContent hContent' c
    rw [hShape.columns name content hContent, hShape'.columns name content' hContent']

/-- What `initialize` has made of a database, beside a new one. -/
structure Migrated (castText : String → ℚ) (db fresh db' : DeclaredFile) : Prop where
  version_eq : db'.file.userVersion = schemaVersion
  carries : Carries db.file db'.file
  sameTables : SameTables db'.file fresh.file
  writes : ∀ (jobs : List WriteJob) s, (∀ job ∈ jobs, ¬ReusesOrderId (storeOf db.file) job) →
    jobs.foldlM fresh.insertJob (storeOf fresh.file) = some s →
      jobs.foldlM db'.insertJob (storeOf db'.file) =
        some (mergeStores castText (storeOf db'.file) s)
  again : db'.initializeDb castText = some db'

theorem reuses_of_carries (hOrders : (db.file.tables (.of .ordersFired)).isSome)
    (hColumn : ∀ content, db.file.tables (.of .ordersFired) = some content →
      .clientOrderId ∈ content.columns) (hCarries : Carries db.file db'.file)
    (h : ReusesOrderId (storeOf db'.file) job) : ReusesOrderId (storeOf db.file) job := by
  obtain ⟨hTarget, row', hRow', hSame⟩ := h
  obtain ⟨content, hContent⟩ := Option.isSome_iff_exists.mp hOrders
  obtain ⟨content', hContent', -, hRows⟩ := hCarries _ content hContent
  simp only [storeOf, rowsOf, hContent', Option.map_some, Option.getD_some] at hRow'
  obtain ⟨row, hRow, hValues, -⟩ := exists_of_forall₂ hRows.flip hRow'
  refine ⟨hTarget, row, ?_, ?_⟩
  · simp only [storeOf, rowsOf, hContent, Option.map_some, Option.getD_some]
    exact hRow
  · rw [hSame, hValues _ (hColumn content hContent)]

theorem storeOf_fresh {file : TelemetryFile} (hNew : NewFile file) :
    storeOf { ensureAll file schemaTables with userVersion := schemaVersion } =
      ⟨[], fun _ => []⟩ := by
  have hRows : ∀ name, rowsOf (ensureAll file schemaTables) name = [] := by
    intro name
    rw [rowsOf, tables_ensureAll, hNew.2]
    split <;> rfl
  exact congrArg₂ Store.mk (hRows _) (funext fun table => hRows (.of table))

theorem initializeDb_migrates (castText : String → ℚ) {v : ℕ} {db : DeclaredFile}
    (hLe : v ≤ schemaVersion) (h : OfVersion castText v db) :
    ∃ fresh db', newFile.initializeDb castText = some fresh ∧
      db.initializeDb castText = some db' ∧ Migrated castText db fresh db' := by
  have hNew : NewFile newFile.file := ⟨rfl, fun _ => rfl⟩
  obtain ⟨fresh, hFresh, hFreshFile, hFreshDeclared⟩ := newFile_initializeDb castText
  obtain ⟨file, hInitialized, ⟨hShape, hCarries⟩, hComplete⟩ := initializeDb_of_shape hLe h.shape
  obtain ⟨db', hOpened, rfl, hDeclared⟩ : ∃ db', db.initializeDb castText = some db' ∧ _ :=
    DeclaredFile.initializeDb_eq_some hInitialized
  have hFreshShape : Shape schemaVersion fresh.file := hFreshFile ▸ hNew.shape
  have hFreshComplete : Complete fresh.file :=
    hFreshFile ▸ complete_ensureAll fun name _ => hNew.current name
  rw [h.shape.hasTables, h.shape.version_eq] at hDeclared
  have hDeclares : ∀ name k, db'.declared name = some k → Declares castText name k :=
    hDeclared ▸ h.declares hLe
  refine ⟨fresh, db', hFresh, hOpened, hShape.version_eq, hCarries,
    sameTables_of_shape hShape hComplete hFreshShape hFreshComplete, ?_,
    DeclaredFile.initializeDb_of_complete hShape hComplete⟩
  intro jobs s hFree hRun
  rw [insertJob_of_fresh hFreshComplete hFreshDeclared, hFreshFile, storeOf_fresh hNew] at hRun
  have hOrders : ∀ content, db.file.tables (.of .ordersFired) = some content →
      .clientOrderId ∈ content.columns := fun content hContent => by
    rw [h.shape.columns _ content hContent, mem_columnsAt]
    exact ⟨by decide, v.zero_le⟩
  have hMerged := foldlM_of_step (m := mergeStores castText (storeOf db'.file)) (g := db'.insertJob)
    (fun job hMem s s' hJob => insertJob_merge hComplete hDeclares (fun hReuses => hFree job hMem
      (reuses_of_carries (h.shape.required _ (by decide)) hOrders hCarries hReuses)) hJob) hRun
  rwa [mergeStores_nil] at hMerged

end Opened

def openAndWrite (castText : String → ℚ) (db : DeclaredFile) (jobs : List WriteJob) : Option Store :=
  (db.initializeDb castText).bind fun db' => jobs.foldlM db'.insertJob (storeOf db'.file)

def sampleCast (text : String) : ℚ := if text = "1.00" then 1 else 1 / 2

def oldLatencyEvent : Sqlite.Row Column
  | .id => .integer 1
  | .correlationId => .text "c1"
  | .stage => .text "wake_send"
  | .startedAtMs => .integer 1000
  | .endedAtMs => .integer 1001
  | .durationMs => .real (2 / 5)
  | .createdAtMs => .integer 1
  | _ => .null

/-- The `CHECK` on the stage that version 0 had. -/
def checkedStage : Constraints Column where
  unique := none
  admits row := (constraints sampleCast .latencyEvents).admits row &&
    (oneOfTexts ["ingest_fetch", "decision", "order_build", "sign", "dispatch_send", "dispatch_ack",
      "telemetry_write", "wake_send", "wake_recv"]).passes sampleCast (row .stage)

def versionZero : DeclaredFile where
  file :=
    { tables := fun
        | .of .ordersFired => some ⟨columnsAt 0 (.of .ordersFired), [oldOrder]⟩
        | .of .latencyEvents => some ⟨latencyColumns, [oldLatencyEvent]⟩
        | .correlations => some ⟨schemaColumns .correlations, [oldCorrelation]⟩
        | _ => none
      userVersion := 0 }
  declared
    | .of .ordersFired => some (withoutPostOnlyCheck sampleCast)
    | .of .latencyEvents => some checkedStage
    | .correlations => some correlationConstraints
    | _ => none
  inSync := by
    rintro (table | _ | _)
    · cases table <;> rfl
    · rfl
    · rfl

theorem versionZero_ofVersion : OfVersion sampleCast 0 versionZero where
  shape :=
    { version_eq := rfl
      required := by decide
      columns := by
        rintro (table | _ | _) content hContent c
        · cases table <;> cases hContent
          · rfl
          · cases c <;> decide
        · cases hContent
          cases c <;> decide
        · cases hContent
      no_rebuild := rfl }
  declared := by
    rintro (table | _ | _) k hDeclared
    · cases table <;> cases hDeclared
      · exact .inl .unchecked
      · exact .inr ⟨rfl, rfl⟩
    · cases hDeclared
      exact .inl (.created .correlations)
    · cases hDeclared

def orderJob (clientOrderId : String) : WriteJob where
  table := .insertInto .ordersFired
  row := rowOf
    [(.correlationId, .str "c1"), (.clientOrderId, .str clientOrderId), (.ticker, .str "T"),
      (.outcomeSide, .str "yes"), (.count, .str "1.00"), (.priceDollars, .str "0.5000"),
      (.timeInForce, .str "fill_or_kill"), (.selfTradePreventionType, .str "taker_at_cross"),
      (.postOnly, .int 0), (.status, .str "pending"), (.requestedAtMs, .int 2)]

theorem versionZero_refuses_old_order : OfVersion sampleCast 0 versionZero ∧
    (versionZero.initializeDb sampleCast).isSome ∧
      (openAndWrite sampleCast newFile [orderJob "o1"]).isSome ∧
        (openAndWrite sampleCast versionZero [orderJob "o1"]).isNone :=
  ⟨versionZero_ofVersion, by decide +kernel, by decide +kernel, by decide +kernel⟩

theorem versionZero_migrates :
    (∃ fresh db', newFile.initializeDb sampleCast = some fresh ∧
      versionZero.initializeDb sampleCast = some db' ∧
        Migrated sampleCast versionZero fresh db') ∧
      ¬ReusesOrderId (storeOf versionZero.file) (orderJob "o2") ∧
        (openAndWrite sampleCast newFile [orderJob "o2"]).isSome := by
  refine ⟨initializeDb_migrates sampleCast (Nat.zero_le _) versionZero_ofVersion, ?_,
    by decide +kernel⟩
  rintro ⟨-, row, hRow, hSame⟩
  obtain rfl := List.mem_singleton.mp hRow
  exact absurd hSame (by decide)

end KalshiBot.Telemetry

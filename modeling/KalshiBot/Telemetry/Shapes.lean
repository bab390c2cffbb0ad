import KalshiBot.Telemetry.SchemaScript
import Mathlib.Tactic.IntervalCases

/-! # The shapes of the schema versions, and what each migration makes of its own

The shape of a version is told by the version that added each column.
-/

namespace KalshiBot.Telemetry

open Sqlite

set_option autoImplicit false

def addedIn : Column → ℕ
  | .fillCount | .remainingCount | .averageFillPrice | .averageFeePaid => 2
  | .correlationGroup => 3
  | .totalNetRealizedPnlDollars => 4
  | .postOnly => 5
  | _ => 0

def columnsAt (version : ℕ) (name : TableName) : List Column :=
  (schemaColumns name).filter fun c => addedIn c ≤ version

/-- The shape of a schema version, whatever the order of its columns: the tables that every
version has, and others in the shape of that version or not at all. -/
structure Shape (version : ℕ) (db : TelemetryFile) : Prop where
  version_eq : db.userVersion = version
  required : ∀ name ∈ [TableName.correlations, .of .ordersFired, .of .latencyEvents],
    (db.tables name).isSome
  columns : ∀ name content, db.tables name = some content →
    ∀ c, c ∈ content.columns ↔ c ∈ columnsAt version name
  no_rebuild : db.tables .latencyEventsNew = none

variable {db db' : TelemetryFile} {v : ℕ}

theorem Shape.change {v' : ℕ} {name : TableName} {content : TableContent Column} (h : Shape v db)
    (hVersion : db'.userVersion = v')
    (hSame : ∀ other, other ≠ name → db'.tables other = db.tables other)
    (hOthers : ∀ other, other ≠ name → columnsAt v' other = columnsAt v other)
    (hContent : db'.tables name = some content)
    (hColumns : ∀ c, c ∈ content.columns ↔ c ∈ columnsAt v' name)
    (hName : name ≠ .latencyEventsNew) : Shape v' db' where
  version_eq := hVersion
  required other hMem := by
    by_cases hOther : other = name
    · rw [hOther, hContent]
      rfl
    · rw [hSame other hOther]
      exact h.required other hMem
  columns other otherContent hOther := by
    by_cases hEq : other = name
    · subst hEq
      obtain rfl : content = otherContent := Option.some.inj (hContent.symm.trans hOther)
      exact hColumns
    · rw [hSame other hEq] at hOther
      rw [hOthers other hEq]
      exact h.columns other otherContent hOther
  no_rebuild := by rw [hSame _ hName.symm, h.no_rebuild]

/-- The database in the shape of a version, with all the rows of an earlier state. -/
def Upgraded (version : ℕ) (db db' : TelemetryFile) : Prop := Shape version db' ∧ Carries db db'

theorem mem_columnsAt {name : TableName} {c : Column} :
    c ∈ columnsAt v name ↔ c ∈ schemaColumns name ∧ addedIn c ≤ v := by
  simp [columnsAt]

theorem columnsAt_succ {name : TableName} (h : ∀ c ∈ schemaColumns name, addedIn c ≠ v + 1) :
    columnsAt (v + 1) name = columnsAt v name := by
  refine List.filter_congr fun c hMem => decide_eq_decide.mpr ?_
  have := h c hMem
  omega

theorem addedIn_le (c : Column) : addedIn c ≤ 5 := by
  cases c <;> decide

theorem columnsAt_schemaVersion (name : TableName) : columnsAt schemaVersion name = schemaColumns name :=
  List.filter_eq_self.mpr fun c _ => decide_eq_true ((addedIn_le c).trans (by decide))

/-- New columns in one table, then the version that they belong to. -/
def addTo (table : Table) (added : List Column) (version : ℕ) : List (Statement TableName Column) :=
  added.map (.addColumn (.of table)) ++ [.setUserVersion version]

theorem upgraded_addTo {table : Table} (added : List Column) (h : Shape v db)
    (hTable : (db.tables (.of table)).isSome) (hNodup : added.Nodup)
    (hMem : ∀ c ∈ added, c ∈ schemaColumns (.of table))
    (hAdded : ∀ c ∈ schemaColumns (.of table), addedIn c = v + 1 ↔ c ∈ added)
    (hOthers : ∀ other, other ≠ .of table → ∀ c ∈ schemaColumns other, addedIn c ≠ v + 1) :
    ∃ db', (addTo table added (v + 1)).foldlM Statement.run db = some db' ∧
      Upgraded (v + 1) db db' := by
  obtain ⟨content, hContent⟩ := Option.isSome_iff_exists.mp hTable
  have hAbsent : ∀ c ∈ added, c ∉ content.columns := by
    intro c hColumn
    have hVersion := (hAdded c (hMem c hColumn)).mpr hColumn
    rw [h.columns _ _ hContent, mem_columnsAt]
    omega
  obtain ⟨content', hRun, hColumns, hCarried⟩ := run_addColumns hContent hAbsent hNodup
  let widened := db.set (.of table) (some content')
  refine ⟨{ widened with userVersion := v + 1 }, ?_, ?_, ?_⟩
  · rw [addTo, List.foldlM_append, hRun]
    rfl
  · refine h.change rfl (fun other hOther => tables_set_of_ne hOther _)
      (fun other hOther => columnsAt_succ (hOthers other hOther)) (tables_set_self db _ _)
      (fun c => ?_) nofun
    rw [hColumns, List.mem_append, h.columns _ _ hContent, mem_columnsAt, mem_columnsAt]
    constructor
    · rintro (⟨hSchema, hLe⟩ | hColumn)
      · exact ⟨hSchema, hLe.trans v.le_succ⟩
      · exact ⟨hMem c hColumn, ((hAdded c (hMem c hColumn)).mpr hColumn).le⟩
    · rintro ⟨hSchema, hLe⟩
      by_cases hColumn : c ∈ added
      · exact .inr hColumn
      · have hNot := mt (hAdded c hSchema).mp hColumn
        exact .inl ⟨hSchema, by omega⟩
  · exact carries_of_change (fun other hOther => tables_set_of_ne hOther _) hContent
      (tables_set_self db _ _) hCarried

theorem addedIn_ne_of_ordersFired {n : ℕ} (hVersion : n ∈ [2, 3, 5]) :
    ∀ other, other ≠ .of .ordersFired → ∀ c ∈ schemaColumns other, addedIn c ≠ n := by
  simp only [List.mem_cons, List.not_mem_nil, or_false] at hVersion
  rintro (table | _ | _) hOther
  · cases table <;> first | exact absurd rfl hOther | (obtain rfl | rfl | rfl := hVersion <;> decide)
  · obtain rfl | rfl | rfl := hVersion <;> decide
  · obtain rfl | rfl | rfl := hVersion <;> decide

def fillColumns : List Column := [.fillCount, .remainingCount, .averageFillPrice, .averageFeePaid]

theorem upgraded_fillColumns (h : Shape 1 db) :
    ∃ db', (addTo .ordersFired fillColumns 2).foldlM Statement.run db = some db' ∧
      Upgraded 2 db db' :=
  upgraded_addTo _ h (h.required _ (by decide)) (by decide) (by decide) (by decide)
    (addedIn_ne_of_ordersFired (by decide))

theorem upgraded_correlationGroup (h : Shape 2 db) :
    ∃ db', (addTo .ordersFired [.correlationGroup] 3).foldlM Statement.run db = some db' ∧
      Upgraded 3 db db' :=
  upgraded_addTo _ h (h.required _ (by decide)) (by decide) (by decide) (by decide)
    (addedIn_ne_of_ordersFired (by decide))

theorem upgraded_postOnly (h : Shape 4 db) :
    ∃ db', (addTo .ordersFired [.postOnly] 5).foldlM Statement.run db = some db' ∧
      Upgraded 5 db db' :=
  upgraded_addTo _ h (h.required _ (by decide)) (by decide) (by decide) (by decide)
    (addedIn_ne_of_ordersFired (by decide))

theorem upgraded_netPnl (h : Shape 3 db) :
    ∃ db', [.ifTable (.of .accountSnapshots)
        (.addColumn (.of .accountSnapshots) .totalNetRealizedPnlDollars), .setUserVersion 4].foldlM
          Statement.run db = some db' ∧ Upgraded 4 db db' := by
  have hOthers : ∀ other, other ≠ .of .accountSnapshots → ∀ c ∈ schemaColumns other,
      addedIn c ≠ 4 := by
    rintro (table | _ | _) hOther
    · cases table <;> first | exact absurd rfl hOther | decide
    · decide
    · decide
  by_cases hTable : (db.tables (.of .accountSnapshots)).isSome
  · have hRun : ∀ statement, (Statement.ifTable (.of .accountSnapshots) statement).run db =
        statement.run db := fun statement => by rw [Statement.run, if_pos hTable]
    rw [List.foldlM_cons, hRun, ← List.foldlM_cons]
    exact upgraded_addTo [.totalNetRealizedPnlDollars] h hTable (by decide) (by decide)
      (by decide) hOthers
  · refine ⟨{ db with userVersion := 4 }, ?_, ?_, carries_of_tables fun _ _ hContent => hContent⟩
    · rw [List.foldlM_cons, Statement.run, if_neg hTable]
      rfl
    · refine ⟨rfl, h.required, fun name content hContent => ?_, h.no_rebuild⟩
      have hName : name ≠ .of .accountSnapshots := by
        rintro rfl
        exact hTable (by rw [show db.tables _ = _ from hContent]; rfl)
      rw [columnsAt_succ (hOthers name hName)]
      exact h.columns name content hContent

theorem Shape.ensureAll (names : List TableName) (h : Shape v db)
    (hColumns : ∀ name ∈ names, columnsAt v name = schemaColumns name)
    (hNames : .latencyEventsNew ∉ names) : Shape v (ensureAll db names) where
  version_eq := by rw [userVersion_ensureAll, h.version_eq]
  required name hMem := by
    rw [tables_ensureAll]
    split
    · rfl
    · exact h.required name hMem
  columns name content hContent := by
    rw [tables_ensureAll] at hContent
    split at hContent
    next hName =>
      rw [hColumns name hName]
      have hCurrent : Current db name := fun old hOld c => by
        rw [h.columns name old hOld, hColumns name hName]
      refine hCurrent.ensureAll names content ?_
      rw [tables_ensureAll, if_pos hName, hContent]
    next => exact h.columns name content hContent
  no_rebuild := by rw [tables_ensureAll, if_neg hNames, h.no_rebuild]

theorem upgraded_fills (h : Shape 5 db) :
    ∃ db', (createWithIndexes (.of .fills) ++ [Statement.setUserVersion 6]).foldlM Statement.run db = some db' ∧
      Upgraded 6 db db' := by
  have hColumns : columnsAt 5 (.of .fills) = schemaColumns (.of .fills) := by decide
  have hCurrent : Current db (.of .fills) := fun content hContent c => by
    rw [h.columns _ content hContent, hColumns]
  have hEnsured := h.ensureAll [.of .fills]
    (fun name hMem => by rw [List.mem_singleton.mp hMem, hColumns]) (by decide)
  have hEnsuredCarries : Carries db (Telemetry.ensureAll db [.of .fills]) := carries_ensureAll
  refine ⟨{ ensure db (.of .fills) with userVersion := 6 }, ?_, ?_,
    hEnsuredCarries⟩
  · rw [List.foldlM_append, run_createWithIndexes hCurrent]
    rfl
  · have hSame : ∀ name, columnsAt 6 name = columnsAt 5 name := fun name =>
      List.filter_congr fun c _ => decide_eq_decide.mpr
        (iff_of_true ((addedIn_le c).trans (by decide)) (addedIn_le c))
    refine ⟨rfl, hEnsured.required, fun name content hContent => ?_, hEnsured.no_rebuild⟩
    rw [hSame]
    exact hEnsured.columns name content hContent

def copyOf (content : TableContent Column) : TableContent Column :=
  ⟨latencyColumns, content.rows.map (project latencyColumns)⟩

/-- The four steps that put `latency_events_new` in the place of `latency_events`. -/
structure Rebuild (db made copied dropped renamed : TelemetryFile) : Prop where
  create : (Statement.createTable .latencyEventsNew latencyColumns).run db = some made
  copy : (Statement.copyRows (.of .latencyEvents) .latencyEventsNew latencyColumns).run made =
    some copied
  drop : (Statement.dropTable (.of .latencyEvents)).run copied = some dropped
  rename : (Statement.renameTable .latencyEventsNew (.of .latencyEvents)).run dropped = some renamed
  version_eq : made.userVersion = 0 ∧ copied.userVersion = 0 ∧ dropped.userVersion = 0
  half : (made.tables .latencyEventsNew).isSome ∧ (copied.tables .latencyEventsNew).isSome
  lost : dropped.tables (.of .latencyEvents) = none
  upgraded : Upgraded 0 db renamed

theorem exists_rebuild (h : Shape 0 db) :
    ∃ made copied dropped renamed, Rebuild db made copied dropped renamed := by
  obtain ⟨content, hContent⟩ := Option.isSome_iff_exists.mp
    (h.required (.of .latencyEvents) (by decide))
  have hColumns : ∀ c, c ∈ content.columns ↔ c ∈ latencyColumns := fun c => by
    rw [h.columns _ content hContent, show columnsAt 0 (.of .latencyEvents) = latencyColumns by decide]
  have hDistinct : TableName.of .latencyEvents ≠ .latencyEventsNew := nofun
  let made := db.set .latencyEventsNew (some ⟨latencyColumns, []⟩)
  let copied := made.set .latencyEventsNew (some (copyOf content))
  let dropped := copied.set (.of .latencyEvents) none
  let renamed := (dropped.set .latencyEventsNew none).set (.of .latencyEvents) (some (copyOf content))
  have hMade : made.tables .latencyEventsNew = some ⟨latencyColumns, []⟩ := tables_set_self _ _ _
  have hOld : made.tables (.of .latencyEvents) = some content :=
    (tables_set_of_ne hDistinct _).trans hContent
  have hCopied : copied.tables .latencyEventsNew = some (copyOf content) := tables_set_self _ _ _
  have hOldStill : copied.tables (.of .latencyEvents) = some content :=
    (tables_set_of_ne hDistinct _).trans hOld
  have hDropped : dropped.tables .latencyEventsNew = some (copyOf content) :=
    (tables_set_of_ne hDistinct.symm _).trans hCopied
  have hGone : dropped.tables (.of .latencyEvents) = none := tables_set_self _ _ _
  have hRenamed : renamed.tables (.of .latencyEvents) = some (copyOf content) := tables_set_self _ _ _
  have hNone : renamed.tables .latencyEventsNew = none :=
    (tables_set_of_ne hDistinct.symm _).trans (tables_set_self _ _ _)
  have hSame : ∀ name, name ≠ .of .latencyEvents → renamed.tables name = db.tables name := by
    intro name hName
    obtain rfl | hNew := eq_or_ne name .latencyEventsNew
    · rw [hNone, h.no_rebuild]
    · simp only [renamed, dropped, copied, made, tables_set_of_ne hName, tables_set_of_ne hNew]
  refine ⟨made, copied, dropped, renamed, ?_, ?_, ?_, ?_, ⟨h.version_eq, h.version_eq, h.version_eq⟩,
    ⟨?_, ?_⟩, hGone, ?_, ?_⟩
  · simp only [Statement.run, h.no_rebuild]
    rfl
  · simp only [Statement.run, hMade, hOld]
    exact if_pos ⟨fun c hMem => (hColumns c).mpr hMem, List.Subset.refl _⟩
  · simp only [Statement.run, hOldStill]
    rfl
  · simp only [Statement.run, hDropped, hGone]
    rfl
  · rw [hMade]
    rfl
  · rw [hCopied]
    rfl
  · refine h.change h.version_eq hSame (fun _ _ => rfl) hRenamed (fun c => ?_) nofun
    rw [show columnsAt 0 (.of .latencyEvents) = latencyColumns by decide]
    rfl
  · exact carries_of_change hSame hContent hRenamed (carried_project hColumns)

theorem Shape.stampOne (h : Shape 0 db) : Shape 1 { db with userVersion := 1 } where
  version_eq := rfl
  required := h.required
  columns name content hContent := by
    have hNone : ∀ c ∈ schemaColumns name, addedIn c ≠ 0 + 1 := fun c _ => by cases c <;> decide
    rw [columnsAt_succ hNone]
    exact h.columns name content hContent
  no_rebuild := h.no_rebuild

def nextMigration (version : ℕ) : Steps := applyMigration (migrations.getD version []) (version + 1)

theorem pendingMigrations_of_lt (h : v < schemaVersion) :
    pendingMigrations v = nextMigration v ++ pendingMigrations (v + 1) := by
  change v < 6 at h
  interval_cases v <;> rfl

theorem leads_script {statements : List (Statement TableName Column)}
    (h : statements.foldlM Statement.run db = some db') :
    Leads (.begin :: .commit :: (statements.map .run ++ [.commit])) db db' :=
  (leads_emptyTransaction db).append ((leads_runs h).append (leads_commit db'))

def rebuildIndexes : List (Statement TableName Column) :=
  (indexes (.of .latencyEvents)).map (.createIndexIfNotExists (.of .latencyEvents))

theorem Shape.current_latencyEvents (h : Shape v db) : Current db (.of .latencyEvents) := by
  intro content hContent c
  have hOld : ∀ c ∈ latencyColumns, addedIn c = 0 := by decide
  rw [h.columns _ content hContent, mem_columnsAt, and_iff_left_of_imp]
  intro hMem
  rw [hOld c hMem]
  exact v.zero_le

theorem run_rebuildIndexes (h : Shape v db) :
    ∀ statement ∈ rebuildIndexes, statement.run db = some db :=
  run_indexes h.current_latencyEvents (h.required _ (by decide))

theorem leads_migration (hLt : v < schemaVersion) (h : Shape v db) :
    ∃ db', Leads (nextMigration v) db db' ∧ Upgraded (v + 1) db db' := by
  change v < 6 at hLt
  interval_cases v
  · obtain ⟨made, copied, dropped, renamed, hRebuild⟩ := exists_rebuild h
    obtain ⟨hShape, hCarries⟩ := hRebuild.upgraded
    refine ⟨{ renamed with userVersion := 1 }, ?_, hShape.stampOne, hCarries⟩
    have hRun : (([.createTable .latencyEventsNew latencyColumns,
        .copyRows (.of .latencyEvents) .latencyEventsNew latencyColumns,
        .dropTable (.of .latencyEvents), .renameTable .latencyEventsNew (.of .latencyEvents)] ++
          rebuildIndexes ++ [.setUserVersion 1] :
            List (Statement TableName Column)).foldlM Statement.run db) =
        some { renamed with userVersion := 1 } := by
      have hIndexes := foldlM_of_still (run_rebuildIndexes hShape)
      simp only [List.cons_append, List.nil_append, List.foldlM_cons, hRebuild.create,
        hRebuild.copy, hRebuild.drop, hRebuild.rename, List.foldlM_append, hIndexes,
        Option.bind_eq_bind, Option.bind_some]
      rfl
    exact leads_script hRun
  · obtain ⟨db', hRun, hUpgraded⟩ := upgraded_fillColumns h
    exact ⟨db', leads_script hRun, hUpgraded⟩
  · obtain ⟨db', hRun, hUpgraded⟩ := upgraded_correlationGroup h
    exact ⟨db', leads_transaction hRun, hUpgraded⟩
  · obtain ⟨db', hRun, hUpgraded⟩ := upgraded_netPnl h
    exact ⟨db', leads_transaction hRun, hUpgraded⟩
  · obtain ⟨db', hRun, hUpgraded⟩ := upgraded_postOnly h
    exact ⟨db', leads_transaction hRun, hUpgraded⟩
  · obtain ⟨db', hRun, hUpgraded⟩ := upgraded_fills h
    exact ⟨db', leads_transaction hRun, hUpgraded⟩

theorem leads_pendingMigrations (hLe : v ≤ schemaVersion) (h : Shape v db) :
    ∃ db', Leads (pendingMigrations v) db db' ∧ Upgraded schemaVersion db db' := by
  induction hLe using Nat.decreasingInduction generalizing db with
  | self => exact ⟨db, leads_nil db, h, carries_of_tables fun _ _ hContent => hContent⟩
  | of_succ v hLt ih =>
    obtain ⟨mid, hMid, hShape, hCarries⟩ := leads_migration hLt h
    obtain ⟨db', hRest, hShape', hCarries'⟩ := ih hShape
    refine ⟨db', ?_, hShape', hCarries.trans hCarries'⟩
    rw [pendingMigrations_of_lt hLt]
    exact hMid.append hRest

theorem leads_applyMigrations (hLe : v ≤ schemaVersion) (h : Shape v db) :
    ∃ db', Leads (applyMigrations v) db db' ∧ Upgraded schemaVersion db db' := by
  rw [applyMigrations]
  split
  next hCurrent =>
    obtain rfl : v = schemaVersion := le_antisymm hLe hCurrent
    exact ⟨db, leads_nil db, h, carries_of_tables fun _ _ hContent => hContent⟩
  next =>
    obtain ⟨db', hPending, hUpgraded⟩ := leads_pendingMigrations hLe h
    exact ⟨db', (leads_pragma db).append (hPending.append (leads_pragma db')), hUpgraded⟩

theorem Shape.current (h : Shape schemaVersion db) (name : TableName) : Current db name := by
  intro content hContent c
  rw [h.columns name content hContent, columnsAt_schemaVersion]

theorem Shape.ensureSchema (h : Shape schemaVersion db) {names : List TableName}
    (hNames : names <+: schemaTables) : Shape schemaVersion (Telemetry.ensureAll db names) :=
  h.ensureAll names (fun name _ => columnsAt_schemaVersion name)
    fun hMem => absurd (hNames.subset hMem) (by decide)

theorem Shape.hasTables (h : Shape v db) : hasTables db = true := h.required _ (by decide)

/-- `initialize` in full, from the shape of a version. -/
theorem leads_initialize (hLe : v ≤ schemaVersion) (h : Shape v db) :
    ∃ db', Leads (initializeSteps true v) db db' ∧ Upgraded schemaVersion db db' ∧ Complete db' := by
  obtain ⟨mid, hMigrated, hShape, hCarries⟩ := leads_applyMigrations hLe h
  have hCurrent : ∀ name ∈ schemaTables, Current mid name := fun name _ => hShape.current name
  refine ⟨Telemetry.ensureAll mid schemaTables, ?_,
    ⟨hShape.ensureSchema (List.prefix_refl _), hCarries.trans carries_ensureAll⟩,
    complete_ensureAll hCurrent⟩
  exact (((leads_pragma db).append (leads_pragma db)).append
    (hMigrated.append (leads_schemaSql hCurrent))).append (leads_commit _)

theorem initializeDb_of_leads
    (h : Leads (initializeSteps (Telemetry.hasTables db) db.userVersion) db db') :
    initializeDb db = (db', true) := by
  obtain ⟨c', hRun, hIdle⟩ := h { committed := db } ⟨rfl, rfl⟩
  rw [initializeDb, hRun]
  exact congrArg (·, true) hIdle.2

theorem initializeDb_of_shape (hLe : v ≤ schemaVersion) (h : Shape v db) :
    ∃ db', initializeDb db = (db', true) ∧ Upgraded schemaVersion db db' ∧ Complete db' := by
  obtain ⟨db', hLeads, hRest⟩ := leads_initialize hLe h
  refine ⟨db', initializeDb_of_leads ?_, hRest⟩
  rw [h.hasTables, h.version_eq]
  exact hLeads

end KalshiBot.Telemetry

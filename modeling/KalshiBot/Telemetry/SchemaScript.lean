import KalshiBot.Library.ScriptCuts
import KalshiBot.Telemetry.Migrations

/-! # What `schema.sql` does to a database

It creates the tables that are missing, and an existing table only has to have the columns
that its indexes are on.
-/

namespace KalshiBot.Telemetry

open Sqlite

set_option autoImplicit false

def ensure (db : TelemetryFile) (name : TableName) : TelemetryFile :=
  match db.tables name with
  | none => db.set name (some ⟨schemaColumns name, []⟩)
  | some _ => db

def ensureAll (db : TelemetryFile) (names : List TableName) : TelemetryFile := names.foldl ensure db

/-- The table, if it exists, has the columns `schema.sql` creates it with. -/
def Current (db : TelemetryFile) (name : TableName) : Prop :=
  ∀ content, db.tables name = some content → ∀ c, c ∈ content.columns ↔ c ∈ schemaColumns name

def created (name : TableName) : Step TableName Column :=
  .run (.createTableIfNotExists name (schemaColumns name))

variable {db : TelemetryFile} {name : TableName} {names : List TableName}

theorem tables_ensure (other : TableName) : (ensure db name).tables other =
    if other = name then some ((db.tables name).getD ⟨schemaColumns name, []⟩)
      else db.tables other := by
  rw [ensure]
  obtain rfl | hOther := eq_or_ne other name
  · rw [if_pos rfl]
    cases hTable : db.tables other with
    | none => exact tables_set_self _ _ _
    | some content => exact hTable
  · rw [if_neg hOther]
    cases db.tables name with
    | none => exact tables_set_of_ne hOther _
    | some content => rfl

theorem tables_ensureAll (other : TableName) : (ensureAll db names).tables other =
    if other ∈ names then some ((db.tables other).getD ⟨schemaColumns other, []⟩)
      else db.tables other := by
  induction names generalizing db with
  | nil => rfl
  | cons name names ih =>
    rw [ensureAll, List.foldl_cons, ← ensureAll, ih, tables_ensure]
    by_cases hHead : other = name
    · subst hHead
      simp only [if_true, List.mem_cons_self, Option.getD_some, ite_self]
    · simp only [hHead, if_false, List.mem_cons, false_or]

theorem userVersion_ensureAll : (ensureAll db names).userVersion = db.userVersion := by
  induction names generalizing db with
  | nil => rfl
  | cons name names ih =>
    rw [ensureAll, List.foldl_cons, ← ensureAll, ih, ensure]
    split <;> rfl

theorem carries_ensureAll : Carries db (ensureAll db names) := by
  refine carries_of_tables fun other content hContent => ?_
  rw [tables_ensureAll, hContent, Option.getD_some, ite_self]

theorem Current.ensureAll {other : TableName} (h : Current db other) (names : List TableName) :
    Current (ensureAll db names) other := by
  intro content hContent
  rw [tables_ensureAll] at hContent
  split at hContent
  · cases hTable : db.tables other with
    | none =>
      rw [hTable] at hContent
      cases hContent
      exact fun _ => Iff.rfl
    | some old =>
      rw [hTable] at hContent
      cases hContent
      exact h old hTable
  · exact h content hContent

theorem run_create (db : TelemetryFile) (name : TableName) :
    (Statement.createTableIfNotExists name (schemaColumns name)).run db = some (ensure db name) := by
  rw [Statement.run, ensure]
  cases db.tables name <;> rfl

theorem indexes_subset (name : TableName) : ∀ columns ∈ indexes name, columns ⊆ schemaColumns name := by
  obtain table | _ | _ := name
  · cases table <;> decide
  · decide
  · decide

theorem run_index (hCurrent : Current db name) (hTable : (db.tables name).isSome)
    {columns : List Column} (hIndex : columns ∈ indexes name) :
    (Statement.createIndexIfNotExists name columns).run db = some db := by
  obtain ⟨content, hContent⟩ := Option.isSome_iff_exists.mp hTable
  rw [Statement.run, hContent]
  exact if_pos fun c hMem =>
    (hCurrent content hContent c).mpr (indexes_subset name columns hIndex hMem)

theorem run_indexes (hCurrent : Current db name) (hTable : (db.tables name).isSome) :
    ∀ statement ∈ (indexes name).map (Statement.createIndexIfNotExists name),
      statement.run db = some db := by
  intro statement hMem
  obtain ⟨columns, hIndex, rfl⟩ := List.mem_map.mp hMem
  exact run_index hCurrent hTable hIndex

theorem run_createWithIndexes (hCurrent : Current db name) :
    (createWithIndexes name).foldlM Statement.run db = some (ensure db name) := by
  have hEnsured : Current (ensure db name) name := hCurrent.ensureAll [name]
  have hTable : ((ensure db name).tables name).isSome := by rw [tables_ensure, if_pos rfl]; rfl
  rw [createWithIndexes, List.foldlM_cons, run_create]
  exact foldlM_of_still (run_indexes hEnsured hTable)

theorem run_schemaTables (hCurrent : ∀ name ∈ names, Current db name) :
    (names.flatMap createWithIndexes).foldlM Statement.run db = some (ensureAll db names) := by
  induction names generalizing db with
  | nil => rfl
  | cons name names ih =>
    rw [List.flatMap_cons, List.foldlM_append,
      run_createWithIndexes (hCurrent name List.mem_cons_self)]
    exact ih fun other hMem => (hCurrent other (List.mem_cons_of_mem _ hMem)).ensureAll [name]

/-- The script cut off anywhere has created the tables of the create statements completed. -/
def Ensured (db : TelemetryFile) (names : List TableName) (completed : Steps) (db' : TelemetryFile) :
    Prop :=
  ∃ made, made <+: names ∧ db' = ensureAll db made ∧ ∀ name, created name ∈ completed ↔ name ∈ made

theorem cuts_createWithIndexes (hCurrent : Current db name) :
    Cuts ((createWithIndexes name).map .run) db (Ensured db (name :: names)) := by
  have hEnsured : Current (ensure db name) name := hCurrent.ensureAll [name]
  have hTable : ((ensure db name).tables name).isSome := by rw [tables_ensure, if_pos rfl]; rfl
  refine cuts_cons ⟨[], List.nil_prefix, rfl, fun _ => iff_of_false List.not_mem_nil List.not_mem_nil⟩
    (leads_run (run_create db name)) (cuts_still (run_indexes hEnsured hTable) ?_)
  intro completed hPrefix
  refine ⟨[name], (List.prefix_cons_inj name).mpr List.nil_prefix, rfl, fun other => ?_⟩
  have hNone : created other ∉ completed := fun hMem => by
    obtain ⟨_, hStatement, hEq⟩ := List.mem_map.mp (hPrefix.subset hMem)
    obtain ⟨_, _, rfl⟩ := List.mem_map.mp hStatement
    cases hEq
  rw [List.mem_cons, or_iff_left hNone, List.mem_singleton]
  constructor
  · intro hEq
    cases hEq
    rfl
  · rintro rfl
    rfl

theorem created_mem_createWithIndexes {other : TableName} :
    created other ∈ (createWithIndexes name).map Step.run ↔ other = name := by
  rw [List.mem_map]
  constructor
  · rintro ⟨statement, hMem, hEq⟩
    cases hEq
    obtain hHead | hTail := List.mem_cons.mp hMem
    · cases hHead
      rfl
    · obtain ⟨_, _, hIndex⟩ := List.mem_map.mp hTail
      cases hIndex
  · rintro rfl
    exact ⟨_, List.mem_cons_self, rfl⟩

theorem cuts_schemaTables (hCurrent : ∀ name ∈ names, Current db name) :
    Cuts ((names.flatMap createWithIndexes).map .run) db (Ensured db names) := by
  induction names generalizing db with
  | nil =>
    exact cuts_nil
      ⟨[], List.nil_prefix, rfl, fun _ => iff_of_false List.not_mem_nil List.not_mem_nil⟩
  | cons name names ih =>
    have hName := hCurrent name List.mem_cons_self
    rw [List.flatMap_cons, List.map_append]
    refine (cuts_createWithIndexes hName).append (leads_runs (run_createWithIndexes hName))
      ((ih fun other hMem =>
        (hCurrent other (List.mem_cons_of_mem _ hMem)).ensureAll [name]).mono ?_)
    rintro completed db' - ⟨made, hMade, rfl, hCreated⟩
    refine ⟨name :: made, (List.prefix_cons_inj name).mpr hMade, rfl, fun other => ?_⟩
    rw [List.mem_append, created_mem_createWithIndexes, hCreated, List.mem_cons]

/-- Every table has the columns a new database has it with. -/
def Complete (db : TelemetryFile) : Prop :=
  ∀ name ∈ schemaTables, ∃ content, db.tables name = some content ∧
    ∀ c, c ∈ content.columns ↔ c ∈ schemaColumns name

theorem complete_ensureAll (hCurrent : ∀ name ∈ schemaTables, Current db name) :
    Complete (ensureAll db schemaTables) := by
  intro name hMem
  have hTable : (ensureAll db schemaTables).tables name = _ := tables_ensureAll name
  rw [if_pos hMem] at hTable
  exact ⟨_, hTable, (hCurrent name hMem).ensureAll schemaTables _ hTable⟩

theorem ensureAll_of_present (h : ∀ name ∈ names, (db.tables name).isSome) :
    ensureAll db names = db := by
  induction names with
  | nil => rfl
  | cons name names ih =>
    rw [List.forall_mem_cons] at h
    have hSame : ensure db name = db := by
      obtain ⟨content, hContent⟩ := Option.isSome_iff_exists.mp h.1
      rw [ensure, hContent]
    rw [ensureAll, List.foldl_cons, hSame]
    exact ih h.2

theorem leads_pragma (db : TelemetryFile) : Leads [.run .pragma] db db := leads_run rfl

theorem leads_schemaSql (hCurrent : ∀ name ∈ schemaTables, Current db name) :
    Leads (executescript schemaSql) db (ensureAll db schemaTables) :=
  (leads_commit db).append ((leads_pragma db).append (leads_runs (run_schemaTables hCurrent)))

end KalshiBot.Telemetry

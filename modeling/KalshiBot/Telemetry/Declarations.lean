import KalshiBot.Telemetry.CrashSafety
import KalshiBot.Telemetry.Rows

/-! # The constraints of a migrated database

A table keeps the constraints that it was created with. The scripts of `initialize` are run once
more, on these alone.
-/

namespace KalshiBot.Telemetry

open Sqlite

set_option autoImplicit false

abbrev Declarations := TableName → Option (Constraints Column)

/-- What the `CREATE TABLE` of a table declares, in `schema.sql` as in the migrations. -/
def declaredFor (castText : String → ℚ) : TableName → Constraints Column
  | .of table => constraints castText table
  | .correlations => correlationConstraints
  | .latencyEventsNew => constraints castText .latencyEvents

/-- No column that is added declares anything. -/
def declare (castText : String → ℚ) (d : Declarations) : Statement TableName Column → Declarations
  | .createTable name _ => Function.update d name (some (declaredFor castText name))
  | .createTableIfNotExists name _ =>
    Function.update d name (some ((d name).getD (declaredFor castText name)))
  | .dropTable name => Function.update d name none
  | .renameTable name newName => Function.update (Function.update d name none) newName (d name)
  | .ifTable name statement => if (d name).isSome then declare castText d statement else d
  | .createIndexIfNotExists _ _ | .copyRows _ _ _ | .addColumn _ _ | .setUserVersion _ | .pragma => d

def declareStep (castText : String → ℚ) (d : Declarations) : Step TableName Column → Declarations
  | .run statement => declare castText d statement
  | .begin | .commit => d

def declareSteps (castText : String → ℚ) (steps : Steps) (d : Declarations) : Declarations :=
  steps.foldl (declareStep castText) d

/-- The tables with constraints are those that there are. -/
def InSync (file : TelemetryFile) (d : Declarations) : Prop :=
  ∀ name, (d name).isSome = (file.tables name).isSome

section Sync

variable {castText : String → ℚ} {file file' : TelemetryFile} {d : Declarations}

theorem InSync.update (h : InSync file d) {name : TableName} {k : Option (Constraints Column)}
    {content : Option (TableContent Column)} (hName : k.isSome = content.isSome) :
    InSync (file.set name content) (Function.update d name k) := by
  intro other
  obtain rfl | hOther := eq_or_ne other name
  · rw [Function.update_self, tables_set_self, hName]
  · rw [Function.update_of_ne hOther, tables_set_of_ne hOther, h other]

theorem InSync.set (h : InSync file d) {name : TableName} {content : TableContent Column}
    (hName : (file.tables name).isSome) : InSync (file.set name (some content)) d := by
  have hSame : Function.update d name (d name) = d := Function.update_eq_self name d
  rw [← hSame]
  refine h.update ?_
  rw [h name, hName]
  rfl

theorem InSync.declare (h : InSync file d) {statement : Statement TableName Column}
    (hRun : statement.run file = some file') : InSync file' (declare castText d statement) := by
  induction statement with
  | createTable name columns =>
    rw [Statement.run] at hRun
    split at hRun <;> cases hRun
    exact h.update rfl
  | createTableIfNotExists name columns =>
    rw [Statement.run] at hRun
    split at hRun
    next hNone =>
      cases hRun
      exact h.update rfl
    next content hSome =>
      cases hRun
      obtain ⟨k, hDeclared⟩ := Option.isSome_iff_exists.mp ((h name).trans (by rw [hSome]; rfl))
      rw [Telemetry.declare, hDeclared, Option.getD_some, ← hDeclared, Function.update_eq_self]
      exact h
  | createIndexIfNotExists name columns =>
    rw [Statement.run] at hRun
    split at hRun
    · cases hRun
    · split at hRun <;> cases hRun
      exact h
  | copyRows source target columns =>
    rw [Statement.run] at hRun
    split at hRun
    next hTarget =>
      split at hRun <;> cases hRun
      exact h.set (by rw [hTarget]; rfl)
    · cases hRun
  | dropTable name =>
    rw [Statement.run] at hRun
    split at hRun <;> cases hRun
    exact h.update rfl
  | renameTable name newName =>
    rw [Statement.run] at hRun
    split at hRun
    next content hOld _ =>
      cases hRun
      refine InSync.update (h.update rfl) ?_
      rw [h name, hOld]
    · cases hRun
  | addColumn name column =>
    rw [Statement.run] at hRun
    split at hRun
    · cases hRun
    next hContent =>
      split at hRun <;> cases hRun
      exact h.set (by rw [hContent]; rfl)
  | setUserVersion version =>
    cases hRun
    exact h
  | pragma =>
    cases hRun
    exact h
  | ifTable name statement ih =>
    rw [Statement.run] at hRun
    rw [Telemetry.declare, h name]
    split at hRun
    next hTable =>
      rw [if_pos hTable]
      exact ih hRun
    next hTable =>
      cases hRun
      rw [if_neg hTable]
      exact h

theorem InSync.runSteps {steps : Steps} {c c' : Connection TelemetryFile}
    (hRun : runSteps steps c = (c', true)) (h : InSync c.view d) :
    InSync c'.view (declareSteps castText steps d) := by
  induction steps generalizing c d with
  | nil =>
    cases hRun
    exact h
  | cons step steps ih =>
    rw [Sqlite.runSteps] at hRun
    split at hRun
    next mid hPerform =>
      refine ih hRun ?_
      cases step with
      | run statement => exact h.declare (view_of_run hPerform)
      | begin | commit =>
        obtain hSame | ⟨statement, hStep, -⟩ := view_perform hPerform
        · rw [hSame]
          exact h
        · cases hStep
    · cases hRun

theorem InSync.initializeDb (h : InSync file d) (hFinished : (initializeDb file).2 = true) :
    InSync (initializeDb file).1
      (declareSteps castText (initializeSteps (hasTables file) file.userVersion) d) := by
  rw [Telemetry.initializeDb] at hFinished ⊢
  cases hRun : Sqlite.runSteps (initializeSteps (hasTables file) file.userVersion)
    { committed := file } with
  | mk c finished =>
    rw [hRun] at hFinished
    obtain rfl : finished = true := hFinished
    have hClosed : c.pending = none := closed_of_commit hRun
    have hView : c.view = c.committed := by rw [Connection.view, hClosed]; rfl
    change InSync c.committed _
    rw [← hView]
    exact InSync.runSteps hRun h

end Sync

@[ext]
structure DeclaredFile where
  file : TelemetryFile
  declared : Declarations
  inSync : InSync file declared

/-- `initialize`; none if it raises. -/
def DeclaredFile.initializeDb (castText : String → ℚ) (db : DeclaredFile) : Option DeclaredFile :=
  if h : (Telemetry.initializeDb db.file).2 = true then
    some
      { file := (Telemetry.initializeDb db.file).1
        declared := declareSteps castText (initializeSteps (hasTables db.file) db.file.userVersion)
          db.declared
        inSync := db.inSync.initializeDb h }
  else none

def newFile : DeclaredFile where
  file := ⟨fun _ => none, 0⟩
  declared := fun _ => none
  inSync _ := rfl

/-- A statement by which no table takes over the constraints of another, the rebuild apart. -/
def rebuildsOnly : Statement TableName Column → Bool
  | .renameTable name newName => name = .latencyEventsNew && newName = .of .latencyEvents
  | .ifTable _ statement => rebuildsOnly statement
  | _ => true

def Step.rebuildsOnly : Step TableName Column → Bool
  | .run statement => Telemetry.rebuildsOnly statement
  | .begin | .commit => true

/-- A statement that creates tables of `schema.sql` only, and those only if they are not there. -/
def Step.ensuresOnly : Step TableName Column → Bool
  | .run statement => statement.additive && decide (statement.writes ⊆ schemaTables)
  | .begin | .commit => true

section Declared

variable {castText : String → ℚ} {d : Declarations} {p : TableName → Constraints Column → Prop}

theorem declared_update (h : ∀ name k, d name = some k → p name k) {name : TableName}
    {k : Option (Constraints Column)} (hName : ∀ k', k = some k' → p name k') :
    ∀ other k', Function.update d name k other = some k' → p other k' := by
  intro other k' hDeclared
  obtain rfl | hOther := eq_or_ne other name
  · rw [Function.update_self] at hDeclared
    exact hName k' hDeclared
  · rw [Function.update_of_ne hOther] at hDeclared
    exact h other k' hDeclared

/-- What holds of the constraints that are declared and those that a table had holds after
the statement. -/
theorem declared_declare (hCreated : ∀ name, p name (declaredFor castText name))
    (hRebuild : ∀ k, p .latencyEventsNew k → p (.of .latencyEvents) k)
    (h : ∀ name k, d name = some k → p name k) {statement : Statement TableName Column}
    (hStatement : rebuildsOnly statement) :
    ∀ name k, declare castText d statement name = some k → p name k := by
  induction statement with
  | createTable name columns =>
    refine declared_update h fun k hDeclared => ?_
    cases hDeclared
    exact hCreated name
  | createTableIfNotExists name columns =>
    refine declared_update h fun k hDeclared => ?_
    cases hDeclared
    cases hOld : d name with
    | none => exact hCreated name
    | some k => exact h name k hOld
  | dropTable name => exact declared_update h nofun
  | renameTable name newName =>
    obtain ⟨hName, hNewName⟩ := Bool.and_eq_true_iff.mp hStatement
    obtain rfl := of_decide_eq_true hName
    obtain rfl := of_decide_eq_true hNewName
    refine declared_update (declared_update (k := none) h nofun) fun k hDeclared => ?_
    exact hRebuild k (h _ k hDeclared)
  | ifTable name statement ih =>
    rw [declare]
    split
    · exact ih hStatement
    · exact h
  | createIndexIfNotExists | copyRows | addColumn | setUserVersion | pragma => exact h

theorem declared_declareSteps (hCreated : ∀ name, p name (declaredFor castText name))
    (hRebuild : ∀ k, p .latencyEventsNew k → p (.of .latencyEvents) k) {steps : Steps}
    (h : ∀ name k, d name = some k → p name k)
    (hSteps : ∀ step ∈ steps, Step.rebuildsOnly step) :
    ∀ name k, declareSteps castText steps d name = some k → p name k := by
  induction steps generalizing d with
  | nil => exact h
  | cons step steps ih =>
    rw [List.forall_mem_cons] at hSteps
    refine ih ?_ hSteps.2
    cases step with
    | run statement => exact declared_declare hCreated hRebuild h hSteps.1
    | begin | commit => exact h

theorem declareSteps_cons (step : Step TableName Column) (steps : Steps) :
    declareSteps castText (step :: steps) d = declareSteps castText steps (declareStep castText d step) :=
  rfl

theorem declareSteps_append (before after : Steps) :
    declareSteps castText (before ++ after) d =
      declareSteps castText after (declareSteps castText before d) :=
  List.foldl_append

theorem declareSteps_of_present (hTables : ∀ name ∈ schemaTables, (d name).isSome) {steps : Steps}
    (hSteps : ∀ step ∈ steps, Step.ensuresOnly step) : declareSteps castText steps d = d := by
  induction steps with
  | nil => rfl
  | cons step steps ih =>
    rw [List.forall_mem_cons] at hSteps
    have hSame : declareStep castText d step = d := by
      cases step with
      | begin | commit => rfl
      | run statement =>
        obtain ⟨hAdditive, hWrites⟩ := Bool.and_eq_true_iff.mp hSteps.1
        cases statement with
        | createTableIfNotExists name columns =>
          have hName := hTables name (of_decide_eq_true hWrites List.mem_cons_self)
          obtain ⟨k, hDeclared⟩ := Option.isSome_iff_exists.mp hName
          rw [declareStep, declare, hDeclared, Option.getD_some, ← hDeclared,
            Function.update_eq_self]
        | createIndexIfNotExists | setUserVersion | pragma => rfl
        | createTable | copyRows | dropTable | renameTable | addColumn | ifTable => cases hAdditive
    rw [declareSteps, List.foldl_cons, hSame]
    exact ih hSteps.2

end Declared

/-- The constraints of an `orders_fired` that has got its `post_only` by a migration. -/
def withoutPostOnlyCheck (castText : String → ℚ) : Constraints Column where
  unique := uniqueColumn .ordersFired
  admits row :=
    (notNull .ordersFired).all (fun c => row c ≠ .null) &&
      ((checks .ordersFired).filter fun (c, _) => c ≠ .postOnly).all fun (c, check) =>
        check.passes castText (row c)

inductive Declares (castText : String → ℚ) : TableName → Constraints Column → Prop
  | created (name : TableName) : Declares castText name (declaredFor castText name)
  | unchecked : Declares castText (.of .ordersFired) (withoutPostOnlyCheck castText)

/-- A database of a schema version. The `latency_events` of version 0 may have any constraints. -/
structure OfVersion (castText : String → ℚ) (version : ℕ) (db : DeclaredFile) : Prop where
  shape : Shape version db.file
  declared : ∀ name k, db.declared name = some k →
    Declares castText name k ∨ version = 0 ∧ name = .of .latencyEvents

section Opening

variable {castText : String → ℚ} {db db' : DeclaredFile} {v : ℕ}

theorem Declares.rebuild {k : Constraints Column} (h : Declares castText .latencyEventsNew k) :
    Declares castText (.of .latencyEvents) k := by
  cases h
  exact .created (.of .latencyEvents)

/-- Up to the drop, the old constraints of `latency_events` may be there. -/
theorem declares_of_drop {d : Declarations} {before after : Steps}
    (h : ∀ name k, d name = some k → Declares castText name k ∨ name = .of .latencyEvents)
    (hBefore : ∀ step ∈ before, Step.rebuildsOnly step)
    (hAfter : ∀ step ∈ after, Step.rebuildsOnly step) :
    ∀ name k, declareSteps castText (before ++ .run (.dropTable (.of .latencyEvents)) :: after) d
      name = some k → Declares castText name k := by
  have hUntil : ∀ name k, declareSteps castText before d name = some k →
      Declares castText name k ∨ name = .of .latencyEvents :=
    declared_declareSteps (fun name => .inl (.created name)) (fun _ _ => .inr rfl) h hBefore
  rw [declareSteps_append, declareSteps_cons]
  refine declared_declareSteps (fun name => .created name) (fun _ => Declares.rebuild) ?_ hAfter
  intro name k hDeclared
  obtain rfl | hName := eq_or_ne name (.of .latencyEvents)
  · rw [declareStep, declare, Function.update_self] at hDeclared
    cases hDeclared
  · rw [declareStep, declare, Function.update_of_ne hName] at hDeclared
    exact (hUntil name k hDeclared).resolve_right hName

theorem OfVersion.declares (hLe : v ≤ schemaVersion) (h : OfVersion castText v db) :
    ∀ name k, declareSteps castText (initializeSteps true v) db.declared name = some k →
      Declares castText name k := by
  obtain rfl | hLater := v.eq_zero_or_pos
  · have hSteps : initializeSteps true 0 = (initializeSteps true 0).take 7 ++
        .run (.dropTable (.of .latencyEvents)) :: (initializeSteps true 0).drop 8 := rfl
    rw [hSteps]
    exact declares_of_drop (fun name k hDeclared => (h.declared name k hDeclared).imp id And.right)
      (by decide +kernel) (by decide +kernel)
  · refine declared_declareSteps (fun name => .created name) (fun _ => Declares.rebuild) ?_ ?_
    · intro name k hDeclared
      exact (h.declared name k hDeclared).resolve_right fun hZero => hLater.ne' hZero.1
    · change v ≤ 6 at hLe
      interval_cases v <;> decide +kernel

theorem initializeDb_of_complete {file : TelemetryFile} (hShape : Shape schemaVersion file)
    (hComplete : Complete file) : initializeDb file = (file, true) := by
  have hPresent : ∀ name ∈ schemaTables, (file.tables name).isSome := fun name hMem => by
    obtain ⟨content, hContent, -⟩ := hComplete name hMem
    rw [hContent]
    rfl
  refine initializeDb_of_leads ?_
  rw [hShape.hasTables, hShape.version_eq]
  have hSchema := leads_schemaSql fun name _ => hShape.current name
  rw [ensureAll_of_present hPresent] at hSchema
  exact (((leads_pragma file).append (leads_pragma file)).append
    ((leads_nil file).append hSchema)).append (leads_commit file)

theorem DeclaredFile.initializeDb_eq_some {file : TelemetryFile}
    (h : Telemetry.initializeDb db.file = (file, true)) :
    ∃ db', db.initializeDb castText = some db' ∧ db'.file = file ∧
      db'.declared =
        declareSteps castText (initializeSteps (hasTables db.file) db.file.userVersion) db.declared := by
  have hFinished : (Telemetry.initializeDb db.file).2 = true := by rw [h]
  exact ⟨_, dif_pos hFinished, congrArg Prod.fst h, rfl⟩

theorem DeclaredFile.initializeDb_of_complete (hShape : Shape schemaVersion db.file)
    (hComplete : Complete db.file) : db.initializeDb castText = some db := by
  obtain ⟨db', hOpened, hFile, hDeclared⟩ : ∃ db', db.initializeDb castText = some db' ∧ _ :=
    initializeDb_eq_some (Telemetry.initializeDb_of_complete hShape hComplete)
  have hTables : ∀ name ∈ schemaTables, (db.declared name).isSome := fun name hMem => by
    obtain ⟨content, hContent, -⟩ := hComplete name hMem
    rw [db.inSync, hContent]
    rfl
  rw [hOpened]
  refine congrArg some (DeclaredFile.ext hFile ?_)
  rw [hDeclared, hShape.hasTables, hShape.version_eq]
  exact declareSteps_of_present hTables (by decide +kernel)

theorem newFile_initializeDb (castText : String → ℚ) :
    ∃ fresh, newFile.initializeDb castText = some fresh ∧
      fresh.file = { ensureAll newFile.file schemaTables with userVersion := schemaVersion } ∧
        ∀ name k, fresh.declared name = some k → k = declaredFor castText name := by
  have hNew : NewFile newFile.file := ⟨rfl, fun _ => rfl⟩
  obtain ⟨fresh, hOpened, hFile, hDeclared⟩ := DeclaredFile.initializeDb_eq_some
    (initializeDb_of_leads (leads_newFile fun name _ => hNew.current name))
  have hNone : ∀ name k, newFile.declared name = some k → k = declaredFor castText name := nofun
  have hSteps : ∀ step ∈ initializeSteps false 0, Step.rebuildsOnly step := by decide +kernel
  refine ⟨fresh, hOpened, hFile, ?_⟩
  rw [hDeclared]
  exact declared_declareSteps (p := fun name k => k = declaredFor castText name) (fun _ => rfl)
    (fun _ h => h) hNone hSteps

end Opening

end KalshiBot.Telemetry

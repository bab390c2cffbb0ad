import KalshiBot.Library.Sqlite
import KalshiBot.Library.Transactions
import Mathlib.Data.List.Forall2

/-! # Scripts over the tables of a database

Statements that define tables, run one after another on a connection, each on its own or
inside a transaction. A script that is cut off leaves what has been committed.
-/

namespace KalshiBot.Sqlite

set_option autoImplicit false

structure TableContent (C : Type) where
  columns : List C
  rows : List (Row C)

structure Database (T C : Type) where
  tables : T → Option (TableContent C)
  userVersion : ℕ

/-- `copyRows` is `INSERT INTO target (…) SELECT … FROM source`, `ifTable` a statement made to
depend on a table's existence, and `pragma` one that changes neither table nor version. -/
inductive Statement (T C : Type) where
  | createTable (name : T) (columns : List C)
  | createTableIfNotExists (name : T) (columns : List C)
  | createIndexIfNotExists (name : T) (columns : List C)
  | copyRows (source target : T) (columns : List C)
  | dropTable (name : T)
  | renameTable (name newName : T)
  | addColumn (name : T) (column : C)
  | setUserVersion (version : ℕ)
  | pragma
  | ifTable (name : T) (statement : Statement T C)
  deriving DecidableEq

inductive Step (T C : Type) where
  | begin
  | commit
  | run (statement : Statement T C)
  deriving DecidableEq

variable {T C : Type} [DecidableEq T] [DecidableEq C]

def Database.set (db : Database T C) (name : T) (content : Option (TableContent C)) : Database T C :=
  { db with tables := Function.update db.tables name content }

def project (columns : List C) (row : Row C) : Row C := fun c => if c ∈ columns then row c else .null

/-- The rows already there have null in the new column. -/
def TableContent.addColumn (content : TableContent C) (column : C) : TableContent C where
  columns := content.columns ++ [column]
  rows := content.rows.map fun row => Function.update row column .null

/-- An index holds no rows, so all there is to its creation is that it can fail. -/
def Statement.run (db : Database T C) : Statement T C → Option (Database T C)
  | createTable name columns =>
    match db.tables name with
    | none => some (db.set name (some ⟨columns, []⟩))
    | some _ => none
  | createTableIfNotExists name columns =>
    match db.tables name with
    | none => some (db.set name (some ⟨columns, []⟩))
    | some _ => some db
  | createIndexIfNotExists name columns =>
    match db.tables name with
    | none => none
    | some content => if columns ⊆ content.columns then some db else none
  | copyRows source target columns =>
    match db.tables source, db.tables target with
    | some old, some new =>
      if columns ⊆ old.columns ∧ columns ⊆ new.columns then
        some (db.set target (some ⟨new.columns, new.rows ++ old.rows.map (project columns)⟩))
      else none
    | _, _ => none
  | dropTable name =>
    match db.tables name with
    | none => none
    | some _ => some (db.set name none)
  | renameTable name newName =>
    match db.tables name, db.tables newName with
    | some content, none => some ((db.set name none).set newName (some content))
    | _, _ => none
  | addColumn name column =>
    match db.tables name with
    | none => none
    | some content =>
      if column ∈ content.columns then none
      else some (db.set name (some (content.addColumn column)))
  | setUserVersion version => some { db with userVersion := version }
  | pragma => some db
  | ifTable name statement => if (db.tables name).isSome then statement.run db else some db

def Step.perform (c : Connection (Database T C)) : Step T C → Option (Connection (Database T C))
  | begin => c.begin
  | commit => some c.commit
  | .run statement => c.execute fun db => statement.run db

/-- The steps up to the first that raises, after which the transaction is rolled back; whether
none raises. -/
def runSteps : List (Step T C) → Connection (Database T C) → Connection (Database T C) × Bool
  | [], c => (c, true)
  | step :: steps, c =>
    match step.perform c with
    | some c' => runSteps steps c'
    | none => (c.rollback, false)

/-- No transaction is open and this is what is committed. -/
def Idle (c : Connection (Database T C)) (db : Database T C) : Prop :=
  c.pending = none ∧ c.committed = db

/-- The steps all run and lead from the one committed database to the other. -/
def Leads (steps : List (Step T C)) (db db' : Database T C) : Prop :=
  ∀ c, Idle c db → ∃ c', runSteps steps c = (c', true) ∧ Idle c' db'

/-- A run of the steps, to their end or to one that raises, leaves this committed. -/
def Leaves (steps : List (Step T C)) (db db' : Database T C) : Prop :=
  ∀ c, Idle c db → (runSteps steps c).1.committed = db'

variable {db mid db' : Database T C} {before after : List (Step T C)}

theorem runSteps_append {c c' : Connection (Database T C)} (h : runSteps before c = (c', true)) :
    runSteps (before ++ after) c = runSteps after c' := by
  induction before generalizing c with
  | nil =>
    cases h
    rfl
  | cons step steps ih =>
    rw [List.cons_append, runSteps]
    rw [runSteps] at h
    split at h
    · exact ih h
    · cases h

theorem Leads.append (hBefore : Leads before db mid) (hAfter : Leads after mid db') :
    Leads (before ++ after) db db' := by
  intro c hIdle
  obtain ⟨c', hRun, hMid⟩ := hBefore c hIdle
  obtain ⟨c'', hRun', hLast⟩ := hAfter c' hMid
  exact ⟨c'', by rw [runSteps_append hRun, hRun'], hLast⟩

theorem Leads.leaves (h : Leads before db db') : Leaves before db db' := by
  intro c hIdle
  obtain ⟨c', hRun, hLast⟩ := h c hIdle
  rw [hRun]
  exact hLast.2

theorem Leads.leaves_append (hBefore : Leads before db mid) (hAfter : Leaves after mid db') :
    Leaves (before ++ after) db db' := by
  intro c hIdle
  obtain ⟨c', hRun, hMid⟩ := hBefore c hIdle
  rw [runSteps_append hRun]
  exact hAfter c' hMid

theorem leads_nil (db : Database T C) : Leads [] db db := fun c hIdle => ⟨c, rfl, hIdle⟩

theorem leads_commit (db : Database T C) : Leads [.commit] db db := by
  intro c hIdle
  have hCommit : c.commit = c := by rw [Connection.commit, hIdle.1]
  exact ⟨c, by simp only [runSteps, Step.perform, hCommit], hIdle⟩

theorem leads_run {statement : Statement T C} (h : statement.run db = some db') :
    Leads [.run statement] db db' := by
  rintro c ⟨hClosed, rfl⟩
  refine ⟨{ committed := db', pending := none, commits := c.commits ++ [db'] }, ?_, rfl, rfl⟩
  simp only [runSteps, Step.perform, Connection.execute, hClosed, h, Option.map_some]

theorem leads_runs {statements : List (Statement T C)}
    (h : statements.foldlM Statement.run db = some db') : Leads (statements.map .run) db db' := by
  induction statements generalizing db with
  | nil =>
    cases h
    exact leads_nil _
  | cons statement statements ih =>
    rw [List.foldlM_cons, Option.bind_eq_bind, Option.bind_eq_some_iff] at h
    obtain ⟨next, hStatement, hRest⟩ := h
    exact (leads_run hStatement).append (ih hRest)

/-- Inside a transaction nothing is committed, whatever raises. -/
theorem committed_of_pending {statements : List (Statement T C)} {c : Connection (Database T C)}
    (h : c.pending.isSome) :
    (runSteps (statements.map .run) c).1.committed = c.committed := by
  induction statements generalizing c with
  | nil => rfl
  | cons statement statements ih =>
    obtain ⟨w, hPending⟩ := Option.isSome_iff_exists.mp h
    simp only [List.map_cons, runSteps, Step.perform, Connection.execute, hPending]
    cases statement.run w with
    | none => rfl
    | some w' => exact ih rfl

theorem leaves_begin (statements : List (Statement T C)) (db : Database T C) :
    Leaves (.begin :: statements.map .run) db db := by
  rintro c ⟨hClosed, rfl⟩
  simp only [runSteps, Step.perform, Connection.begin, hClosed]
  exact committed_of_pending rfl

theorem runSteps_of_pending {statements : List (Statement T C)} {c : Connection (Database T C)}
    {w w' : Database T C} (hPending : c.pending = some w)
    (h : statements.foldlM Statement.run w = some w') :
    runSteps (statements.map .run) c = ({ c with pending := some w' }, true) := by
  induction statements generalizing c w with
  | nil =>
    cases h
    rw [← hPending]
    rfl
  | cons statement statements ih =>
    rw [List.foldlM_cons, Option.bind_eq_bind, Option.bind_eq_some_iff] at h
    obtain ⟨next, hStatement, hRest⟩ := h
    simp only [List.map_cons, runSteps, Step.perform, Connection.execute, hPending, hStatement,
      Option.map_some]
    exact ih rfl hRest

theorem leads_transaction {statements : List (Statement T C)}
    (h : statements.foldlM Statement.run db = some db') :
    Leads (.begin :: statements.map .run ++ [.commit]) db db' := by
  rintro c ⟨hClosed, rfl⟩
  have hBody : runSteps (.begin :: statements.map .run) c =
      ({ c with pending := some db' }, true) := by
    simp only [runSteps, Step.perform, Connection.begin, hClosed]
    exact runSteps_of_pending rfl h
  rw [runSteps_append hBody]
  exact ⟨_, rfl, rfl, rfl⟩

def Statement.writes : Statement T C → List T
  | createTable name _ | createTableIfNotExists name _ | dropTable name | addColumn name _ => [name]
  | copyRows _ target _ => [target]
  | renameTable name newName => [name, newName]
  | ifTable _ statement => statement.writes
  | createIndexIfNotExists _ _ | setUserVersion _ | pragma => []

omit [DecidableEq C] in
theorem tables_set_of_ne {name other : T} (h : other ≠ name) (content : Option (TableContent C)) :
    (db.set name content).tables other = db.tables other := by
  simp only [Database.set, ne_eq, h, not_false_eq_true, Function.update_of_ne]

omit [DecidableEq C] in
theorem tables_set_self (db : Database T C) (name : T) (content : Option (TableContent C)) :
    (db.set name content).tables name = content := by
  simp only [Database.set, Function.update_self]

def Step.spares (name : T) : Step T C → Bool
  | .run statement => name ∉ statement.writes
  | _ => true

theorem tables_of_run {statement : Statement T C} (h : statement.run db = some db') {name : T}
    (hName : name ∉ statement.writes) : db'.tables name = db.tables name := by
  induction statement with
  | ifTable other statement ih =>
    rw [Statement.run] at h
    split at h
    · exact ih h hName
    · cases h
      rfl
  | createTable other | createTableIfNotExists other | dropTable other | addColumn other =>
    simp only [Statement.writes, List.mem_singleton] at hName
    simp only [Statement.run] at h
    repeat' split at h
    all_goals cases h
    all_goals first | rfl | exact tables_set_of_ne hName _
  | copyRows source target columns =>
    simp only [Statement.writes, List.mem_singleton] at hName
    simp only [Statement.run] at h
    repeat' split at h
    all_goals cases h
    exact tables_set_of_ne hName _
  | renameTable other newName =>
    simp only [Statement.writes, List.mem_cons, List.not_mem_nil, or_false, not_or] at hName
    simp only [Statement.run] at h
    repeat' split at h
    all_goals cases h
    rw [tables_set_of_ne hName.2, tables_set_of_ne hName.1]
  | createIndexIfNotExists | setUserVersion | pragma =>
    simp only [Statement.run] at h
    repeat' split at h
    all_goals cases h
    all_goals rfl

/-- A statement that leaves every table there is as it is. -/
def Statement.additive : Statement T C → Bool
  | createTableIfNotExists _ _ | createIndexIfNotExists _ _ | setUserVersion _ | pragma => true
  | _ => false

def Step.additive : Step T C → Bool
  | .run statement => statement.additive
  | _ => true

theorem tables_of_additive {statement : Statement T C} (hAdditive : statement.additive)
    (h : statement.run db = some db') {name : T} {content : TableContent C}
    (hContent : db.tables name = some content) : db'.tables name = some content := by
  cases statement with
  | createTableIfNotExists other columns =>
    rw [Statement.run] at h
    cases hOther : db.tables other with
    | none =>
      rw [hOther] at h
      cases h
      rw [tables_set_of_ne ?_, hContent]
      rintro rfl
      cases hOther.symm.trans hContent
    | some _ =>
      rw [hOther] at h
      cases h
      exact hContent
  | createIndexIfNotExists | setUserVersion | pragma =>
    rw [tables_of_run h List.not_mem_nil, hContent]
  | createTable | copyRows | dropTable | renameTable | addColumn | ifTable => cases hAdditive

theorem view_of_run {statement : Statement T C} {c c' : Connection (Database T C)}
    (h : (Step.run statement).perform c = some c') : statement.run c.view = some c'.view := by
  rw [Step.perform, Connection.execute] at h
  split at h
  next hClosed =>
    obtain ⟨db, hRun, rfl⟩ := Option.map_eq_some_iff.mp h
    rw [Connection.view, hClosed]
    exact hRun
  next w hPending =>
    obtain ⟨db, hRun, rfl⟩ := Option.map_eq_some_iff.mp h
    rw [Connection.view, hPending]
    exact hRun

theorem view_perform {step : Step T C} {c c' : Connection (Database T C)}
    (h : step.perform c = some c') :
    c'.view = c.view ∨ ∃ statement, step = .run statement ∧ statement.run c.view = some c'.view := by
  cases step with
  | begin =>
    rw [Step.perform, Connection.begin] at h
    split at h
    next hClosed =>
      cases h
      exact .inl (by rw [Connection.view, Connection.view, hClosed]; rfl)
    next => cases h
  | commit =>
    cases h
    refine .inl ?_
    rw [Connection.commit]
    split
    · rfl
    next s hPending => rw [Connection.view, Connection.view, hPending]; rfl
  | run statement => exact .inr ⟨statement, rfl, view_of_run h⟩

theorem committed_perform {step : Step T C} {c c' : Connection (Database T C)}
    (h : step.perform c = some c') : c'.committed = c.committed ∨ c'.committed = c'.view := by
  cases hPending : c'.pending with
  | none => exact .inr (by rw [Connection.view, hPending]; rfl)
  | some w =>
    refine .inl ?_
    cases step with
    | begin =>
      rw [Step.perform, Connection.begin] at h
      split at h
      · cases h
        rfl
      · cases h
    | commit =>
      cases h
      rw [Connection.commit] at hPending ⊢
      split at hPending
      · rfl
      · cases hPending
    | run statement =>
      rw [Step.perform, Connection.execute] at h
      split at h
      · obtain ⟨db, -, rfl⟩ := Option.map_eq_some_iff.mp h
        cases hPending
      · obtain ⟨db, -, rfl⟩ := Option.map_eq_some_iff.mp h
        rfl

theorem closed_of_commit {steps : List (Step T C)} {c c' : Connection (Database T C)}
    (h : runSteps (steps ++ [.commit]) c = (c', true)) : c'.pending = none := by
  induction steps generalizing c with
  | nil =>
    cases h
    rw [Connection.commit]
    cases hPending : c.pending with
    | none => exact hPending
    | some s => rfl
  | cons step steps ih =>
    rw [List.cons_append, runSteps] at h
    split at h
    · exact ih h
    · cases h

/-- A script does not finish if something that holds at the start, and that the statements
before it keep, makes one of its statements raise. -/
theorem unfinished_of_blocked {p : Database T C → Prop} {statement : Statement T C}
    (hKeep : ∀ earlier, .run earlier ∈ before → ∀ db db', p db → earlier.run db = some db' → p db')
    (hBlocked : ∀ db, p db → statement.run db = none) {c : Connection (Database T C)} (h : p c.view) :
    (runSteps (before ++ .run statement :: after) c).2 = false := by
  induction before generalizing c with
  | nil =>
    have hNone : (Step.run statement).perform c = none := by
      rw [Option.eq_none_iff_forall_ne_some]
      intro c' hPerform
      cases (hBlocked c.view h).symm.trans (view_of_run hPerform)
    rw [List.nil_append, runSteps, hNone]
  | cons step steps ih =>
    rw [List.cons_append, runSteps]
    cases hPerform : step.perform c with
    | none => rfl
    | some c' =>
      refine ih (fun earlier hMem => hKeep earlier (List.mem_cons_of_mem _ hMem)) ?_
      obtain hSame | ⟨earlier, rfl, hRun⟩ := view_perform hPerform
      · rw [hSame]
        exact h
      · exact hKeep earlier List.mem_cons_self _ _ h hRun

/-- What every statement keeps holds of what is committed in the end. -/
theorem committed_of_kept {p : Database T C → Prop} {steps : List (Step T C)}
    (hKeep : ∀ statement, .run statement ∈ steps → ∀ db db', p db → statement.run db = some db' → p db')
    {c : Connection (Database T C)} (hCommitted : p c.committed) (hView : p c.view) :
    p (runSteps steps c).1.committed := by
  induction steps generalizing c with
  | nil => exact hCommitted
  | cons step steps ih =>
    rw [runSteps]
    cases hPerform : step.perform c with
    | none => exact hCommitted
    | some c' =>
      have hView' : p c'.view := by
        obtain hSame | ⟨statement, rfl, hRun⟩ := view_perform hPerform
        · rw [hSame]
          exact hView
        · exact hKeep statement List.mem_cons_self _ _ hView hRun
      refine ih (fun statement hMem => hKeep statement (List.mem_cons_of_mem _ hMem)) ?_ hView'
      obtain hSame | hSame := committed_perform hPerform
      · rw [hSame]
        exact hCommitted
      · rw [hSame]
        exact hView'

theorem exists_of_forall₂ {α β : Type} {r : α → β → Prop} {as : List α} {bs : List β}
    (h : List.Forall₂ r as bs) {a : α} (hMem : a ∈ as) : ∃ b ∈ bs, r a b := by
  induction h with
  | nil => cases hMem
  | cons hHead _ ih =>
    obtain rfl | hTail := List.mem_cons.mp hMem
    · exact ⟨_, List.mem_cons_self, hHead⟩
    · obtain ⟨b, hB, hR⟩ := ih hTail
      exact ⟨b, List.mem_cons_of_mem _ hB, hR⟩

/-- Every row is still there, with its values in the columns it had. -/
def Keeps (db db' : Database T C) : Prop :=
  ∀ name content, db.tables name = some content → ∃ content', db'.tables name = some content' ∧
    content.columns ⊆ content'.columns ∧
      ∀ row ∈ content.rows, ∃ row' ∈ content'.rows, ∀ c ∈ content.columns, row' c = row c

/-- The columns are still there, and the rows one by one, with null in the columns added. -/
def Carried (old new : TableContent C) : Prop :=
  old.columns ⊆ new.columns ∧ List.Forall₂ (fun row row' => (∀ c ∈ old.columns, row' c = row c) ∧
    ∀ c ∈ new.columns, c ∉ old.columns → row' c = .null) old.rows new.rows

def Carries (db db' : Database T C) : Prop :=
  ∀ name content, db.tables name = some content →
    ∃ content', db'.tables name = some content' ∧ Carried content content'

omit [DecidableEq C] in
theorem carried_refl (content : TableContent C) : Carried content content :=
  ⟨List.Subset.refl _, List.forall₂_same.mpr fun _ _ => ⟨fun _ _ => rfl, fun _ hMem hNot =>
    absurd hMem hNot⟩⟩

theorem Carried.trans {old mid new : TableContent C} (hFirst : Carried old mid)
    (hSecond : Carried mid new) : Carried old new := by
  obtain ⟨hColumns, hRows⟩ := hFirst
  obtain ⟨hColumns', hRows'⟩ := hSecond
  refine ⟨List.Subset.trans hColumns hColumns', ?_⟩
  generalize old.rows = rows at hRows ⊢
  generalize mid.rows = rows' at hRows hRows'
  generalize new.rows = rows'' at hRows' ⊢
  induction hRows generalizing rows'' with
  | nil =>
    cases hRows'
    exact .nil
  | cons hRow _ ih =>
    cases hRows' with
    | cons hRow' hRest =>
      refine .cons ⟨fun c hMem => (hRow'.1 c (hColumns hMem)).trans (hRow.1 c hMem), ?_⟩ (ih _ hRest)
      intro c hMem hNot
      by_cases hMid : c ∈ mid.columns
      · exact (hRow'.1 c hMid).trans (hRow.2 c hMid hNot)
      · exact hRow'.2 c hMem hMid

omit [DecidableEq C] in
theorem Carried.keeps {old new : TableContent C} (h : Carried old new) :
    ∀ row ∈ old.rows, ∃ row' ∈ new.rows, ∀ c ∈ old.columns, row' c = row c := by
  intro row hRow
  obtain ⟨row', hRow', hSame, -⟩ := exists_of_forall₂ h.2 hRow
  exact ⟨row', hRow', hSame⟩

omit [DecidableEq T] [DecidableEq C] in
theorem Carries.keeps (h : Carries db db') : Keeps db db' := by
  intro name content hContent
  obtain ⟨content', hContent', hCarried⟩ := h name content hContent
  exact ⟨content', hContent', hCarried.1, hCarried.keeps⟩

omit [DecidableEq T] [DecidableEq C] in
theorem carries_of_tables (h : ∀ name content, db.tables name = some content →
    db'.tables name = some content) : Carries db db' := fun name content hContent =>
  ⟨content, h name content hContent, carried_refl content⟩

omit [DecidableEq T] in
theorem Carries.trans (hFirst : Carries db mid) (hSecond : Carries mid db') : Carries db db' := by
  intro name content hContent
  obtain ⟨content', hContent', hCarried⟩ := hFirst name content hContent
  obtain ⟨content'', hContent'', hCarried'⟩ := hSecond name content' hContent'
  exact ⟨content'', hContent'', hCarried.trans hCarried'⟩

omit [DecidableEq T] [DecidableEq C] in
theorem carries_of_change {name : T} {content content' : TableContent C}
    (hSame : ∀ other, other ≠ name → db'.tables other = db.tables other)
    (hOld : db.tables name = some content) (hNew : db'.tables name = some content')
    (hCarried : Carried content content') : Carries db db' := by
  intro other otherContent hOther
  obtain rfl | hName := eq_or_ne other name
  · obtain rfl : content = otherContent := Option.some.inj (hOld.symm.trans hOther)
    exact ⟨content', hNew, hCarried⟩
  · exact ⟨otherContent, (hSame other hName).trans hOther, carried_refl _⟩

theorem run_addColumn {name : T} {content : TableContent C} {column : C}
    (h : db.tables name = some content) (hNew : column ∉ content.columns) :
    (Statement.addColumn name column).run db =
      some (db.set name (some (content.addColumn column))) := by
  simp only [Statement.run, h, hNew, if_false]

theorem carried_addColumn {content : TableContent C} {column : C} (hNew : column ∉ content.columns) :
    Carried content (content.addColumn column) := by
  refine ⟨List.subset_append_left _ _, List.forall₂_map_right_iff.mpr (List.forall₂_same.mpr ?_)⟩
  intro row _
  constructor
  · intro c hMem
    refine Function.update_of_ne ?_ _ _
    rintro rfl
    exact hNew hMem
  · intro c hMem hNot
    obtain hOld | hColumn := List.mem_append.mp hMem
    · exact absurd hOld hNot
    · rw [List.mem_singleton.mp hColumn]
      exact Function.update_self _ _ _

theorem carried_project {content : TableContent C} {columns : List C}
    (h : ∀ c, c ∈ content.columns ↔ c ∈ columns) :
    Carried content ⟨columns, content.rows.map (project columns)⟩ := by
  refine ⟨fun c => (h c).mp, List.forall₂_map_right_iff.mpr (List.forall₂_same.mpr ?_)⟩
  intro row _
  constructor
  · intro c hMem
    exact if_pos ((h c).mp hMem)
  · intro c hMem hNot
    exact absurd ((h c).mpr hMem) hNot

theorem run_addColumns {name : T} {content : TableContent C} {added : List C}
    (h : db.tables name = some content) (hNew : ∀ c ∈ added, c ∉ content.columns)
    (hNodup : added.Nodup) :
    ∃ content', (added.map (.addColumn name)).foldlM Statement.run db =
        some (db.set name (some content')) ∧
      content'.columns = content.columns ++ added ∧ Carried content content' := by
  induction added generalizing db content with
  | nil =>
    refine ⟨content, ?_, (List.append_nil _).symm, carried_refl content⟩
    rw [Database.set, ← h, Function.update_eq_self]
    rfl
  | cons column added ih =>
    obtain ⟨hHead, hTail⟩ := List.nodup_cons.mp hNodup
    have hColumn := hNew column List.mem_cons_self
    have hStillNew : ∀ c ∈ added, c ∉ (content.addColumn column).columns := fun c hMem hOld => by
      obtain hContent | hAdded := List.mem_append.mp hOld
      · exact hNew c (List.mem_cons_of_mem _ hMem) hContent
      · exact hHead (List.mem_singleton.mp hAdded ▸ hMem)
    obtain ⟨content', hRun, hColumns, hCarried⟩ :=
      ih (tables_set_self db name (some (content.addColumn column))) hStillNew hTail
    refine ⟨content', ?_, ?_, (carried_addColumn hColumn).trans hCarried⟩
    · rw [List.map_cons, List.foldlM_cons, run_addColumn h hColumn]
      refine hRun.trans ?_
      simp only [Database.set, Function.update_idem]
    · rw [hColumns, TableContent.addColumn, List.append_assoc, List.singleton_append]

theorem foldlM_of_still {statements : List (Statement T C)}
    (h : ∀ statement ∈ statements, statement.run db = some db) :
    statements.foldlM Statement.run db = some db := by
  induction statements with
  | nil => rfl
  | cons statement statements ih =>
    rw [List.foldlM_cons, h statement List.mem_cons_self]
    exact ih fun other hMem => h other (List.mem_cons_of_mem _ hMem)

/-- A cut through two parts is one through the first, or one through the second after all of
the first. -/
theorem prefix_append_cases {α : Type} {l a b : List α} (h : l <+: a ++ b) :
    l <+: a ∨ ∃ rest, l = a ++ rest ∧ rest <+: b := by
  obtain hShort | ⟨rest, rfl⟩ := List.prefix_or_prefix_of_prefix h (List.prefix_append a b)
  · exact .inl hShort
  · exact .inr ⟨rest, rfl, (List.prefix_append_right_inj a).mp h⟩

end KalshiBot.Sqlite

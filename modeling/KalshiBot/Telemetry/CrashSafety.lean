import KalshiBot.Telemetry.Shapes

/-! # Interrupted openings of the telemetry database

Three stretches of `initialize` leave a database that no later call brings to the current
schema: from the second table of the rebuild of `latency_events` to its renaming, from
the first fill column to the version that records them, and, in a new file, from the
creation of `latency_events` to the version stamp. Everywhere else the next call resumes.
-/

namespace KalshiBot.Telemetry

open Sqlite

set_option autoImplicit false

/-- No file, or the shape of a schema version. -/
def Starting (db : TelemetryFile) : Prop :=
  (db.userVersion = 0 ∧ ∀ name, db.tables name = none) ∨ ∃ v ≤ schemaVersion, Shape v db

/-- A new call after the interruption succeeds, brings the database to the current schema and
keeps every row that was there. -/
def Recovers (db interruptedDb : TelemetryFile) : Prop :=
  (initializeDb interruptedDb).2 = true ∧
    (initializeDb interruptedDb).1.userVersion = schemaVersion ∧
      (∀ table, ∃ content, (initializeDb interruptedDb).1.tables (.of table) = some content ∧
        tableColumns table ⊆ content.columns) ∧
        Keeps db (initializeDb interruptedDb).1

/-- Where the first of the two steps is completed, so is the second. -/
def Together (first last : Step TableName Column) (completed : Steps) : Prop :=
  first ∈ completed → last ∈ completed

instance (first last : Step TableName Column) : DecidablePred (Together first last) :=
  fun _ => inferInstanceAs (Decidable (_ → _))

def Rebuilt : Steps → Prop :=
  Together (.run (.createTable .latencyEventsNew latencyColumns))
    (.run (.renameTable .latencyEventsNew (.of .latencyEvents)))

def FillColumnsRecorded : Steps → Prop :=
  Together (.run (.addColumn (.of .ordersFired) .fillCount)) (.run (.setUserVersion 2))

def Stamped : Steps → Prop :=
  Together (.run (.createTableIfNotExists (.of .latencyEvents) latencyColumns))
    (.run (.setUserVersion schemaVersion))

instance : DecidablePred Rebuilt := fun completed => inferInstanceAs (Decidable (Together _ _ completed))

instance : DecidablePred FillColumnsRecorded :=
  fun completed => inferInstanceAs (Decidable (Together _ _ completed))

/-- The interruption is in none of the three stretches. -/
def OutsideGaps (db : TelemetryFile) (completed : Steps) : Prop :=
  Rebuilt completed ∧ FillColumnsRecorded completed ∧ (hasTables db = false → Stamped completed)

variable {db db' mid : TelemetryFile} {completed rest tail : Steps} {v : ℕ}

def FillCountThere (db : TelemetryFile) : Prop :=
  ∃ content, db.tables (.of .ordersFired) = some content ∧ .fillCount ∈ content.columns

def FillCountMissing (db : TelemetryFile) : Prop :=
  ∃ content, db.tables (.of .ordersFired) = some content ∧ .fillCount ∉ content.columns

/-- A database that every later call leaves short of the current schema: with both tables of the
rebuild, with neither of them under its name, or with columns that are still to be added. -/
inductive Stuck (db : TelemetryFile) : Prop
  | half (hVersion : db.userVersion = 0) (hTables : hasTables db = true)
      (hNew : (db.tables .latencyEventsNew).isSome)
  | lost (hVersion : db.userVersion = 0) (hTables : hasTables db = false)
      (hOrders : FillCountMissing db)
  | widened (hVersion : db.userVersion ≤ 1) (hTables : hasTables db = true)
      (hOrders : FillCountThere db)

theorem initializeDb_snd (hTables : hasTables db = true) {v : ℕ} (hVersion : db.userVersion = v) :
    (initializeDb db).2 = (runSteps (initializeSteps true v) { committed := db }).2 := by
  rw [initializeDb, hTables, hVersion]

theorem unfinished_of_half (hVersion : db.userVersion = 0) (hTables : hasTables db = true)
    (hNew : (db.tables .latencyEventsNew).isSome) : (initializeDb db).2 = false := by
  have hSteps : initializeSteps true 0 =
      [.run .pragma, .run .pragma, .run .pragma, .begin, .commit] ++
        .run (.createTable .latencyEventsNew latencyColumns) ::
          (initializeSteps true 0).drop 6 := rfl
  rw [initializeDb_snd hTables hVersion, hSteps]
  refine unfinished_of_blocked (p := fun db : TelemetryFile => (db.tables .latencyEventsNew).isSome)
    ?_ ?_ hNew
  · intro earlier hMem db db' hStill hRun
    have hPragma : Step.run earlier = .run .pragma := by simpa using hMem
    cases hPragma
    cases hRun
    exact hStill
  · intro db hStill
    obtain ⟨content, hContent⟩ := Option.isSome_iff_exists.mp hStill
    simp only [Statement.run, hContent]

def beforeFillColumns (version : ℕ) : Steps :=
  (initializeSteps true version).takeWhile
    (· ≠ .run (.addColumn (.of .ordersFired) .fillCount))

theorem unfinished_of_widened (hVersion : db.userVersion ≤ 1) (hTables : hasTables db = true)
    (hOrders : FillCountThere db) : (initializeDb db).2 = false := by
  have hSteps : ∃ after, initializeSteps true db.userVersion = beforeFillColumns db.userVersion ++
      .run (.addColumn (.of .ordersFired) .fillCount) :: after := by
    generalize db.userVersion = v at hVersion
    interval_cases v
    · exact ⟨(initializeSteps true 0).drop 17, by decide +kernel⟩
    · exact ⟨(initializeSteps true 1).drop 6, by decide +kernel⟩
  have hSpares : ∀ step ∈ beforeFillColumns db.userVersion,
      step.spares (.of .ordersFired) = true := by
    generalize db.userVersion = v at hVersion
    interval_cases v <;> decide +kernel
  obtain ⟨after, hAfter⟩ := hSteps
  rw [initializeDb_snd hTables rfl, hAfter]
  refine unfinished_of_blocked (p := FillCountThere) ?_ ?_ hOrders
  · rintro earlier hMem db db' ⟨content, hContent, hHas⟩ hRun
    have hFrame := tables_of_run hRun (of_decide_eq_true (hSpares _ hMem))
    exact ⟨content, hFrame.trans hContent, hHas⟩
  · rintro db ⟨content, hContent, hHas⟩
    simp only [Statement.run, hContent, hHas, if_true]

theorem fillCount_missing_of_lost (hVersion : db.userVersion = 0) (hTables : hasTables db = false)
    (hOrders : FillCountMissing db) : FillCountMissing (initializeDb db).1 := by
  have hAdditive : ∀ step ∈ initializeSteps false 0, step.additive = true := by decide +kernel
  rw [initializeDb, hTables, hVersion]
  refine committed_of_kept (p := FillCountMissing) ?_ hOrders hOrders
  rintro statement hMem db db' ⟨content, hContent, hLacks⟩ hRun
  exact ⟨content, tables_of_additive (hAdditive _ hMem) hRun hContent, hLacks⟩

theorem Stuck.not_recovers (h : Stuck db') : ¬ Recovers db db' := by
  rintro ⟨hFinished, -, hColumns, -⟩
  cases h with
  | half hVersion hTables hNew =>
    cases (unfinished_of_half hVersion hTables hNew).symm.trans hFinished
  | widened hVersion hTables hOrders =>
    cases (unfinished_of_widened hVersion hTables hOrders).symm.trans hFinished
  | lost hVersion hTables hOrders =>
    obtain ⟨content, hContent, hLacks⟩ := fillCount_missing_of_lost hVersion hTables hOrders
    obtain ⟨content', hContent', hSubset⟩ := hColumns .ordersFired
    obtain rfl : content = content' := Option.some.inj (hContent.symm.trans hContent')
    exact hLacks (hSubset (by decide))

theorem Complete.subset (h : Complete db) (table : Table) : ∃ content,
    db.tables (.of table) = some content ∧ tableColumns table ⊆ content.columns := by
  obtain ⟨content, hContent, hColumns⟩ := h (.of table) (by cases table <;> decide)
  have hSchema : tableColumns table ⊆ schemaColumns (.of table) := by cases table <;> decide
  exact ⟨content, hContent, fun c hMem => (hColumns c).mpr (hSchema hMem)⟩

theorem recovers_of_upgraded {w : ℕ} (hLe : w ≤ schemaVersion) (h : Upgraded w db db') :
    Recovers db db' := by
  obtain ⟨final, hFinal, ⟨hShape, hCarries⟩, hComplete⟩ := initializeDb_of_shape hLe h.1
  rw [Recovers, hFinal]
  exact ⟨rfl, hShape.version_eq, hComplete.subset, (h.2.trans hCarries).keeps⟩

theorem together_of_mem {first last : Step TableName Column} (h : last ∈ completed) :
    Together first last completed := fun _ => h

theorem together_of_not_mem {first last : Step TableName Column} (h : first ∉ completed) :
    Together first last completed := fun hMem => absurd hMem h

theorem together_append {first last : Step TableName Column}
    (h : (last ∈ completed ∧ first ∉ tail) ∨ (first ∉ completed ∧ last ∉ completed))
    (hRest : rest <+: tail) : Together first last (completed ++ rest) ↔ Together first last rest := by
  obtain ⟨hLast, hFirst⟩ | ⟨hFirst, hLast⟩ := h
  · exact iff_of_true (together_of_mem (List.mem_append_left _ hLast))
      (together_of_not_mem fun hMem => hFirst (hRest.subset hMem))
  · rw [Together, List.mem_append, List.mem_append, or_iff_right hFirst, or_iff_right hLast, Together]

/-- What a cut leaves of a database in the shape of a version. -/
def Outcome (db : TelemetryFile) (completed : Steps) (db' : TelemetryFile) : Prop :=
  if Rebuilt completed ∧ FillColumnsRecorded completed then
    ∃ w ≤ schemaVersion, Upgraded w db db'
  else Stuck db'

def openRebuild : Step TableName Column := .run (.createTable .latencyEventsNew latencyColumns)

def closeRebuild : Step TableName Column :=
  .run (.renameTable .latencyEventsNew (.of .latencyEvents))

def openFillColumns : Step TableName Column := .run (.addColumn (.of .ordersFired) .fillCount)

def closeFillColumns : Step TableName Column := .run (.setUserVersion 2)

/-- Where a cut is in the steps that follow, it does not matter to these. -/
def Settled (completed tail : Steps) : Prop :=
  ((closeRebuild ∈ completed ∧ openRebuild ∉ tail) ∨
      (openRebuild ∉ completed ∧ closeRebuild ∉ completed)) ∧
    ((closeFillColumns ∈ completed ∧ openFillColumns ∉ tail) ∨
      (openFillColumns ∉ completed ∧ closeFillColumns ∉ completed))

instance (completed tail : Steps) : Decidable (Settled completed tail) :=
  inferInstanceAs (Decidable (_ ∧ _))

theorem Outcome.append (h : Outcome mid rest db') (hSettled : Settled completed tail)
    (hRest : rest <+: tail) (hCarries : Carries db mid) : Outcome db (completed ++ rest) db' := by
  have hIff : (Rebuilt (completed ++ rest) ∧ FillColumnsRecorded (completed ++ rest)) ↔
      (Rebuilt rest ∧ FillColumnsRecorded rest) :=
    and_congr (together_append hSettled.1 hRest) (together_append hSettled.2 hRest)
  rw [Outcome] at h ⊢
  rw [if_congr hIff rfl rfl]
  split at h
  next hClear =>
    obtain ⟨w, hLe, hShape, hCarries'⟩ := h
    rw [if_pos hClear]
    exact ⟨w, hLe, hShape, hCarries.trans hCarries'⟩
  next hGap =>
    rw [if_neg hGap]
    exact h

theorem Upgraded.outcome {w : ℕ} (h : Upgraded w db db') (hLe : w ≤ schemaVersion)
    (hRebuilt : Rebuilt completed) (hFill : FillColumnsRecorded completed) :
    Outcome db completed db' := by
  rw [Outcome, if_pos ⟨hRebuilt, hFill⟩]
  exact ⟨w, hLe, h⟩

theorem Stuck.outcome (h : Stuck db') (hGap : ¬ (Rebuilt completed ∧ FillColumnsRecorded completed)) :
    Outcome db completed db' := by
  rw [Outcome, if_neg hGap]
  exact h

theorem Shape.upgraded (h : Shape v db) : Upgraded v db db :=
  ⟨h, carries_of_tables fun _ _ hContent => hContent⟩

theorem cuts_outcome {steps : Steps} (hLe : v ≤ schemaVersion)
    (hClear : openRebuild ∉ steps ∧ openFillColumns ∉ steps)
    (h : Cuts steps db fun _ db' => Upgraded v db db' ∨ Upgraded (v + 1) db db' ∧ v < schemaVersion) :
    Cuts steps db (Outcome db) := by
  refine h.mono fun completed db' hPrefix hUpgraded => ?_
  have hRebuilt : Rebuilt completed := together_of_not_mem fun hMem => hClear.1 (hPrefix.subset hMem)
  have hFill : FillColumnsRecorded completed :=
    together_of_not_mem fun hMem => hClear.2 (hPrefix.subset hMem)
  obtain hOld | ⟨hNew, hLt⟩ := hUpgraded
  · exact hOld.outcome hLe hRebuilt hFill
  · exact hNew.outcome hLt hRebuilt hFill

theorem cuts_upgrade {statements : List (Statement TableName Column)} (hLt : v < schemaVersion)
    (h : Shape v db) (hUpgrade : ∃ db', statements.foldlM Statement.run db = some db' ∧
      Upgraded (v + 1) db db')
    (hClear : openRebuild ∉ .begin :: statements.map Step.run ++ [.commit] ∧
      openFillColumns ∉ .begin :: statements.map Step.run ++ [.commit]) :
    Cuts (.begin :: statements.map .run ++ [.commit]) db (Outcome db) := by
  obtain ⟨db', hRun, hUpgraded⟩ := hUpgrade
  exact cuts_outcome hLt.le hClear
    (cuts_transaction hRun (fun _ _ => .inl h.upgraded) (.inr ⟨hUpgraded, hLt⟩))

theorem cuts_rebuild (h : Shape 0 db) : Cuts (nextMigration 0) db (Outcome db) := by
  obtain ⟨made, copied, dropped, renamed, hRebuild⟩ := exists_rebuild h
  obtain ⟨hMadeVersion, hCopiedVersion, hDroppedVersion⟩ := hRebuild.version_eq
  have hMadeTables : hasTables made = true := by
    rw [hasTables, tables_of_run hRebuild.create (by decide)]
    exact h.hasTables
  have hCopiedTables : hasTables copied = true := by
    rw [hasTables, tables_of_run hRebuild.copy (by decide)]
    exact hMadeTables
  have hOrders : FillCountMissing dropped := by
    obtain ⟨content, hContent⟩ := Option.isSome_iff_exists.mp
      (h.required (.of .ordersFired) (by decide))
    refine ⟨content, ?_, ?_⟩
    · rw [tables_of_run hRebuild.drop (by decide), tables_of_run hRebuild.copy (by decide),
        tables_of_run hRebuild.create (by decide), hContent]
    · rw [h.columns _ content hContent]
      decide
  have hDroppedTables : hasTables dropped = false := by
    rw [hasTables, hRebuild.lost]
    rfl
  have hUpgraded := hRebuild.upgraded
  have hIndexes := run_rebuildIndexes hUpgraded.1
  change Cuts (.begin :: .commit :: openRebuild ::
    .run (.copyRows (.of .latencyEvents) .latencyEventsNew latencyColumns) ::
      .run (.dropTable (.of .latencyEvents)) :: closeRebuild ::
        (rebuildIndexes.map .run ++ [.run (.setUserVersion 1), .commit])) db (Outcome db)
  refine cuts_emptyTransaction (h.upgraded.outcome (by decide) (by decide) (by decide))
    (h.upgraded.outcome (by decide) (by decide) (by decide)) ?_
  refine cuts_cons (h.upgraded.outcome (by decide) (by decide) (by decide))
    (leads_run hRebuild.create) ?_
  refine cuts_cons (Stuck.outcome (.half hMadeVersion hMadeTables hRebuild.half.1) (by decide))
    (leads_run hRebuild.copy) ?_
  refine cuts_cons (Stuck.outcome (.half hCopiedVersion hCopiedTables hRebuild.half.2) (by decide))
    (leads_run hRebuild.drop) ?_
  refine cuts_cons (Stuck.outcome (.lost hDroppedVersion hDroppedTables hOrders) (by decide))
    (leads_run hRebuild.rename) ?_
  refine (cuts_still hIndexes fun completed hPrefix => ?_).append
    (leads_runs (foldlM_of_still hIndexes)) ?_
  · refine hUpgraded.outcome (by decide) (together_of_mem ?_) (together_of_not_mem fun hMem => ?_)
    · exact List.mem_append_left completed
        (show closeRebuild ∈ [.begin, .commit, openRebuild, _, _, closeRebuild] by simp)
    · have hHere : openFillColumns ∈ nextMigration 0 :=
        List.mem_append_left [.run (.setUserVersion 1), .commit]
          ((List.prefix_append_right_inj [.begin, .commit, openRebuild, _, _, closeRebuild]).mpr
            hPrefix |>.subset hMem)
      exact absurd hHere (by decide)
  · have hStamp : Leads [.run (.setUserVersion 1)] renamed { renamed with userVersion := 1 } :=
      leads_run rfl
    refine cuts_cons (hUpgraded.outcome (by decide) (by decide) (by decide)) hStamp ?_
    have hStamped : Upgraded 1 db { renamed with userVersion := 1 } :=
      ⟨hUpgraded.1.stampOne, hUpgraded.2⟩
    refine cuts_cons (hStamped.outcome (by decide) (by decide) (by decide)) (leads_commit _) ?_
    exact cuts_nil (hStamped.outcome (by decide) (by decide) (by decide))

theorem stuck_of_widened {content : TableContent Column} (h : Shape 1 db)
    (hHas : .fillCount ∈ content.columns) : Stuck (db.set (.of .ordersFired) (some content)) := by
  refine .widened h.version_eq.le ?_ ⟨content, tables_set_self _ _ _, hHas⟩
  rw [hasTables, tables_set_of_ne (by decide)]
  exact h.hasTables

theorem cuts_fillColumns (h : Shape 1 db) : Cuts (nextMigration 1) db (Outcome db) := by
  obtain ⟨content, hContent⟩ := Option.isSome_iff_exists.mp
    (h.required (.of .ordersFired) (by decide))
  have hAbsent : ∀ c ∈ fillColumns, c ∉ content.columns := by
    intro c hMem
    rw [h.columns _ content hContent]
    revert c
    decide
  obtain ⟨widened, hRun, hColumns, hCarried⟩ := run_addColumns hContent hAbsent (by decide)
  obtain ⟨db', hRun', hUpgraded⟩ := upgraded_fillColumns h
  rw [addTo, List.foldlM_append, hRun] at hRun'
  change Cuts (.begin :: .commit :: ((fillColumns.map (.addColumn (.of .ordersFired))).map .run ++
    [closeFillColumns, .commit])) db (Outcome db)
  refine cuts_emptyTransaction (h.upgraded.outcome (by decide) (by decide) (by decide))
    (h.upgraded.outcome (by decide) (by decide) (by decide)) ?_
  refine Cuts.append (cuts_addColumns hContent hAbsent (by decide) ?_) (leads_runs hRun) ?_
  · intro done content' hDone hColumns' hCarried'
    obtain rfl | ⟨rest, rfl, -⟩ := List.prefix_cons_iff.mp hDone
    · have hShape : Shape 1 (db.set (.of .ordersFired) (some content')) :=
        h.change h.version_eq (fun other hOther => tables_set_of_ne hOther _) (fun _ _ => rfl)
          (tables_set_self _ _ _)
          (fun c => by rw [hColumns', List.append_nil, h.columns _ content hContent]) (by decide)
      have hCarries := carries_of_change (fun other hOther => tables_set_of_ne hOther _) hContent
        (tables_set_self _ _ _) hCarried'
      exact Upgraded.outcome ⟨hShape, hCarries⟩ (by decide) (by decide) (by decide)
    · have hHas : .fillCount ∈ content'.columns := by
        rw [hColumns']
        exact List.mem_append_right _ List.mem_cons_self
      refine (stuck_of_widened h hHas).outcome fun hBoth => ?_
      have hClosed : closeFillColumns ∈ _ := hBoth.2 (by simp)
      simp [closeFillColumns] at hClosed
  · have hHas : .fillCount ∈ widened.columns := by
      rw [hColumns]
      exact List.mem_append_right _ (by decide)
    refine cuts_cons ((stuck_of_widened h hHas).outcome (by decide)) (leads_run hRun') ?_
    refine cuts_cons (hUpgraded.outcome (by decide) (by decide) (by decide)) (leads_commit _) ?_
    exact cuts_nil (hUpgraded.outcome (by decide) (by decide) (by decide))

theorem cuts_nextMigration (hLt : v < schemaVersion) (h : Shape v db) :
    Cuts (nextMigration v) db (Outcome db) := by
  have hBound : v < 6 := hLt
  interval_cases v
  · exact cuts_rebuild h
  · exact cuts_fillColumns h
  · exact cuts_upgrade hLt h (upgraded_correlationGroup h) (by decide)
  · exact cuts_upgrade hLt h (upgraded_netPnl h) (by decide)
  · exact cuts_upgrade hLt h (upgraded_postOnly h) (by decide)
  · exact cuts_upgrade hLt h (upgraded_fills h) (by decide)

theorem cuts_schemaSql (h : Shape schemaVersion db) :
    Cuts (executescript schemaSql ++ [.commit]) db fun _ db' => Upgraded schemaVersion db db' := by
  have hCurrent : ∀ name ∈ schemaTables, Current db name := fun name _ => h.current name
  have hUpgraded : ∀ made, made <+: schemaTables → Upgraded schemaVersion db (ensureAll db made) :=
    fun made hMade => ⟨h.ensureSchema hMade, carries_ensureAll⟩
  change Cuts (.commit :: .run .pragma ::
    ((schemaTables.flatMap createWithIndexes).map .run ++ [.commit])) db _
  refine cuts_cons h.upgraded (leads_commit db) (cuts_cons h.upgraded (leads_pragma db) ?_)
  refine Cuts.append ((cuts_schemaTables hCurrent).mono ?_) (leads_runs (run_schemaTables hCurrent)) ?_
  · rintro completed db' - ⟨made, hMade, rfl, -⟩
    exact hUpgraded made hMade
  · exact cuts_cons (hUpgraded _ (List.prefix_refl _)) (leads_commit _)
      (cuts_nil (hUpgraded _ (List.prefix_refl _)))

def closing : Steps := .run .pragma :: (executescript schemaSql ++ [.commit])

theorem cuts_pendingMigrations (hLe : v ≤ schemaVersion) (h : Shape v db) :
    Cuts (pendingMigrations v ++ closing) db (Outcome db) := by
  induction hLe using Nat.decreasingInduction generalizing db with
  | self =>
    exact cuts_outcome le_rfl (by decide +kernel)
      (cuts_cons (.inl h.upgraded) (leads_pragma db)
        ((cuts_schemaSql h).mono fun _ _ _ hUpgraded => .inl hUpgraded))
  | of_succ v hLt ih =>
    obtain ⟨mid, hMid, hShape, hCarries⟩ := leads_migration hLt h
    have hSettled : Settled (nextMigration v) (pendingMigrations (v + 1) ++ closing) := by
      change v < 6 at hLt
      interval_cases v <;> decide +kernel
    rw [pendingMigrations_of_lt hLt, List.append_assoc]
    exact (cuts_nextMigration hLt h).append hMid ((ih hShape).mono fun completed db' hPrefix hOutcome =>
      hOutcome.append hSettled hPrefix hCarries)

theorem cuts_initialize (hLe : v ≤ schemaVersion) (h : Shape v db) :
    Cuts (initializeSteps true v) db (Outcome db) := by
  obtain hLt | rfl := hLe.lt_or_eq
  · have hSteps : initializeSteps true v =
        .run .pragma :: .run .pragma :: .run .pragma :: (pendingMigrations v ++ closing) := by
      change v < 6 at hLt
      interval_cases v <;> rfl
    have hPrefixed : ∀ pragmas : Steps, Settled pragmas (pendingMigrations v ++ closing) →
        Cuts (pendingMigrations v ++ closing) db fun completed => Outcome db (pragmas ++ completed) :=
      fun pragmas hSettled => (cuts_pendingMigrations hLe h).mono fun completed db' hPrefix hOutcome =>
        hOutcome.append hSettled hPrefix h.upgraded.2
    rw [hSteps]
    refine cuts_cons (h.upgraded.outcome hLe (by decide) (by decide)) (leads_pragma db) ?_
    refine cuts_cons (h.upgraded.outcome hLe (by decide) (by decide)) (leads_pragma db) ?_
    refine cuts_cons (h.upgraded.outcome hLe (by decide) (by decide)) (leads_pragma db) ?_
    exact hPrefixed [.run .pragma, .run .pragma, .run .pragma] ⟨.inr (by decide), .inr (by decide)⟩
  · refine cuts_outcome le_rfl (by decide +kernel) ?_
    refine cuts_cons (.inl h.upgraded) (leads_pragma db) ?_
    refine cuts_cons (.inl h.upgraded) (leads_pragma db) ?_
    exact (cuts_schemaSql h).mono fun _ _ _ hUpgraded => .inl hUpgraded

theorem recovers_iff_of_shape (hLe : v ≤ schemaVersion) (h : Shape v db)
    (hCompleted : completed <+: initializeSteps true v) :
    Recovers db (interrupted db completed) ↔ OutsideGaps db completed := by
  obtain ⟨db', hLeaves, hOutcome⟩ := cuts_initialize hLe h completed hCompleted
  have hLeft : interrupted db completed = db' := hLeaves _ ⟨rfl, rfl⟩
  rw [hLeft]
  have hGaps : OutsideGaps db completed ↔ Rebuilt completed ∧ FillColumnsRecorded completed := by
    rw [OutsideGaps, h.hasTables]
    simp
  rw [hGaps]
  rw [Outcome] at hOutcome
  split at hOutcome
  next hClear =>
    obtain ⟨w, hW, hUpgraded⟩ := hOutcome
    exact iff_of_true (recovers_of_upgraded hW hUpgraded) hClear
  next hGap => exact iff_of_false hOutcome.not_recovers hGap

def NewFile (db : TelemetryFile) : Prop := db.userVersion = 0 ∧ ∀ name, db.tables name = none

theorem NewFile.current (h : NewFile db) (name : TableName) : Current db name := by
  intro content hContent
  cases (h.2 name).symm.trans hContent

theorem NewFile.hasTables_ensureAll (h : NewFile db) (names : List TableName) :
    hasTables (ensureAll db names) = decide (.of .latencyEvents ∈ names) := by
  rw [hasTables, tables_ensureAll, h.2]
  split
  next hMem => exact (decide_eq_true hMem).symm
  next hNot => exact (decide_eq_false hNot).symm

theorem NewFile.keeps (h : NewFile db) : Keeps db db' := by
  intro name content hContent
  cases (h.2 name).symm.trans hContent

theorem leads_newFile (hCurrent : ∀ name ∈ schemaTables, Current db name) :
    Leads (initializeSteps false 0) db
      { ensureAll db schemaTables with userVersion := schemaVersion } :=
  (((leads_pragma db).append (leads_pragma db)).append
    ((leads_schemaSql hCurrent).append (leads_run rfl))).append (leads_commit _)

theorem NewFile.recovers_of_partial (h : NewFile db) {made : List TableName}
    (hNot : .of .latencyEvents ∉ made) : Recovers db (ensureAll db made) := by
  have hCurrent : ∀ name ∈ schemaTables, Current (ensureAll db made) name :=
    fun name _ => (h.current name).ensureAll _
  have hFinal : initializeDb (ensureAll db made) =
      ({ ensureAll (ensureAll db made) schemaTables with userVersion := schemaVersion }, true) := by
    refine initializeDb_of_leads ?_
    rw [h.hasTables_ensureAll, decide_eq_false hNot, userVersion_ensureAll, h.1]
    exact leads_newFile hCurrent
  rw [Recovers, hFinal]
  exact ⟨rfl, rfl, (complete_ensureAll hCurrent).subset, h.keeps⟩

theorem NewFile.shape (h : NewFile db) :
    Shape schemaVersion { ensureAll db schemaTables with userVersion := schemaVersion } where
  version_eq := rfl
  required name hMem := by
    obtain ⟨content, hContent, -⟩ := complete_ensureAll (fun name _ => h.current name) name
      ((by decide : _ ⊆ schemaTables) hMem)
    exact Option.isSome_iff_exists.mpr ⟨content, hContent⟩
  columns name content hContent := by
    rw [columnsAt_schemaVersion]
    exact (h.current name).ensureAll _ content hContent
  no_rebuild := by
    change (ensureAll db schemaTables).tables _ = none
    rw [tables_ensureAll, if_neg (by decide), h.2]

theorem ordersFired_mem_of_made {made : List TableName} (hMade : made <+: schemaTables)
    (hMem : .of .latencyEvents ∈ made) : .of .ordersFired ∈ made := by
  obtain ⟨k, rfl⟩ : ∃ k, made = schemaTables.take k := ⟨_, List.prefix_iff_eq_take.mp hMade⟩
  by_cases hShort : k ≤ 9
  · revert hMem
    interval_cases k <;> decide
  · rw [List.take_of_length_le (show schemaTables.length ≤ k by change 9 ≤ k; omega)]
    decide

theorem NewFile.stuck (h : NewFile db) {made : List TableName} (hMade : made <+: schemaTables)
    (hMem : .of .latencyEvents ∈ made) : Stuck (ensureAll db made) := by
  refine .widened (userVersion_ensureAll.trans h.1 |>.le.trans (by decide)) ?_
    ⟨⟨schemaColumns (.of .ordersFired), []⟩, ?_, by decide⟩
  · rw [h.hasTables_ensureAll, decide_eq_true hMem]
  · rw [tables_ensureAll, if_pos (ordersFired_mem_of_made hMade hMem), h.2]
    rfl

def stamp : Step TableName Column := .run (.setUserVersion schemaVersion)

def NewFileOutcome (db : TelemetryFile) (completed : Steps) (db' : TelemetryFile) : Prop :=
  (stamp ∈ completed ∧ Shape schemaVersion db') ∨
    (stamp ∉ completed ∧ ∃ made, made <+: schemaTables ∧ db' = ensureAll db made ∧
      (created (.of .latencyEvents) ∈ completed ↔ .of .latencyEvents ∈ made))

theorem NewFile.cuts (h : NewFile db) : Cuts (initializeSteps false 0) db (NewFileOutcome db) := by
  have hCurrent : ∀ name ∈ schemaTables, Current db name := fun name _ => h.current name
  have hStart : ∀ completed : Steps, stamp ∉ completed → created (.of .latencyEvents) ∉ completed →
      NewFileOutcome db completed db := fun completed hStamp hCreated =>
    .inr ⟨hStamp, [], List.nil_prefix, rfl, iff_of_false hCreated List.not_mem_nil⟩
  change Cuts (.run .pragma :: .run .pragma :: .commit :: .run .pragma ::
    ((schemaTables.flatMap createWithIndexes).map .run ++ [stamp, .commit])) db _
  refine cuts_cons (hStart _ (by decide) (by decide)) (leads_pragma db) ?_
  refine cuts_cons (hStart _ (by decide) (by decide)) (leads_pragma db) ?_
  refine cuts_cons (hStart _ (by decide) (by decide)) (leads_commit db) ?_
  refine cuts_cons (hStart _ (by decide) (by decide)) (leads_pragma db) ?_
  refine Cuts.append ((cuts_schemaTables hCurrent).mono ?_) (leads_runs (run_schemaTables hCurrent)) ?_
  · rintro completed db' hPrefix ⟨made, hMade, rfl, hCreated⟩
    have hStamp : stamp ∉ (schemaTables.flatMap createWithIndexes).map Step.run := by decide +kernel
    have hRest : ∀ step, step ∉ [.run .pragma, .run .pragma, .commit, .run .pragma] →
        (step ∈ .run .pragma :: .run .pragma :: .commit :: .run .pragma :: completed ↔
          step ∈ completed) := fun step hNot =>
      List.mem_append.trans (or_iff_right hNot)
    refine .inr ⟨?_, made, hMade, rfl, ?_⟩
    · rw [hRest _ (by decide)]
      exact fun hMem => hStamp (hPrefix.subset hMem)
    · rw [hRest _ (by decide), hCreated]
  · have hDone : schemaTables <+: schemaTables := List.prefix_refl _
    refine cuts_cons (.inr ⟨by decide +kernel, schemaTables, hDone, rfl, ?_⟩) (leads_run rfl) ?_
    · exact iff_of_true (by decide +kernel) (by decide)
    · refine cuts_cons (.inl ⟨by decide +kernel, h.shape⟩) (leads_commit _) ?_
      exact cuts_nil (.inl ⟨by decide +kernel, h.shape⟩)

theorem recovers_iff_of_newFile (h : NewFile db) (hCompleted : completed <+: initializeSteps false 0) :
    Recovers db (interrupted db completed) ↔ OutsideGaps db completed := by
  obtain ⟨db', hLeaves, hOutcome⟩ := h.cuts completed hCompleted
  have hLeft : interrupted db completed = db' := hLeaves _ ⟨rfl, rfl⟩
  have hRebuilt : Rebuilt completed := together_of_not_mem fun hMem =>
    absurd (hCompleted.subset hMem) (by decide +kernel)
  have hFill : FillColumnsRecorded completed := together_of_not_mem fun hMem =>
    absurd (hCompleted.subset hMem) (by decide +kernel)
  have hTables : hasTables db = false := by
    rw [hasTables, h.2]
    rfl
  have hGaps : OutsideGaps db completed ↔ Stamped completed :=
    ⟨fun hOutside => hOutside.2.2 hTables, fun hStamped => ⟨hRebuilt, hFill, fun _ => hStamped⟩⟩
  rw [hLeft, hGaps]
  obtain ⟨hStamp, hShape⟩ | ⟨hStamp, made, hMade, rfl, hCreated⟩ := hOutcome
  · have hRecovers := recovers_of_upgraded le_rfl hShape.upgraded
    exact iff_of_true ⟨hRecovers.1, hRecovers.2.1, hRecovers.2.2.1, h.keeps⟩ (together_of_mem hStamp)
  · by_cases hMem : .of .latencyEvents ∈ made
    · exact iff_of_false (h.stuck hMade hMem).not_recovers fun hStamped =>
        hStamp (hStamped (hCreated.mpr hMem))
    · exact iff_of_true (h.recovers_of_partial hMem)
        (together_of_not_mem fun hCompletedMem => hMem (hCreated.mp hCompletedMem))

theorem recovers_iff {db : TelemetryFile} (hStart : Starting db) {completed : Steps}
    (hCompleted : completed <+: initializeSteps (hasTables db) db.userVersion) :
    Recovers db (interrupted db completed) ↔ OutsideGaps db completed := by
  obtain hNew | ⟨v, hLe, hShape⟩ := hStart
  · have hTables : hasTables db = false := by
      rw [hasTables, hNew.2]
      rfl
    rw [hTables, hNew.1] at hCompleted
    exact recovers_iff_of_newFile hNew hCompleted
  · rw [hShape.hasTables, hShape.version_eq] at hCompleted
    exact recovers_iff_of_shape hLe hShape hCompleted

def oldCorrelation : Sqlite.Row Column
  | .correlationId => .text "c1"
  | .createdAtMs => .integer 1
  | _ => .null

def oldOrder : Sqlite.Row Column
  | .id => .integer 1
  | .correlationId => .text "c1"
  | .clientOrderId => .text "o1"
  | .ticker => .text "T"
  | .outcomeSide => .text "yes"
  | .count => .text "1.00"
  | .priceDollars => .text "0.5000"
  | .timeInForce => .text "fill_or_kill"
  | .selfTradePreventionType => .text "taker_at_cross"
  | .status => .text "submitted"
  | .requestedAtMs => .integer 1
  | .createdAtMs => .integer 1
  | _ => .null

def versionOne : TelemetryFile where
  tables
    | .of .ordersFired => some ⟨columnsAt 1 (.of .ordersFired), [oldOrder]⟩
    | .of .latencyEvents => some ⟨latencyColumns, []⟩
    | .correlations => some ⟨schemaColumns .correlations, [oldCorrelation]⟩
    | _ => none
  userVersion := 1

theorem versionOne_starting : Starting versionOne := by
  refine .inr ⟨1, by decide, rfl, by decide, ?_, rfl⟩
  rintro (table | _ | _) content hContent c
  · cases table <;> cases hContent
    · rfl
    · cases c <;> decide
  · cases hContent
    cases c <;> decide
  · cases hContent

def upToFillCount : Steps := (initializeSteps true 1).take 6

theorem versionOne_stuck_after_first_fill_column : Starting versionOne ∧
    upToFillCount <+: initializeSteps (hasTables versionOne) versionOne.userVersion ∧
      ¬ Recovers versionOne (interrupted versionOne upToFillCount) := by
  refine ⟨versionOne_starting, List.take_prefix _ _, fun h => ?_⟩
  have hRaises : (initializeDb (interrupted versionOne upToFillCount)).2 = false := by decide +kernel
  cases hRaises.symm.trans h.1

theorem versionOne_recovers_after_begin :
    Recovers versionOne (interrupted versionOne ((initializeSteps true 1).take 4)) :=
  (recovers_iff versionOne_starting (List.take_prefix 4 (initializeSteps true 1))).mpr
    ⟨by decide, by decide, nofun⟩

end KalshiBot.Telemetry

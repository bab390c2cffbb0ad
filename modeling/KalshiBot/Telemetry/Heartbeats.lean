import KalshiBot.Library.LatestRows
import KalshiBot.Telemetry.FillOffers

/-! # The rows of the heartbeats

Each process beats under its own name, and a beat replaces the one before. What the table shows
of a process is the last of its beats that the writer thread has written.
-/

namespace KalshiBot.Telemetry

open PythonText Sqlite Library Runs

set_option autoImplicit false

/-- The row that `record_heartbeat` puts. -/
def heartbeatRow (process : String) (pid startedAtMs beatAtMs : ℤ) (queueDepth droppedRows : ℕ) :
    Row
  | .process => .str process
  | .pid => .int pid
  | .startedAtMs => .int startedAtMs
  | .beatAtMs => .int beatAtMs
  | .queueDepth => .int queueDepth
  | .droppedRows => .int droppedRows
  | _ => .null

def heartbeatJob (process : String) (pid startedAtMs beatAtMs : ℤ) (queueDepth droppedRows : ℕ) :
    WriteJob where
  table := .insertInto .heartbeats
  row := heartbeatRow process pid startedAtMs beatAtMs queueDepth droppedRows

variable (driver : Driver)

/-- The row that a job offers to `heartbeats`. -/
def beatOffer (job : WriteJob) : Option (Sqlite.Row Column) :=
  if job.table = .insertInto .heartbeats ∧ driver.jobError job = none then
    (driver.bindRow (tableColumns .heartbeats) job.row).toOption
  else none

/-- The beats that satisfy the constraints of `heartbeats`, in the order of the jobs. -/
def validBeats (jobs : List WriteJob) : List (Sqlite.Row Column) :=
  (jobs.filterMap (beatOffer driver)).filter (constraints driver.castText .heartbeats).admits

variable {driver} {s : Store} {job : WriteJob}

theorem beatOffer_of_bound {bound : Sqlite.Row Column} (hTable : job.table = .insertInto .heartbeats)
    (h : driver.jobError job = none)
    (hBound : driver.bindRow (tableColumns .heartbeats) job.row = .ok bound) :
    beatOffer driver job = some bound := by
  rw [beatOffer, if_pos ⟨hTable, h⟩, hBound]
  rfl

theorem beatOffer_of_error {error : WriteError} (h : driver.jobError job = some error) :
    beatOffer driver job = none := by
  rw [beatOffer, if_neg]
  rintro ⟨-, hNone⟩
  cases hNone.symm.trans h

theorem target_ne_heartbeats (h : job.table ≠ .insertInto .heartbeats) :
    Table.heartbeats ≠ job.table.target := by
  obtain ⟨table, row⟩ := job
  cases table with
  | insertInto table => exact fun hTable => h (congrArg JobTable.insertInto hTable.symm)
  | orderResolution => exact fun hTable => by cases hTable

theorem rows_writeBound_heartbeats (mid : Store) (bound : Sqlite.Row Column) :
    ((writeBound .heartbeats (jobStatement driver.castText (.insertInto .heartbeats)) mid
        bound).toOption.getD s).rows .heartbeats =
      if (constraints driver.castText .heartbeats).admits bound then
        replaceIn (constraints driver.castText .heartbeats) (mid.rows .heartbeats) bound
      else s.rows .heartbeats := by
  have hHolds : referenceHolds .heartbeats mid bound = true := rfl
  have hStatement : jobStatement driver.castText (.insertInto .heartbeats) =
      insertOrReplace (constraints driver.castText .heartbeats) := rfl
  rw [writeBound_toOption, hStatement, hHolds]
  cases hAdmits : (constraints driver.castText .heartbeats).admits bound with
  | true =>
    rw [replaceIn_of_admits hAdmits, insertOrReplace, hAdmits]
    exact Function.update_self Table.heartbeats _ mid.rows
  | false =>
    rw [insertOrReplace, hAdmits]
    rfl

theorem heartbeats_keep (s : Store) (job : WriteJob) :
    (Connection.keep (Connection.accepting driver.insert) s job).rows .heartbeats =
      (beatOffer driver job).toList.foldl
        (replaceIn (constraints driver.castText .heartbeats)) (s.rows .heartbeats) := by
  cases hError : driver.jobError job with
  | some error =>
    rw [keep_of_insert_error (Driver.insert_of_jobError hError), beatOffer_of_error hError]
    rfl
  | none =>
    obtain ⟨mid, bound, -, hMid, hBound, hInsert⟩ := @Driver.insert_of_bound driver s job hError
    by_cases hTable : job.table = .insertInto .heartbeats
    · obtain ⟨table, row⟩ := job
      subst hTable
      rw [beatOffer_of_bound rfl hError hBound, Connection.keep, Connection.accepting, hInsert]
      change ((writeBound .heartbeats (jobStatement driver.castText (.insertInto .heartbeats)) mid
        bound).toOption.getD s).rows .heartbeats = _
      rw [rows_writeBound_heartbeats, hMid]
      cases hAdmits : (constraints driver.castText .heartbeats).admits bound with
      | true => rfl
      | false => exact (replaceIn_of_refused hAdmits).symm
    · have hOffer : beatOffer driver job = none := if_neg fun hBoth => hTable hBoth.1
      rw [hOffer, Connection.keep, Connection.accepting, hInsert]
      cases hWrite : writeBound job.table.target (jobStatement driver.castText job.table) mid bound with
      | error error => rfl
      | ok s' =>
        exact (rows_writeBound_of_ne (target_ne_heartbeats hTable) hWrite).trans (by rw [hMid]; rfl)

theorem heartbeats_keeps (s : Store) (jobs : List WriteJob) :
    (jobs.foldl (Connection.keep (Connection.accepting driver.insert)) s).rows .heartbeats =
      (jobs.filterMap (beatOffer driver)).foldl
        (replaceIn (constraints driver.castText .heartbeats)) (s.rows .heartbeats) := by
  induction jobs generalizing s with
  | nil => rfl
  | cons job jobs ih =>
    rw [List.foldl_cons, ih, heartbeats_keep, List.filterMap_cons]
    cases beatOffer driver job <;> rfl

/-- Under each name there is the last valid beat, or what was there before the first. -/
def LatestBeats (driver : Driver) (old : List (Sqlite.Row Column)) (jobs : List WriteJob)
    (rows : List (Sqlite.Row Column)) : Prop :=
  ∀ process, process ≠ .null → rowsWith .process process rows =
    latest (rowsWith .process process old) (rowsWith .process process (validBeats driver jobs))

theorem latestBeats_keeps (s : Store) (jobs : List WriteJob) :
    LatestBeats driver (s.rows .heartbeats) jobs
      ((jobs.foldl (Connection.keep (Connection.accepting driver.insert)) s).rows
        .heartbeats) := by
  intro process hNamed
  have hUnique : (constraints driver.castText .heartbeats).unique = some .process := rfl
  rw [heartbeats_keeps]
  exact rowsWith_replaceIns hUnique hNamed _

/-- A beat of the loop is valid wherever its name can be encoded and its numbers be bound. -/
theorem beat_valid {process : String} {pid startedAtMs beatAtMs : ℤ} {queueDepth droppedRows : ℕ}
    (hName : driver.encodes process = true)
    (hNumbers : ∀ number ∈ [pid, startedAtMs, beatAtMs, (queueDepth : ℤ), (droppedRows : ℤ)],
      InRange number)
    (hStored : ∀ column value, value ≠ .null → driver.affinity column value ≠ .null) :
    ∃ row, beatOffer driver (heartbeatJob process pid startedAtMs beatAtMs queueDepth droppedRows) =
        some row ∧
      (constraints driver.castText .heartbeats).admits row ∧
        row .process = driver.affinity .process (.text process) ∧
          row .beatAtMs = driver.affinity .beatAtMs (.integer beatAtMs) := by
  have hInt : ∀ number : ℤ, InRange number → driver.bindError (.int number) = none :=
    fun _ hRange => if_pos hRange
  have hValue : ∀ number : ℤ, InRange number → bindValue (.int number) = some (.integer number) :=
    fun _ hRange => if_pos hRange
  simp only [List.forall_mem_cons] at hNumbers
  obtain ⟨hPid, hStarted, hBeat, hDepth, hDropped, -⟩ := hNumbers
  have hError : ∀ column, driver.bindError
      (heartbeatRow process pid startedAtMs beatAtMs queueDepth droppedRows column) = none := by
    intro column
    cases column with
    | process => exact if_pos hName
    | pid => exact hInt _ hPid
    | startedAtMs => exact hInt _ hStarted
    | beatAtMs => exact hInt _ hBeat
    | queueDepth => exact hInt _ hDepth
    | droppedRows => exact hInt _ hDropped
    | _ => rfl
  have hKept : ∀ (column : Column) (number : ℤ), InRange number →
      driver.stored column (.int number) = driver.affinity column (.integer number) := by
    intro column number hRange
    rw [Driver.stored, hValue number hRange, Option.getD_some]
  refine ⟨_, beatOffer_of_bound rfl ?_ (Driver.bindRow_of_bound ?_), ?_, rfl, ?_⟩
  · exact List.findSome?_eq_none_iff.mpr fun column _ => hError column
  · exact List.findSome?_eq_none_iff.mpr fun column _ => hError column
  · have hNotNull : ∀ (column : Column) (number : ℤ), InRange number →
        driver.stored column (.int number) ≠ .null := by
      intro column number hRange
      rw [hKept column number hRange]
      exact hStored column _ (by rintro ⟨⟩)
    have hAll : ∀ column ∈ notNull .heartbeats, driver.stored column
        (heartbeatRow process pid startedAtMs beatAtMs queueDepth droppedRows column) ≠ .null := by
      simp only [notNull, List.forall_mem_cons]
      exact ⟨hNotNull _ _ hPid, hNotNull _ _ hStarted, hNotNull _ _ hBeat, hNotNull _ _ hDepth,
        hNotNull _ _ hDropped, List.forall_mem_nil _⟩
    have hColumns : ∀ column ∈ notNull .heartbeats, column ∈ tableColumns .heartbeats := by
      decide
    refine Bool.and_eq_true_iff.mpr ⟨List.all_eq_true.mpr fun column hColumn => ?_, rfl⟩
    refine decide_eq_true ?_
    dsimp only
    rw [if_pos (hColumns column hColumn)]
    exact hAll column hColumn
  · exact hKept .beatAtMs beatAtMs hBeat

namespace WriterThread

variable {Producer : Type} {start : Store} {thread : WriterThread Producer}

def heartbeats (thread : WriterThread Producer) : List (Sqlite.Row Column) :=
  thread.conn.committed.rows .heartbeats

/-- The table shows the last valid beat of each name among the jobs written so far, which in the
end are all that were put. -/
structure ShowsBeats (driver : Driver) (start : Store) (thread : WriterThread Producer) :
    Prop where
  latest : LatestBeats driver (start.rows .heartbeats) thread.db.written.flatten thread.heartbeats
  settled : thread.Settled → thread.db.written.flatten = thread.putJobs

theorem Survives.showsBeats (h : Survives driver start thread) :
    ShowsBeats driver start thread where
  latest := by
    rw [heartbeats, h.committed]
    exact latestBeats_keeps start _
  settled := h.written_of_settled

theorem writable_writer {driver : Driver} (hBack : ∀ batch, thread.db.writer ≠ .puttingBack batch)
    (hQuiet : ∀ job ∈ thread.db.batchWritten, driver.escaping job = none) :
    thread.Writable driver .writer :=
  ⟨hQuiet, fun batch hWriter => absurd hWriter (hBack batch)⟩

variable [DecidableEq Producer]

/-- At every moment of a run in which the writer thread survives, the table has under each name
one row, that of its last valid beat; once nothing is left to write, of the last that was put. -/
theorem heartbeats_latest (driver : Driver) (capacity : ℤ) (start : Store)
    (events : List (QueueEvent Producer))
    (hWritable : Throughout (step driver) (Writable driver) (opened capacity start) events) :
    Always (step driver) (ShowsBeats driver start) (opened capacity start) events := by
  have hAlways := survives_of_writable hWritable
  exact fun before after hEvents => (hAlways before after hEvents).showsBeats

end WriterThread

/-- The writer takes two beats of one process in one batch. -/
def twoBeats : List (QueueEvent ℕ) :=
  [.writer, .record 0 (heartbeatJob "poller" 41 1000 1000 0 0) true,
    .record 0 (heartbeatJob "poller" 41 1000 11000 2 0) true, .writer, .writer, .writer, .writer]

theorem heartbeats_latest_twoBeats :
    Always (WriterThread.step (.plain fun _ => 0))
      (WriterThread.ShowsBeats (.plain fun _ => 0) emptyStore) (.opened maxQueueSize emptyStore)
      twoBeats :=
  WriterThread.heartbeats_latest (.plain fun _ => 0) maxQueueSize emptyStore twoBeats <| by
    refine .cons (WriterThread.writable_writer ?_ ?_) <| .cons trivial <| .cons trivial <|
      .cons (WriterThread.writable_writer ?_ ?_) <| .cons (WriterThread.writable_writer ?_ ?_) <|
      .cons (WriterThread.writable_writer ?_ ?_) <| .cons (WriterThread.writable_writer ?_ ?_)
        throughout_nil
    · exact fun batch h => by cases h
    · exact List.forall_mem_nil _
    · exact fun batch h => by cases h
    · exact List.forall_mem_nil _
    · exact fun batch h => by cases h
    · exact List.forall_mem_nil _
    · exact fun batch h => by cases h
    · exact List.forall_mem_nil _
    · exact fun batch h => by cases h
    · exact List.forall_mem_cons.mpr ⟨rfl, List.forall_mem_singleton.mpr rfl⟩

example : (twoBeats.foldl (WriterThread.step (.plain fun _ => 0))
    (.opened maxQueueSize emptyStore)).heartbeats.map (fun row => row .beatAtMs) =
      [.integer 11000] := rfl

end KalshiBot.Telemetry

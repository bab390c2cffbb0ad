import KalshiBot.Library.OlderRows
import KalshiBot.Telemetry.WriterThread

/-! # Fills that are offered more than once

The stream and the backstop offer the same fills. An offer is a row that can be bound, its
correlation id included; under each `fill_id` the first one that the table admits is kept.
-/

namespace KalshiBot.Telemetry

open PythonText Sqlite Library Runs

set_option autoImplicit false

variable (driver : Driver)

/-- The row that a job offers to `fills`. -/
def fillOffer (job : WriteJob) : Option (Sqlite.Row Column) :=
  if job.table = .insertInto .fills ∧ driver.jobError job = none then
    (driver.bindRow (tableColumns .fills) job.row).toOption
  else none

/-- The offers that satisfy the constraints of `fills`, in the order of the jobs. -/
def validOffers (jobs : List WriteJob) : List (Sqlite.Row Column) :=
  (jobs.filterMap (fillOffer driver)).filter (constraints driver.castText .fills).admits

/-- Under each `fill_id` there is the first valid offer, or what was there before. -/
def FirstOffers (old : List (Sqlite.Row Column)) (jobs : List WriteJob)
    (rows : List (Sqlite.Row Column)) : Prop :=
  ∀ id, rowsWith .fillId id rows =
    if rowsWith .fillId id old = [] then (rowsWith .fillId id (validOffers driver jobs)).head?.toList
    else rowsWith .fillId id old

variable {driver} {s : Store} {job : WriteJob}

theorem fillOffer_of_table (h : job.table ≠ .insertInto .fills) : fillOffer driver job = none :=
  if_neg fun hBoth => h hBoth.1

theorem fillId_ne_null {row : Sqlite.Row Column}
    (h : (constraints driver.castText .fills).admits row) : row .fillId ≠ .null := by
  simp only [constraints, Bool.and_eq_true, List.all_eq_true] at h
  simpa using h.1 .fillId (by decide)

theorem fillOffer_of_error {error : WriteError} (h : driver.jobError job = some error) :
    fillOffer driver job = none := by
  rw [fillOffer, if_neg]
  rintro ⟨-, hNone⟩
  cases hNone.symm.trans h

theorem fillOffer_of_bound {bound : Sqlite.Row Column} (hTable : job.table = .insertInto .fills)
    (h : driver.jobError job = none)
    (hBound : driver.bindRow (tableColumns .fills) job.row = .ok bound) :
    fillOffer driver job = some bound := by
  rw [fillOffer, if_pos ⟨hTable, h⟩, hBound]
  rfl

theorem keep_of_insert_error {error : WriteError} (h : driver.insert s job = .error error) :
    Connection.keep (Connection.accepting driver.insert) s job = s := by
  rw [Connection.keep, Connection.accepting, h]
  rfl

theorem writeBound_fills (bound : Sqlite.Row Column) :
    writeBound .fills (jobStatement driver.castText (.insertInto .fills)) s bound =
      .ok { s with
        rows := Function.update s.rows .fills
          (insertOrIgnore (constraints driver.castText .fills) (s.rows .fills) bound) } := rfl

theorem rows_writeBound_of_ne {table other : Table} (hOther : other ≠ table)
    {statement : List (Sqlite.Row Column) → Sqlite.Row Column → Option (List (Sqlite.Row Column))}
    {bound : Sqlite.Row Column} {s' : Store} (h : writeBound table statement s bound = .ok s') :
    s'.rows other = s.rows other := by
  unfold writeBound at h
  split at h
  · cases h
  · split at h
    · cases h
      exact Function.update_of_ne hOther _ s.rows
    · cases h

theorem target_ne_fills (h : job.table ≠ .insertInto .fills) : Table.fills ≠ job.table.target := by
  obtain ⟨table, row⟩ := job
  cases table with
  | insertInto table => exact fun hTable => h (congrArg JobTable.insertInto hTable.symm)
  | orderResolution => exact fun hTable => by cases hTable

/-- A job for another table leaves the fills alone, and one for this table raises nothing on
account of its constraints. -/
theorem fills_keep (s : Store) (job : WriteJob) :
    (Connection.keep (Connection.accepting driver.insert) s job).rows .fills =
      (fillOffer driver job).toList.foldl
        (insertOrIgnore (constraints driver.castText .fills)) (s.rows .fills) := by
  cases hError : driver.jobError job with
  | some error =>
    rw [keep_of_insert_error (Driver.insert_of_jobError hError), fillOffer_of_error hError]
    rfl
  | none =>
    obtain ⟨mid, bound, -, hMid, hBound, hInsert⟩ := @Driver.insert_of_bound driver s job hError
    by_cases hTable : job.table = .insertInto .fills
    · obtain ⟨table, row⟩ := job
      subst hTable
      rw [fillOffer_of_bound rfl hError hBound, Connection.keep, Connection.accepting, hInsert]
      change ((writeBound .fills (jobStatement driver.castText (.insertInto .fills)) mid
        bound).toOption.getD s).rows .fills = _
      rw [writeBound_fills, ← hMid]
      exact Function.update_self Table.fills _ mid.rows
    · rw [fillOffer_of_table hTable, Connection.keep, Connection.accepting, hInsert]
      cases hWrite : writeBound job.table.target (jobStatement driver.castText job.table) mid bound with
      | error error => rfl
      | ok s' => exact (rows_writeBound_of_ne (target_ne_fills hTable) hWrite).trans (by rw [hMid]; rfl)

theorem fills_keeps (s : Store) (jobs : List WriteJob) :
    (jobs.foldl (Connection.keep (Connection.accepting driver.insert)) s).rows .fills =
      (jobs.filterMap (fillOffer driver)).foldl
        (insertOrIgnore (constraints driver.castText .fills)) (s.rows .fills) := by
  induction jobs generalizing s with
  | nil => rfl
  | cons job jobs ih =>
    rw [List.foldl_cons, ih, fills_keep, List.filterMap_cons]
    cases fillOffer driver job <;> rfl

theorem firstOffers_keeps (s : Store) (jobs : List WriteJob) :
    FirstOffers driver (s.rows .fills) jobs
      ((jobs.foldl (Connection.keep (Connection.accepting driver.insert)) s).rows .fills) := by
  intro id
  rw [fills_keeps]
  exact rowsWith_insertOrIgnores rfl (fun _ => fillId_ne_null) _ id

/-- Which ids there are, the offers tell as a set. -/
theorem FirstOffers.present_iff {old rows : List (Sqlite.Row Column)} {jobs : List WriteJob}
    (h : FirstOffers driver old jobs rows) (id : Value) : rowsWith .fillId id rows ≠ [] ↔
      rowsWith .fillId id old ≠ [] ∨ ∃ row ∈ validOffers driver jobs, row .fillId = id := by
  rw [h id]
  by_cases hOld : rowsWith .fillId id old = []
  · rw [if_pos hOld, or_iff_right (not_not.mpr hOld)]
    constructor
    · intro hSome
      obtain ⟨row, hRow⟩ := List.exists_mem_of_ne_nil _ hSome
      have hHead : row ∈ rowsWith .fillId id (validOffers driver jobs) :=
        List.mem_of_mem_head? (Option.mem_toList.mp hRow)
      obtain ⟨hMem, hId⟩ := List.mem_filter.mp hHead
      exact ⟨row, hMem, by simpa using hId⟩
    · rintro ⟨row, hMem, hId⟩ hNone
      have hMem : row ∈ rowsWith .fillId id (validOffers driver jobs) :=
        List.mem_filter.mpr ⟨hMem, by simpa using hId⟩
      rw [Option.toList_eq_nil_iff, List.head?_eq_none_iff] at hNone
      rw [hNone] at hMem
      cases hMem
  · rw [if_neg hOld]
    exact iff_of_true hOld (.inl hOld)

theorem validOffers_perm {jobs jobs' : List WriteJob} (h : jobs.Perm jobs') :
    (validOffers driver jobs).Perm (validOffers driver jobs') :=
  (h.filterMap _).filter _

theorem keep_of_present {row : Sqlite.Row Column} (hOffer : fillOffer driver job = some row)
    (hPresent : rowsWith .fillId (row .fillId) (s.rows .fills) ≠ []) :
    (Connection.keep (Connection.accepting driver.insert) s job).rows .fills = s.rows .fills := by
  rw [fills_keep, hOffer]
  cases hAdmits : (constraints driver.castText .fills).admits row with
  | false => exact insertOrIgnore_of_refused hAdmits
  | true => exact insertOrIgnore_of_taken ((any_conflict_iff rfl (fillId_ne_null hAdmits)).mpr hPresent)

namespace WriterThread

variable {Producer : Type} {start : Store} {thread : WriterThread Producer}

/-- There is no job left that the thread will still write. -/
def Settled (thread : WriterThread Producer) : Prop :=
  thread.db.Drained ∨ ∃ error, thread.db.writer = .raised error

def putJobs (thread : WriterThread Producer) : List WriteJob := thread.db.put.map Prod.snd

def fills (thread : WriterThread Producer) : List (Sqlite.Row Column) :=
  thread.conn.committed.rows .fills

/-- The table holds the first valid offers of the jobs written so far, which in the end are all
that were put; offering one of its fills again changes nothing in it. -/
structure Deduplicated (driver : Driver) (start : Store) (thread : WriterThread Producer) : Prop where
  first : FirstOffers driver (start.rows .fills) thread.db.written.flatten thread.fills
  settled : thread.Settled → thread.db.written.flatten = thread.putJobs
  again : ∀ job row, fillOffer driver job = some row →
    rowsWith .fillId (row .fillId) thread.fills ≠ [] →
      (Connection.keep (Connection.accepting driver.insert) thread.conn.committed job).rows .fills =
        thread.fills

theorem Survives.written_of_settled (h : Survives driver start thread) (hSettled : thread.Settled) :
    thread.db.written.flatten = thread.putJobs := by
  obtain hDrained | ⟨error, hRaised⟩ := hSettled
  · have hWritten : thread.db.written = thread.db.handed := by
      unfold TelemetryDB.written
      obtain hWriter | hWriter := hDrained.2 <;> rw [hWriter]
    rw [hWritten]
    exact h.fifo.handed_of_drained hDrained
  · exact absurd hRaised (h.alive error)

theorem Survives.deduplicated (h : Survives driver start thread) :
    Deduplicated driver start thread where
  first := by
    rw [fills, h.committed]
    exact firstOffers_keeps start _
  settled := h.written_of_settled
  again job row hOffer hPresent := keep_of_present hOffer hPresent

theorem Deduplicated.same_ids {thread' : WriterThread Producer} (h : Deduplicated driver start thread)
    (h' : Deduplicated driver start thread') (hSettled : thread.Settled)
    (hSettled' : thread'.Settled) (hPerm : thread.putJobs.Perm thread'.putJobs) (id : Value) :
    rowsWith .fillId id thread.fills ≠ [] ↔ rowsWith .fillId id thread'.fills ≠ [] := by
  have hFirst := h.first
  have hFirst' := h'.first
  rw [h.settled hSettled] at hFirst
  rw [h'.settled hSettled'] at hFirst'
  rw [hFirst.present_iff, hFirst'.present_iff]
  simp only [(@validOffers_perm driver _ _ hPerm).mem_iff]

variable [DecidableEq Producer]

theorem survives_of_writable {capacity : ℤ} {events : List (QueueEvent Producer)}
    (h : Throughout (step driver) (Writable driver) (opened capacity start) events) :
    Always (step driver) (Survives driver start) (opened capacity start) events :=
  h.always (fun _ event hWritable hBefore => (Survives.step_iff hBefore event).mpr hWritable)
    (opened_survives capacity start)

/-- Every fill that is validly offered ends in one row, that of its first valid offer, and the
order of the offers does not show in which fills there are. -/
theorem fills_deduplicated (driver : Driver) (capacity : ℤ) (start : Store)
    (events : List (QueueEvent Producer))
    (hWritable : Throughout (step driver) (Writable driver) (opened capacity start) events) :
    Always (step driver) (Deduplicated driver start) (opened capacity start) events ∧
    ∀ events' : List (QueueEvent Producer),
      Throughout (step driver) (Writable driver) (opened capacity start) events' →
      let thread := events.foldl (step driver) (opened capacity start)
      let thread' := events'.foldl (step driver) (opened capacity start)
      thread.Settled → thread'.Settled → thread.putJobs.Perm thread'.putJobs →
        ∀ id, rowsWith .fillId id thread.fills ≠ [] ↔ rowsWith .fillId id thread'.fills ≠ [] := by
  have hAlways := survives_of_writable hWritable
  constructor
  · exact fun before after hEvents => (hAlways before after hEvents).deduplicated
  · intro events' hWritable' thread thread' hSettled hSettled' hPerm id
    have hAlways' := survives_of_writable hWritable'
    have hLast := (hAlways events [] (List.append_nil _).symm).deduplicated
    have hLast' := (hAlways' events' [] (List.append_nil _).symm).deduplicated
    exact hLast.same_ids hLast' hSettled hSettled' hPerm id

end WriterThread

/-- The stream and the backstop offer one fill, and the writer takes both offers in one batch. -/
def offeredTwice : List (QueueEvent ℕ) :=
  [.writer, .record 0 (demoFill "fill-1") true, .record 1 (demoFill "fill-1") true, .writer, .writer,
    .writer, .writer]

theorem fills_deduplicated_offeredTwice :
    Always (WriterThread.step (.plain fun _ => 0))
      (WriterThread.Deduplicated (.plain fun _ => 0) emptyStore) (.opened maxQueueSize emptyStore)
      offeredTwice :=
  (WriterThread.fills_deduplicated (.plain fun _ => 0) maxQueueSize emptyStore offeredTwice <| by
    have hIdle : ∀ thread : WriterThread ℕ, (∀ batch, thread.db.writer ≠ .puttingBack batch) →
        (∀ job ∈ thread.db.batchWritten, (Driver.plain fun _ => 0).escaping job = none) →
          thread.Writable (.plain fun _ => 0) .writer :=
      fun thread hBack hQuiet => ⟨hQuiet, fun batch h => absurd h (hBack batch)⟩
    refine .cons (hIdle _ ?_ ?_) <| .cons trivial <| .cons trivial <| .cons (hIdle _ ?_ ?_) <|
      .cons (hIdle _ ?_ ?_) <| .cons (hIdle _ ?_ ?_) <| .cons (hIdle _ ?_ ?_) throughout_nil
    · exact fun batch h => by cases h
    · exact List.forall_mem_nil _
    · exact fun batch h => by cases h
    · exact List.forall_mem_nil _
    · exact fun batch h => by cases h
    · exact List.forall_mem_nil _
    · exact fun batch h => by cases h
    · exact List.forall_mem_nil _
    · exact fun batch h => by cases h
    · exact List.forall_mem_cons.mpr ⟨rfl, List.forall_mem_singleton.mpr rfl⟩).1

example : (offeredTwice.foldl (WriterThread.step (.plain fun _ => 0))
    (.opened maxQueueSize emptyStore)).fills.map (fun row => row .fillId) = [.text "fill-1"] := rfl

/-- A fill that is put behind one that cannot be bound is never written. -/
theorem hugeIndexRun_loses_fill :
    let thread := hugeIndexRun.foldl (WriterThread.step (.plain fun _ => 0))
      (.opened maxQueueSize emptyStore)
    thread.Settled ∧ thread.fills = [] ∧
      (∃ row ∈ validOffers (.plain fun _ => 0) thread.putJobs, row .fillId = .text "fill-2") ∧
      ¬Always (WriterThread.step (.plain fun _ => 0))
        (WriterThread.Deduplicated (.plain fun _ => 0) emptyStore) (.opened maxQueueSize emptyStore)
        hugeIndexRun := by
  intro thread
  have hSettled : thread.Settled := .inr ⟨.uncaught, rfl⟩
  have hOffer : ∃ row, fillOffer (.plain fun _ => 0) (demoFill "fill-2") = some row ∧
      (constraints (fun _ => 0) .fills).admits row ∧ row .fillId = .text "fill-2" :=
    ⟨_, rfl, rfl, rfl⟩
  obtain ⟨row, hRow, hAdmits, hId⟩ := hOffer
  have hPut : demoFill "fill-2" ∈ thread.putJobs := List.mem_cons_of_mem _ List.mem_cons_self
  refine ⟨hSettled, rfl, ⟨row, List.mem_filter.mpr ⟨List.mem_filterMap.mpr ⟨_, hPut, hRow⟩, hAdmits⟩,
    hId⟩, fun hAlways => ?_⟩
  have hAll := (hAlways hugeIndexRun [] (List.append_nil _).symm).settled hSettled
  have hLength : thread.db.written.flatten.length = thread.putJobs.length := congrArg List.length hAll
  cases hLength

end KalshiBot.Telemetry

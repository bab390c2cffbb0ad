import KalshiBot.Telemetry.BindErrors
import KalshiBot.Telemetry.Shutdown

/-! # The writer thread on its connection

The queue's machine, with the batches written through a connection: an exception that
`_write_batch` leaves unhandled ends the thread, and nothing else raises.
-/

namespace KalshiBot.Telemetry

open PythonText Sqlite Library Runs

set_option autoImplicit false

variable {Producer : Type}

namespace TelemetryDB

/-- The batch inside `_write_batch`. -/
def batchWritten (db : TelemetryDB Producer) : List WriteJob :=
  match db.writer with
  | .writing => db.handed.getLast?.getD []
  | _ => []

/-- The batches that `_write_batch` is done with. -/
def written (db : TelemetryDB Producer) : List (List WriteJob) :=
  match db.writer with
  | .writing => db.handed.dropLast
  | _ => db.handed

theorem written_flatten (db : TelemetryDB Producer) :
    db.written.flatten ++ db.batchWritten = db.handed.flatten := by
  unfold written batchWritten
  cases db.writer with
  | writing =>
    cases hLast : db.handed.getLast? with
    | none => simp [List.getLast?_eq_none_iff.mp hLast]
    | some batch =>
      obtain ⟨earlier, hHanded⟩ := List.getLast?_eq_some_iff.mp hLast
      simp [hHanded]
  | _ => simp

theorem batchWritten_eq_nil {db : TelemetryDB Producer} (h : db.writer ≠ .writing) :
    db.batchWritten = [] := by
  unfold batchWritten
  split
  next hWriter => exact absurd hWriter h
  next => rfl

theorem written_runWriter (db : TelemetryDB Producer) (h : db.writer ≠ .writing) :
    db.runWriter.written = db.written := by
  cases hWriter : db.writer with
  | writing => exact absurd hWriter h
  | opening | stopped | raised => simp [runWriter, hWriter, written]
  | getting =>
    simp only [runWriter, hWriter]
    split
    · rfl
    · simp [written, hWriter]
    · simp [written, hWriter]
  | draining batch =>
    simp only [runWriter, hWriter, drainStep]
    split
    · split
      · simp [written, hWriter]
      · simp [written, hWriter]
      · simp [written, hWriter]
    · simp [written, hWriter]
  | puttingBack batch =>
    simp only [runWriter, hWriter, putBack]
    split
    · simp [written, hWriter]
    · simp [written, hWriter]

end TelemetryDB

structure WriterThread (Producer : Type) where
  db : TelemetryDB Producer
  conn : Connection Store

namespace WriterThread

variable (driver : Driver)

def opened (capacity : ℤ) (start : Store) : WriterThread Producer where
  db := .opened capacity
  conn := { committed := start }

def writeBatch (thread : WriterThread Producer) : Connection Store × Option WriteError :=
  thread.conn.tryWriteBatch driver.insert WriteError.caught thread.db.batchWritten

variable [DecidableEq Producer]

def step (thread : WriterThread Producer) : QueueEvent Producer → WriterThread Producer
  | .writer =>
    match thread.db.writer, thread.writeBatch driver with
    | .writing, (conn, none) => { db := thread.db.step .writer, conn }
    | .writing, (conn, some _) => { db := thread.db.step .writerRaises, conn }
    | _, _ => { thread with db := thread.db.step .writer }
  | .writerRaises => thread
  | event => { thread with db := thread.db.step event }

omit [DecidableEq Producer] in
/-- The thread lives or was stopped by its sentinel, no job is lost on the way, and committed is
what the written jobs leave one after another, those that fail skipped. -/
structure Survives (start : Store) (thread : WriterThread Producer) : Prop where
  alive : ∀ error, thread.db.writer ≠ .raised error
  fifo : thread.db.Fifo
  closed : thread.conn.pending = none
  committed : thread.conn.committed =
    thread.db.written.flatten.foldl (Connection.keep (Connection.accepting driver.insert)) start

/-- No job of the batch raises what is not handled, and a sentinel that is put back finds room. -/
def Writable (thread : WriterThread Producer) : QueueEvent Producer → Prop
  | .writer => (∀ job ∈ thread.db.batchWritten, driver.escaping job = none) ∧
      ∀ batch, thread.db.writer = .puttingBack batch → ¬thread.db.queue.Full
  | _ => True

variable {driver} {start : Store} {thread : WriterThread Producer}

omit [DecidableEq Producer] in
theorem opened_survives (capacity : ℤ) (start : Store) :
    Survives driver start (opened capacity start : WriterThread Producer) where
  alive error h := by cases h
  fifo := rfl
  closed := rfl
  committed := rfl

omit [DecidableEq Producer] in
/-- What the caught errors leave of a batch. -/
theorem Survives.writeBatch (h : Survives driver start thread)
    (hQuiet : ∀ job ∈ thread.db.batchWritten, driver.escaping job = none) :
    ∃ conn, thread.writeBatch driver = (conn, none) ∧ conn.pending = none ∧
      conn.committed = thread.db.handed.flatten.foldl
        (Connection.keep (Connection.accepting driver.insert)) start := by
  obtain ⟨hClosed, hCommitted⟩ := Connection.writeBatch_of_closed
    (Connection.accepting driver.insert) h.closed thread.db.batchWritten
  refine ⟨_, Connection.tryWriteBatch_of_quiet Driver.escapesBy thread.conn hQuiet, hClosed, ?_⟩
  rw [hCommitted, h.committed, ← List.foldl_append, thread.db.written_flatten]

theorem step_writer_of_quiet (hWriter : thread.db.writer = .writing) {conn : Connection Store}
    (hBatch : thread.writeBatch driver = (conn, none)) :
    thread.step driver .writer = { db := { thread.db with writer := .getting }, conn } := by
  simp only [step, hWriter, hBatch, TelemetryDB.step, TelemetryDB.runWriter]

theorem step_writer_of_escaping (hWriter : thread.db.writer = .writing)
    (hLoud : ∃ job ∈ thread.db.batchWritten, driver.escaping job ≠ none) :
    (thread.step driver .writer).db.writer = .raised .uncaught := by
  have hError : (thread.writeBatch driver).2 ≠ none := by
    intro hNone
    obtain ⟨job, hMem, hLoud⟩ := hLoud
    exact hLoud ((Connection.tryWriteBatch_eq_none_iff Driver.escapesBy thread.conn _).mp hNone job hMem)
  obtain ⟨error, hError⟩ := Option.ne_none_iff_exists'.mp hError
  have hBatch : thread.writeBatch driver = ((thread.writeBatch driver).1, some error) :=
    Prod.ext rfl hError
  rw [step, hWriter, hBatch]
  simp only [TelemetryDB.step, TelemetryDB.raise, hWriter]

theorem step_writer_elsewhere (hWriter : thread.db.writer ≠ .writing) :
    thread.step driver .writer = { thread with db := thread.db.runWriter } := by
  rw [step]
  split
  next h _ => exact absurd h hWriter
  next h _ => exact absurd h hWriter
  next => rfl

theorem Survives.step_writing_iff (h : Survives driver start thread)
    (hWriter : thread.db.writer = .writing) :
    Survives driver start (thread.step driver .writer) ↔ thread.Writable driver .writer := by
  by_cases hQuiet : ∀ job ∈ thread.db.batchWritten, driver.escaping job = none
  · obtain ⟨conn, hBatch, hClosed, hCommitted⟩ := h.writeBatch hQuiet
    rw [step_writer_of_quiet hWriter hBatch]
    refine iff_of_true ⟨fun error hRaised => ?_, ?_, hClosed, hCommitted⟩ ⟨hQuiet, fun batch hBack => ?_⟩
    · cases hRaised
    · exact h.fifo.move (.loop (.inr hWriter)) fun hRaised => by cases hRaised
    · cases hWriter.symm.trans hBack
  · simp only [not_forall] at hQuiet
    obtain ⟨job, hMem, hLoud⟩ := hQuiet
    have hRaised := step_writer_of_escaping hWriter ⟨job, hMem, hLoud⟩
    exact iff_of_false (fun hLater => hLater.alive _ hRaised) fun hWritable =>
      hLoud (hWritable.1 job hMem)

theorem Survives.step_elsewhere_iff (h : Survives driver start thread)
    (hWriter : thread.db.writer ≠ .writing) :
    Survives driver start (thread.step driver .writer) ↔ thread.Writable driver .writer := by
  have hEmpty := TelemetryDB.batchWritten_eq_nil hWriter
  rw [step_writer_elsewhere hWriter, Writable, hEmpty, and_iff_right (List.forall_mem_nil _)]
  constructor
  · intro hLater batch hBack hFull
    exact hLater.alive .queueFull
      ((TelemetryDB.raised_runWriter_iff _ _).mpr (.inr ⟨rfl, hFull, batch, hBack⟩))
  · intro hRoom
    have hAlive : ∀ error, thread.db.runWriter.writer ≠ .raised error := by
      intro error hRaised
      obtain hBefore | ⟨-, hFull, batch, hBack⟩ :=
        (TelemetryDB.raised_runWriter_iff thread.db error).mp hRaised
      · exact h.alive error hBefore
      · exact hRoom batch hBack hFull
    refine ⟨hAlive, h.fifo.move (TelemetryDB.moves_runWriter _) (hAlive _), h.closed, ?_⟩
    rw [TelemetryDB.written_runWriter _ hWriter]
    exact h.committed

theorem Survives.other (h : Survives driver start thread) {event : QueueEvent Producer}
    (hSame : (thread.db.step event).writer = thread.db.writer ∧
      (thread.db.step event).handed = thread.db.handed) :
    Survives driver start { thread with db := thread.db.step event } := by
  obtain ⟨hWriter, hHanded⟩ := hSame
  have hAlive : ∀ error, (thread.db.step event).writer ≠ .raised error := by
    rw [hWriter]
    exact h.alive
  refine ⟨hAlive, h.fifo.move (TelemetryDB.moves_step thread.db event) (hAlive _), h.closed, ?_⟩
  rw [h.committed, TelemetryDB.written, TelemetryDB.written, hWriter, hHanded]

theorem Survives.step_iff (h : Survives driver start thread) (event : QueueEvent Producer) :
    Survives driver start (thread.step driver event) ↔ thread.Writable driver event := by
  have hSteps := thread.db.writer_step event
  cases event with
  | writer =>
    by_cases hWriting : thread.db.writer = .writing
    · exact h.step_writing_iff hWriting
    · exact h.step_elsewhere_iff hWriting
  | writerRaises => exact iff_of_true h trivial
  | record | resume | timeout | close | putSentinel | join =>
    obtain hWriter | hRaises | hSame := hSteps
    · cases hWriter
    · cases hRaises
    · exact iff_of_true (h.other hSame) trivial

/-- The writer thread survives a run, with all its rows but the failing ones committed once and in
the order of the queue, exactly if no step of it meets a row that cannot be bound. -/
theorem survives_iff (driver : Driver) (capacity : ℤ) (start : Store)
    (events : List (QueueEvent Producer)) :
    Always (step driver) (Survives driver start) (opened capacity start) events ↔
      Throughout (step driver) (Writable driver) (opened capacity start) events :=
  always_iff_throughout (opened_survives capacity start) fun _ event _ _ h => h.step_iff event

end WriterThread

/-- A fill as the exchange sent it, with an index of more than 64 bits. -/
def hugeIndexFill : WriteJob where
  table := .insertInto .fills
  row := Function.update (demoFill "fill-1").row .exchangeIndex (.int (2 ^ 63))

/-- The writer takes that fill and writes its batch; another fill follows. -/
def hugeIndexRun : List (QueueEvent ℕ) :=
  [.writer, .record 0 hugeIndexFill true, .writer, .writer, .writer,
    .record 0 (demoFill "fill-2") true]

theorem hugeIndexRun_ends_writer :
    (hugeIndexRun.foldl (WriterThread.step (.plain fun _ => 0))
        (.opened maxQueueSize emptyStore)).db.writer = .raised .uncaught ∧
      (hugeIndexRun.foldl (WriterThread.step (.plain fun _ => 0))
        (.opened maxQueueSize emptyStore)).db.queue.items = [some (demoFill "fill-2")] ∧
      ¬Always (WriterThread.step (.plain fun _ => 0))
        (WriterThread.Survives (.plain fun _ => 0) emptyStore) (.opened maxQueueSize emptyStore)
        hugeIndexRun := by
  have hRaised : (hugeIndexRun.foldl (WriterThread.step (.plain fun _ => 0))
      (.opened maxQueueSize emptyStore)).db.writer = .raised .uncaught := rfl
  refine ⟨hRaised, rfl, fun hAlways => ?_⟩
  exact (hAlways hugeIndexRun [] (List.append_nil _).symm).alive _ hRaised

end KalshiBot.Telemetry

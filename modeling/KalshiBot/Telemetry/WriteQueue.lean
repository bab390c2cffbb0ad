import KalshiBot.Library.BoundedQueue
import KalshiBot.Library.Runs
import KalshiBot.Telemetry.Schema

/-! # The telemetry write queue

Any number of producers record rows, one caller closes the database, and one writer
thread drains the queue in batches. Every event is one operation on the queue, which
its mutex makes atomic; an event its thread is in no position to take changes nothing.
-/

namespace KalshiBot.Telemetry

open Library

set_option autoImplicit false

def maxQueueSize : ℤ := 10000

def maxBatchSize : ℕ := 500

/-- How the writer thread can end other than by its sentinel. -/
inductive WriterError where
  | queueFull
  | uncaught
  deriving DecidableEq

/-- Where the writer thread is; `opening` is before its loop, `getting` in the blocking
`get`, `draining` before each `get_nowait`, `writing` inside `_write_batch`. -/
inductive Writer where
  | opening
  | getting
  | draining (batch : List WriteJob)
  | puttingBack (batch : List WriteJob)
  | writing
  | stopped
  | raised (error : WriterError)

def Writer.inHand : Writer → List WriteJob
  | draining batch | puttingBack batch => batch
  | _ => []

def Writer.Ended : Writer → Prop
  | stopped | raised _ => True
  | _ => False

instance : DecidablePred Writer.Ended := fun w => by
  cases w <;> first | exact .isTrue trivial | exact .isFalse not_false

/-- Where the call of `close` is, once its sentinel is put with the jobs put before it. -/
inductive Closer where
  | notCalled
  | putting
  | joining (before : List WriteJob)
  | returned (before : List WriteJob)

/-- The database object, its threads, and what has happened so far: the jobs put with
their producers, in order, and the batches handed to `_write_batch`. -/
structure TelemetryDB (Producer : Type) where
  queue : BoundedQueue (Option WriteJob)
  writerThread : Bool
  dropped : ℕ
  writer : Writer
  closer : Closer
  waiting : Producer → Option WriteJob
  put : List (Producer × WriteJob)
  handed : List (List WriteJob)

inductive QueueEvent (Producer : Type) where
  | record (producer : Producer) (job : WriteJob) (blocking : Bool)
  | resume (producer : Producer)
  | timeout (producer : Producer)
  | close
  /-- The closing caller, waiting in `put`, finds room for the sentinel. -/
  | putSentinel
  | join
  | writer
  /-- An exception that `_run_writer` does not handle comes from the connection. -/
  | writerRaises

namespace TelemetryDB

variable {Producer : Type}

/-- `initialize` has just started the writer thread. -/
def opened (capacity : ℤ) : TelemetryDB Producer where
  queue := .empty capacity
  writerThread := true
  dropped := 0
  writer := .opening
  closer := .notCalled
  waiting _ := none
  put := []
  handed := []

def recordDrop (db : TelemetryDB Producer) : TelemetryDB Producer :=
  { db with dropped := db.dropped + 1 }

section Producers

variable [DecidableEq Producer]

def enqueue (db : TelemetryDB Producer) (producer : Producer) (job : WriteJob) (blocking : Bool) :
    TelemetryDB Producer :=
  -- the `RuntimeError` before `initialize` and after `close`
  if db.writerThread = false then db
  else
    match db.queue.putNowait (some job) with
    | some queue => { db with queue, put := db.put ++ [(producer, job)] }
    | none =>
      if job.table ∈ undroppableTables ∧ blocking = false then db.recordDrop
      else if job.table ∈ undroppableTables then
        { db with waiting := Function.update db.waiting producer (some job) }
      else db.recordDrop

def resumePut (db : TelemetryDB Producer) (producer : Producer) : TelemetryDB Producer :=
  match db.waiting producer with
  | none => db
  | some job =>
    match db.queue.putNowait (some job) with
    | none => db
    | some queue =>
      { db with
        queue
        waiting := Function.update db.waiting producer none
        put := db.put ++ [(producer, job)] }

def timeoutPut (db : TelemetryDB Producer) (producer : Producer) : TelemetryDB Producer :=
  match db.waiting producer with
  | none => db
  | some _ => { db with waiting := Function.update db.waiting producer none }.recordDrop

end Producers

def close (db : TelemetryDB Producer) : TelemetryDB Producer :=
  match db.closer with
  | .notCalled => if db.writerThread = false then db else { db with closer := .putting }
  | _ => db

def putSentinel (db : TelemetryDB Producer) : TelemetryDB Producer :=
  match db.closer, db.queue.putNowait none with
  | .putting, some queue => { db with queue, closer := .joining (db.put.map Prod.snd) }
  | _, _ => db

def join (db : TelemetryDB Producer) : TelemetryDB Producer :=
  match db.closer with
  | .joining before =>
    if db.writer.Ended then { db with writerThread := false, closer := .returned before } else db
  | _ => db

/-- One more step of `_drain_batch` with this much already drained. -/
def drainStep (db : TelemetryDB Producer) (batch : List WriteJob) : TelemetryDB Producer :=
  if batch.length < maxBatchSize then
    match db.queue.getNowait with
    | none => { db with writer := .writing, handed := db.handed ++ [batch] }
    | some (none, queue) => { db with queue, writer := .puttingBack batch }
    | some (some job, queue) => { db with queue, writer := .draining (batch ++ [job]) }
  else { db with writer := .writing, handed := db.handed ++ [batch] }

def putBack (db : TelemetryDB Producer) (batch : List WriteJob) : TelemetryDB Producer :=
  match db.queue.putNowait none with
  | none => { db with writer := .raised .queueFull }
  | some queue => { db with queue, writer := .writing, handed := db.handed ++ [batch] }

def runWriter (db : TelemetryDB Producer) : TelemetryDB Producer :=
  match db.writer with
  | .opening => { db with writer := .getting }
  | .getting =>
    match db.queue.getNowait with
    | none => db
    | some (none, queue) => { db with queue, writer := .stopped }
    | some (some job, queue) => { db with queue, writer := .draining [job] }
  | .draining batch => db.drainStep batch
  | .puttingBack batch => db.putBack batch
  | .writing => { db with writer := .getting }
  | .stopped | .raised _ => db

def raise (db : TelemetryDB Producer) : TelemetryDB Producer :=
  match db.writer with
  | .opening | .writing => { db with writer := .raised .uncaught }
  | _ => db

variable [DecidableEq Producer]

def step (db : TelemetryDB Producer) : QueueEvent Producer → TelemetryDB Producer
  | .record producer job blocking =>
    if (db.waiting producer).isSome then db else db.enqueue producer job blocking
  | .resume producer => db.resumePut producer
  | .timeout producer => db.timeoutPut producer
  | .close => db.close
  | .putSentinel => db.putSentinel
  | .join => db.join
  | .writer => db.runWriter
  | .writerRaises => db.raise

def run (db : TelemetryDB Producer) (events : List (QueueEvent Producer)) : TelemetryDB Producer :=
  events.foldl step db

theorem run_snoc (db : TelemetryDB Producer) (events : List (QueueEvent Producer))
    (event : QueueEvent Producer) : db.run (events ++ [event]) = (db.run events).step event := by
  rw [run, List.foldl_append, List.foldl_cons, List.foldl_nil, run]

inductive Moves (db : TelemetryDB Producer) : TelemetryDB Producer → Prop where
  | stay : db.Moves db
  | put (queue : BoundedQueue (Option WriteJob)) (producer : Producer) (job : WriteJob)
      (waiting : Producer → Option WriteJob)
      (hItems : queue.items = db.queue.items ++ [some job]) :
      db.Moves { db with queue, waiting, put := db.put ++ [(producer, job)] }
  | hold (waiting : Producer → Option WriteJob) (dropped : ℕ) : db.Moves { db with waiting, dropped }
  | close (hCloser : db.closer = .notCalled) : db.Moves { db with closer := .putting }
  | putSentinel (queue : BoundedQueue (Option WriteJob)) (hCloser : db.closer = .putting)
      (hItems : queue.items = db.queue.items ++ [none]) :
      db.Moves { db with queue, closer := .joining (db.put.map Prod.snd) }
  | join (before : List WriteJob) (hCloser : db.closer = .joining before) (hEnded : db.writer.Ended) :
      db.Moves { db with writerThread := false, closer := .returned before }
  | loop (hWriter : db.writer = .opening ∨ db.writer = .writing) :
      db.Moves { db with writer := .getting }
  | take (queue : BoundedQueue (Option WriteJob)) (job : WriteJob) (hWriter : db.writer = .getting)
      (hItems : db.queue.items = some job :: queue.items) :
      db.Moves { db with queue, writer := .draining [job] }
  | stop (queue : BoundedQueue (Option WriteJob)) (hWriter : db.writer = .getting)
      (hItems : db.queue.items = none :: queue.items) : db.Moves { db with queue, writer := .stopped }
  | drain (queue : BoundedQueue (Option WriteJob)) (batch : List WriteJob) (job : WriteJob)
      (hWriter : db.writer = .draining batch) (hItems : db.queue.items = some job :: queue.items) :
      db.Moves { db with queue, writer := .draining (batch ++ [job]) }
  | takeSentinel (queue : BoundedQueue (Option WriteJob)) (batch : List WriteJob)
      (hWriter : db.writer = .draining batch) (hItems : db.queue.items = none :: queue.items) :
      db.Moves { db with queue, writer := .puttingBack batch }
  | handOver (batch : List WriteJob) (hWriter : db.writer = .draining batch) :
      db.Moves { db with writer := .writing, handed := db.handed ++ [batch] }
  | putBack (queue : BoundedQueue (Option WriteJob)) (batch : List WriteJob)
      (hWriter : db.writer = .puttingBack batch) (hItems : queue.items = db.queue.items ++ [none]) :
      db.Moves { db with queue, writer := .writing, handed := db.handed ++ [batch] }
  | fail (batch : List WriteJob) (hWriter : db.writer = .puttingBack batch) (hFull : db.queue.Full) :
      db.Moves { db with writer := .raised .queueFull }
  | raise (hWriter : db.writer = .opening ∨ db.writer = .writing) :
      db.Moves { db with writer := .raised .uncaught }

theorem moves_enqueue (db : TelemetryDB Producer) (producer : Producer) (job : WriteJob)
    (blocking : Bool) : db.Moves (db.enqueue producer job blocking) := by
  unfold enqueue
  split
  · exact .stay
  · split
    next queue hPut =>
      exact .put queue producer job db.waiting (BoundedQueue.putNowait_eq_some hPut).2.2
    next =>
      split
      · exact .hold db.waiting _
      · split
        · exact .hold _ db.dropped
        · exact .hold db.waiting _

theorem moves_resumePut (db : TelemetryDB Producer) (producer : Producer) :
    db.Moves (db.resumePut producer) := by
  unfold resumePut
  split
  · exact .stay
  · split
    · exact .stay
    next queue hPut =>
      exact .put queue producer _ _ (BoundedQueue.putNowait_eq_some hPut).2.2

theorem moves_timeoutPut (db : TelemetryDB Producer) (producer : Producer) :
    db.Moves (db.timeoutPut producer) := by
  unfold timeoutPut
  split
  · exact .stay
  · exact .hold _ _

omit [DecidableEq Producer] in
theorem moves_runWriter (db : TelemetryDB Producer) : db.Moves db.runWriter := by
  unfold runWriter
  split
  next hWriter => exact .loop (.inl hWriter)
  next hWriter =>
    split
    · exact .stay
    next queue hGet => exact .stop queue hWriter (BoundedQueue.getNowait_eq_some hGet).2
    next job queue hGet => exact .take queue job hWriter (BoundedQueue.getNowait_eq_some hGet).2
  next batch hWriter =>
    unfold drainStep
    split
    · split
      · exact .handOver batch hWriter
      next queue hGet =>
        exact .takeSentinel queue batch hWriter (BoundedQueue.getNowait_eq_some hGet).2
      next job queue hGet =>
        exact .drain queue batch job hWriter (BoundedQueue.getNowait_eq_some hGet).2
    · exact .handOver batch hWriter
  next batch hWriter =>
    unfold putBack
    split
    next hPut => exact .fail batch hWriter (BoundedQueue.putNowait_eq_none.mp hPut)
    next queue hPut => exact .putBack queue batch hWriter (BoundedQueue.putNowait_eq_some hPut).2.2
  next hWriter => exact .loop (.inr hWriter)
  all_goals exact .stay

theorem moves_step (db : TelemetryDB Producer) (event : QueueEvent Producer) :
    db.Moves (db.step event) := by
  cases event with
  | record producer job blocking =>
    rw [step]
    split
    · exact .stay
    · exact db.moves_enqueue producer job blocking
  | resume producer => exact db.moves_resumePut producer
  | timeout producer => exact db.moves_timeoutPut producer
  | close =>
    rw [step, TelemetryDB.close]
    split
    next hCloser =>
      split
      · exact .stay
      · exact .close hCloser
    · exact .stay
  | putSentinel =>
    rw [step, TelemetryDB.putSentinel]
    split
    next queue hCloser hPut =>
      exact .putSentinel queue hCloser (BoundedQueue.putNowait_eq_some hPut).2.2
    · exact .stay
  | join =>
    rw [step, TelemetryDB.join]
    split
    next before hCloser =>
      split
      next hEnded => exact .join before hCloser hEnded
      · exact .stay
    · exact .stay
  | writer => exact db.moves_runWriter
  | writerRaises =>
    rw [step, TelemetryDB.raise]
    split
    next hWriter => exact .raise (.inl hWriter)
    next hWriter => exact .raise (.inr hWriter)
    · exact .stay

def putBy (db : TelemetryDB Producer) (producer : Producer) : List WriteJob :=
  (db.put.filter fun entry => entry.1 = producer).map Prod.snd

def callBy (producer : Producer) : QueueEvent Producer → Option (WriteJob × Bool)
  | .record caller job blocking => if caller = producer then some (job, blocking) else none
  | _ => none

/-- The jobs a producer asks to record, and whether each may wait. -/
def callsBy (producer : Producer) (events : List (QueueEvent Producer)) : List (WriteJob × Bool) :=
  events.filterMap (callBy producer)

def offeredBy (db : TelemetryDB Producer) (producer : Producer) : List WriteJob :=
  db.putBy producer ++ (db.waiting producer).toList

theorem offeredBy_of_same (db : TelemetryDB Producer) {db' : TelemetryDB Producer} (producer : Producer)
    (hPut : db'.put = db.put) (hWaiting : db'.waiting = db.waiting) :
    db'.offeredBy producer = db.offeredBy producer := by
  rw [offeredBy, offeredBy, putBy, putBy, hPut, hWaiting]

theorem putBy_append (db : TelemetryDB Producer) (producer caller : Producer) (job : WriteJob)
    (queue : BoundedQueue (Option WriteJob)) (waiting : Producer → Option WriteJob) :
    putBy { db with queue, waiting, put := db.put ++ [(caller, job)] } producer =
      db.putBy producer ++ if caller = producer then [job] else [] := by
  rw [putBy, putBy, List.filter_append, List.map_append]
  by_cases hSame : caller = producer <;> simp [hSame]

theorem offeredBy_enqueue (db : TelemetryDB Producer) (producer caller : Producer) (job : WriteJob)
    (blocking : Bool) (hIdle : db.waiting caller = none) :
    ((db.enqueue caller job blocking).offeredBy producer).Sublist
      (db.offeredBy producer ++ if caller = producer then [job] else []) := by
  have hKept : (db.offeredBy producer).Sublist
      (db.offeredBy producer ++ if caller = producer then [job] else []) :=
    List.sublist_append_left _ _
  unfold enqueue
  split
  · exact hKept
  · split
    next queue hPut =>
      rw [offeredBy, putBy_append, offeredBy]
      by_cases hSame : caller = producer
      · subst hSame
        simp [hIdle]
      · simp [hSame]
    next =>
      split
      · exact hKept
      · split
        · rw [offeredBy, offeredBy]
          by_cases hSame : caller = producer
          · subst hSame
            simp [hIdle, putBy]
          · simp [hSame, Ne.symm hSame, putBy]
        · exact hKept

theorem offeredBy_resumePut (db : TelemetryDB Producer) (producer caller : Producer) :
    (db.resumePut caller).offeredBy producer = db.offeredBy producer := by
  unfold resumePut
  split
  · rfl
  next job hWaiting =>
    split
    · rfl
    next queue hPut =>
      rw [offeredBy, putBy_append, offeredBy]
      by_cases hSame : caller = producer
      · subst hSame
        simp [hWaiting]
      · simp [hSame, Ne.symm hSame]

theorem offeredBy_timeoutPut (db : TelemetryDB Producer) (producer caller : Producer) :
    ((db.timeoutPut caller).offeredBy producer).Sublist (db.offeredBy producer) := by
  unfold timeoutPut
  split
  · exact List.Sublist.refl _
  next job hWaiting =>
    rw [offeredBy, offeredBy]
    by_cases hSame : caller = producer
    · subst hSame
      simp [recordDrop, putBy]
    · simp [recordDrop, putBy, Ne.symm hSame]

theorem offeredBy_step (db : TelemetryDB Producer) (producer : Producer)
    (event : QueueEvent Producer) :
    ((db.step event).offeredBy producer).Sublist
      (db.offeredBy producer ++ ((callBy producer event).map Prod.fst).toList) := by
  cases event with
  | record caller job blocking =>
    rw [step, callBy]
    split
    · exact List.sublist_append_left _ _
    next hIdle =>
      have hCall : ((if caller = producer then some (job, blocking) else none).map Prod.fst).toList =
          if caller = producer then [job] else [] := by split <;> rfl
      rw [hCall]
      exact db.offeredBy_enqueue producer caller job blocking (Option.not_isSome_iff_eq_none.mp hIdle)
  | resume caller =>
    rw [step, offeredBy_resumePut]
    exact List.sublist_append_left _ _
  | timeout caller =>
    exact (db.offeredBy_timeoutPut producer caller).trans (List.sublist_append_left _ _)
  | close | putSentinel | join | writer | writerRaises =>
    rw [offeredBy_of_same db producer]
    · exact List.sublist_append_left _ _
    all_goals
      simp only [step, TelemetryDB.close, TelemetryDB.putSentinel, TelemetryDB.join, runWriter,
        drainStep, TelemetryDB.putBack, TelemetryDB.raise]
      repeat' split
      all_goals rfl

/-- A producer puts the jobs it records in the order in which it records them. -/
theorem putBy_sublist (capacity : ℤ) (events : List (QueueEvent Producer)) (producer : Producer) :
    ((run (opened capacity) events).putBy producer).Sublist
      ((callsBy producer events).map Prod.fst) := by
  have hOffered : ((run (opened capacity) events).offeredBy producer).Sublist
      ((callsBy producer events).map Prod.fst) := by
    induction events using List.reverseRecOn with
    | nil => exact List.Sublist.refl _
    | append_singleton events event ih =>
      have hCalls : (callsBy producer (events ++ [event])).map Prod.fst =
          (callsBy producer events).map Prod.fst ++
            ((callBy producer event).map Prod.fst).toList := by
        rw [callsBy, List.filterMap_append, List.map_append, ← callsBy]
        cases hCall : callBy producer event <;> simp [hCall]
      rw [hCalls, run_snoc]
      exact (offeredBy_step _ producer event).trans (ih.append_right _)
  exact (List.sublist_append_left _ _).trans hOffered

end TelemetryDB

end KalshiBot.Telemetry

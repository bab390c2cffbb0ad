import KalshiBot.Telemetry.WriteQueue
import Mathlib.Data.List.ReduceOption

/-! # What a shutdown flushes

The queue keeps the order of the puts, so whatever was put before the sentinel is handed
over before the writer sees it, as long as the writer can put a sentinel it took in the
middle of a batch back. It cannot when another put has taken the slot.
-/

namespace KalshiBot.Telemetry

open Library Runs

set_option autoImplicit false

variable {Producer : Type}

def ahead : List (Option WriteJob) → List WriteJob
  | [] | none :: _ => []
  | some job :: rest => job :: ahead rest

theorem ahead_prefix_append (items : List (Option WriteJob)) (item : Option WriteJob) :
    ahead items <+: ahead (items ++ [item]) := by
  induction items with
  | nil => exact List.nil_prefix
  | cons first rest ih =>
    cases first with
    | none => exact List.nil_prefix
    | some job => exact (List.prefix_cons_inj job).mpr ih

theorem ahead_append_sentinel {items : List (Option WriteJob)} (h : none ∉ items) :
    ahead (items ++ [none]) = items.reduceOption := by
  induction items with
  | nil => rfl
  | cons first rest ih =>
    cases first with
    | none => exact absurd List.mem_cons_self h
    | some job =>
      rw [List.reduceOption_cons_of_some, ← ih fun hMem => h (List.mem_cons_of_mem _ hMem)]
      rfl

/-- The jobs put before the sentinel, once it has been put. -/
def Closer.before : Closer → Option (List WriteJob)
  | joining before | returned before => some before
  | _ => none

namespace TelemetryDB

/-- Every job put is handed over, in the writer's hand or queued, in the order of the puts. -/
def Fifo (db : TelemetryDB Producer) : Prop :=
  db.handed.flatten ++ db.writer.inHand ++ db.queue.items.reduceOption = db.put.map Prod.snd

theorem Fifo.move {db db' : TelemetryDB Producer} (h : db.Fifo) (hMove : db.Moves db')
    (hBack : db'.writer ≠ .raised .queueFull) : db'.Fifo := by
  unfold Fifo at h ⊢
  cases hMove with
  | stay | hold | close | join => exact h
  | put queue producer job waiting hItems =>
    simp only [hItems, List.reduceOption_append, List.map_append, ← h, List.append_assoc]
    rfl
  | putSentinel queue hCloser hItems =>
    simpa only [hItems, List.reduceOption_append, List.reduceOption_singleton, Option.toList_none,
      List.append_nil] using h
  | loop hWriter | raise hWriter =>
    obtain hWriter | hWriter := hWriter <;> rw [hWriter] at h <;> exact h
  | take queue job hWriter hItems =>
    simpa [hWriter, hItems, Writer.inHand, List.reduceOption_cons_of_some] using h
  | stop queue hWriter hItems =>
    simpa [hWriter, hItems, Writer.inHand, List.reduceOption_cons_of_none] using h
  | drain queue batch job hWriter hItems =>
    simpa [hWriter, hItems, Writer.inHand, List.reduceOption_cons_of_some] using h
  | takeSentinel queue batch hWriter hItems =>
    simpa [hWriter, hItems, Writer.inHand, List.reduceOption_cons_of_none] using h
  | handOver batch hWriter => simpa [hWriter, Writer.inHand] using h
  | putBack queue batch hWriter hItems =>
    simpa [hWriter, hItems, Writer.inHand, List.reduceOption_append] using h
  | fail => exact absurd rfl hBack

theorem raised_move {db db' : TelemetryDB Producer} (hMove : db.Moves db') {error : WriterError}
    (h : db.writer = .raised error) : db'.writer = .raised error := by
  cases hMove with
  | stay | put | hold | close | putSentinel | join => exact h
  | loop hWriter | raise hWriter => obtain hWriter | hWriter := hWriter <;> cases h.symm.trans hWriter
  | take _ _ hWriter | stop _ hWriter | drain _ _ _ hWriter | takeSentinel _ _ hWriter
  | handOver _ hWriter | putBack _ _ hWriter | fail _ hWriter => cases h.symm.trans hWriter

theorem fifo_run [DecidableEq Producer] (capacity : ℤ) (events : List (QueueEvent Producer))
    (hBack : (run (opened capacity) events).writer ≠ .raised .queueFull) :
    (run (opened capacity) events).Fifo := by
  induction events using List.reverseRecOn with
  | nil => rfl
  | append_singleton events event ih =>
    rw [run_snoc] at hBack ⊢
    have hMove := moves_step (run (opened capacity) events) event
    exact (ih fun hRaised => hBack (raised_move hMove hRaised)).move hMove hBack

theorem prefix_of_raised {db db' : TelemetryDB Producer} (hMove : db.Moves db') {error : WriterError}
    (hRaised : db'.writer = .raised error) :
    db'.handed = db.handed ∧ db.put.map Prod.snd <+: db'.put.map Prod.snd := by
  cases hMove with
  | put =>
    rw [List.map_append]
    exact ⟨rfl, List.prefix_append _ _⟩
  | handOver | putBack => cases hRaised
  | _ => exact ⟨rfl, List.prefix_rfl⟩

/-- Even a writer thread that an exception has ended has handed over nothing but jobs that
were put, in the order in which they were put. -/
theorem handed_prefix [DecidableEq Producer] (capacity : ℤ) (events : List (QueueEvent Producer)) :
    (run (opened capacity) events).handed.flatten <+:
      (run (opened capacity) events).put.map Prod.snd := by
  induction events using List.reverseRecOn with
  | nil => exact List.prefix_rfl
  | append_singleton events event ih =>
    have hMove := moves_step (run (opened capacity) events) event
    by_cases hBack : (run (opened capacity) (events ++ [event])).writer = .raised .queueFull
    · rw [run_snoc] at hBack ⊢
      obtain ⟨hHanded, hPut⟩ := prefix_of_raised hMove hBack
      rw [hHanded]
      exact ih.trans hPut
    · have hFifo := fifo_run capacity _ hBack
      rw [Fifo, List.append_assoc] at hFifo
      exact ⟨_, hFifo⟩

def Drained (db : TelemetryDB Producer) : Prop :=
  (∀ job, some job ∉ db.queue.items) ∧ (db.writer = .getting ∨ db.writer = .stopped)

theorem Fifo.handed_of_drained {db : TelemetryDB Producer} (hFifo : db.Fifo) (h : db.Drained) :
    db.handed.flatten = db.put.map Prod.snd := by
  obtain ⟨hEmpty, hWriter⟩ := h
  have hQueue : db.queue.items.reduceOption = [] := by
    rw [List.eq_nil_iff_forall_not_mem]
    exact fun job hMem => hEmpty job (List.reduceOption_mem_iff.mp hMem)
  have hHand : db.writer.inHand = [] := by
    obtain hW | hW := hWriter <;> rw [hW] <;> rfl
  rwa [Fifo, hQueue, hHand, List.append_nil, List.append_nil] at hFifo

theorem handed_of_drained [DecidableEq Producer] {capacity : ℤ} {events : List (QueueEvent Producer)}
    (h : (run (opened capacity) events).Drained) :
    (run (opened capacity) events).handed.flatten =
      (run (opened capacity) events).put.map Prod.snd := by
  refine (fifo_run capacity events fun hRaised => ?_).handed_of_drained h
  obtain hWriter | hWriter := h.2 <;> cases hWriter.symm.trans hRaised

def beforeSentinel (db : TelemetryDB Producer) : List WriteJob :=
  db.handed.flatten ++ db.writer.inHand ++
    match db.writer with
    | .puttingBack _ | .stopped => []
    | _ => ahead db.queue.items

theorem beforeSentinel_prefix {db db' : TelemetryDB Producer} (hMove : db.Moves db')
    (hBack : db'.writer ≠ .raised .queueFull) : db.beforeSentinel <+: db'.beforeSentinel := by
  unfold beforeSentinel
  cases hMove with
  | stay | hold | close | join => exact List.prefix_rfl
  | put queue producer job waiting hItems | putSentinel queue hCloser hItems =>
    rw [List.prefix_append_right_inj, hItems]
    cases db.writer <;> first | exact List.prefix_rfl | exact ahead_prefix_append _ _
  | loop hWriter | raise hWriter =>
    obtain hWriter | hWriter := hWriter <;> rw [hWriter] <;> exact List.prefix_rfl
  | take queue job hWriter hItems | drain queue batch job hWriter hItems =>
    simp [hWriter, hItems, Writer.inHand, ahead]
  | stop queue hWriter hItems | takeSentinel queue batch hWriter hItems =>
    simp [hWriter, hItems, Writer.inHand, ahead]
  | handOver batch hWriter | putBack queue batch hWriter hItems =>
    simp [hWriter, Writer.inHand]
  | fail => exact absurd rfl hBack

/-- The sentinel and the call of `close`: before the call puts the sentinel there is none, and
afterwards every job put before it still comes before it. -/
structure Closing (db : TelemetryDB Producer) : Prop where
  fifo : db.Fifo
  unput : db.closer.before = none →
    none ∉ db.queue.items ∧ (∀ batch, db.writer ≠ .puttingBack batch) ∧ db.writer ≠ .stopped
  kept : ∀ before, db.closer.before = some before → before <+: db.beforeSentinel
  joined : ∀ before, db.closer = .returned before → db.writer.Ended

theorem closing_opened (capacity : ℤ) : (opened capacity : TelemetryDB Producer).Closing where
  fifo := rfl
  unput _ := ⟨List.not_mem_nil, nofun, nofun⟩
  kept := nofun
  joined := nofun

theorem unput_move {db db' : TelemetryDB Producer} (hMove : db.Moves db')
    (h : none ∉ db.queue.items ∧ (∀ batch, db.writer ≠ .puttingBack batch) ∧ db.writer ≠ .stopped)
    (hCloser : db'.closer.before = none) :
    none ∉ db'.queue.items ∧ (∀ batch, db'.writer ≠ .puttingBack batch) ∧ db'.writer ≠ .stopped := by
  obtain ⟨hNone, hBacks, hStopped⟩ := h
  cases hMove with
  | stay | hold | close => exact ⟨hNone, hBacks, hStopped⟩
  | put queue producer job waiting hItems => exact ⟨by simp [hItems, hNone], hBacks, hStopped⟩
  | putSentinel | join => cases hCloser
  | loop | raise => exact ⟨hNone, nofun, nofun⟩
  | take queue job hWriter hItems | drain queue batch job hWriter hItems =>
    exact ⟨fun hMem => hNone (hItems ▸ List.mem_cons_of_mem _ hMem), nofun, nofun⟩
  | stop queue hWriter hItems | takeSentinel queue batch hWriter hItems =>
    exact absurd (hItems ▸ List.mem_cons_self) hNone
  | handOver => exact ⟨hNone, nofun, nofun⟩
  | putBack queue batch hWriter | fail batch hWriter => exact absurd hWriter (hBacks batch)

theorem Ended.move {db db' : TelemetryDB Producer} (hMove : db.Moves db') (h : db.writer.Ended) :
    db'.writer.Ended := by
  cases hMove with
  | stay | put | hold | close | putSentinel | join => exact h
  | loop hWriter | raise hWriter => obtain hWriter | hWriter := hWriter <;> rw [hWriter] at h <;> cases h
  | take _ _ hWriter | stop _ hWriter | drain _ _ _ hWriter | takeSentinel _ _ hWriter
  | handOver _ hWriter | putBack _ _ hWriter | fail _ hWriter => rw [hWriter] at h; cases h

/-- With no sentinel about, everything put comes before one put now. -/
theorem before_of_putSentinel {db : TelemetryDB Producer} (hFifo : db.Fifo)
    (h : none ∉ db.queue.items ∧ (∀ batch, db.writer ≠ .puttingBack batch) ∧ db.writer ≠ .stopped)
    {queue : BoundedQueue (Option WriteJob)} (hItems : queue.items = db.queue.items ++ [none])
    (closer : Closer) :
    db.put.map Prod.snd = beforeSentinel { db with queue, closer } := by
  obtain ⟨hNone, hBacks, hStopped⟩ := h
  unfold Fifo at hFifo
  unfold beforeSentinel
  rw [← hFifo, hItems, List.append_cancel_left_eq]
  split
  next batch hWriter => exact absurd hWriter (hBacks batch)
  next hWriter => exact absurd hWriter hStopped
  next => exact (ahead_append_sentinel hNone).symm

theorem Closing.move {db db' : TelemetryDB Producer} (h : db.Closing) (hMove : db.Moves db')
    (hBack : db'.writer ≠ .raised .queueFull) : db'.Closing := by
  have hPrefix := beforeSentinel_prefix hMove hBack
  have hEnds := Ended.move hMove
  refine ⟨h.fifo.move hMove hBack, fun hCloser => ?_, fun before hBefore => ?_,
    fun before hReturned => ?_⟩
  · refine unput_move hMove (h.unput ?_) hCloser
    cases hMove with
    | close hNotCalled => rw [hNotCalled]; rfl
    | putSentinel | join => cases hCloser
    | _ => exact hCloser
  · cases hMove with
    | putSentinel queue hPutting hItems =>
      cases hBefore
      have hBefore := before_of_putSentinel h.fifo (h.unput (by rw [hPutting]; rfl)) hItems
        (.joining (db.put.map Prod.snd))
      exact ⟨[], (List.append_nil _).trans hBefore⟩
    | join joined hJoining =>
      exact (h.kept before (by rw [hJoining]; exact hBefore)).trans hPrefix
    | close => cases hBefore
    | _ => exact (h.kept before hBefore).trans hPrefix
  · cases hMove with
    | close | putSentinel => cases hReturned
    | join joined hJoining hEnded => exact hEnded
    | _ => exact hEnds (h.joined before hReturned)

/-- Once `close` has returned, every job put before its sentinel has been handed over, first and
in order, and no exception has ended the writer thread. -/
def FlushedOnClose (db : TelemetryDB Producer) : Prop :=
  (∀ before, db.closer = .returned before → before <+: db.handed.flatten) ∧
    ∀ error, db.writer ≠ .raised error

theorem Closing.flushedOnClose {db : TelemetryDB Producer} (h : db.Closing)
    (hAlive : ∀ error, db.writer ≠ .raised error) : db.FlushedOnClose := by
  refine ⟨fun before hReturned => ?_, hAlive⟩
  have hStopped : db.writer = .stopped := by
    have hEnded := h.joined before hReturned
    cases hWriter : db.writer with
    | stopped => rfl
    | raised error => exact absurd hWriter (hAlive error)
    | _ => rw [hWriter] at hEnded; cases hEnded
  have hKept := h.kept before (by rw [hReturned]; rfl)
  simpa only [beforeSentinel, hStopped, Writer.inHand, List.append_nil] using hKept

/-- The sentinel is put back only where there is room for it, and `_run_writer` meets no
exception but those it handles. -/
def Safe (db : TelemetryDB Producer) : QueueEvent Producer → Prop
  | .writer => ∀ batch, db.writer = .puttingBack batch → ¬db.queue.Full
  | .writerRaises => db.writer ≠ .opening ∧ db.writer ≠ .writing
  | _ => True

variable [DecidableEq Producer]

theorem writer_step (db : TelemetryDB Producer) (event : QueueEvent Producer) :
    event = .writer ∨ event = .writerRaises ∨
      ((db.step event).writer = db.writer ∧ (db.step event).handed = db.handed) := by
  cases event with
  | writer => exact .inl rfl
  | writerRaises => exact .inr (.inl rfl)
  | record | resume | timeout | close | putSentinel | join =>
    refine .inr (.inr ?_)
    simp only [step, enqueue, resumePut, timeoutPut, TelemetryDB.close, TelemetryDB.putSentinel,
      TelemetryDB.join, recordDrop]
    repeat' split
    all_goals exact ⟨rfl, rfl⟩

omit [DecidableEq Producer] in
theorem raised_runWriter_iff (db : TelemetryDB Producer) (error : WriterError) :
    db.runWriter.writer = .raised error ↔
      db.writer = .raised error ∨
        error = .queueFull ∧ db.queue.Full ∧ ∃ batch, db.writer = .puttingBack batch := by
  cases hWriter : db.writer with
  | puttingBack batch =>
    simp only [runWriter, hWriter, TelemetryDB.putBack]
    split
    next hPut =>
      have hFull := BoundedQueue.putNowait_eq_none.mp hPut
      simp [hFull, eq_comm]
    next queue hPut =>
      have hRoom := (BoundedQueue.putNowait_eq_some hPut).1
      simp [hRoom]
  | getting | draining batch =>
    simp only [runWriter, drainStep, hWriter]
    repeat' split
    all_goals simp [hWriter]
  | _ => simp [runWriter, hWriter]

theorem alive_step {db : TelemetryDB Producer} {event : QueueEvent Producer} (hSafe : db.Safe event)
    (hAlive : ∀ error, db.writer ≠ .raised error) (error : WriterError) :
    (db.step event).writer ≠ .raised error := by
  obtain rfl | rfl | ⟨hSame, -⟩ := db.writer_step event
  · intro hRaised
    obtain hRaised | ⟨-, hFull, batch, hWriter⟩ := (raised_runWriter_iff db error).mp hRaised
    · exact hAlive error hRaised
    · exact hSafe batch hWriter hFull
  · rw [step, TelemetryDB.raise]
    split
    next hWriter => exact absurd hWriter hSafe.1
    next hWriter => exact absurd hWriter hSafe.2
    next => exact hAlive error
  · rw [hSame]
    exact hAlive error

theorem raised_of_unsafe {db : TelemetryDB Producer} {event : QueueEvent Producer}
    (h : ¬db.Safe event) : ∃ error, (db.step event).writer = .raised error := by
  cases event with
  | writer =>
    simp only [Safe, not_forall, not_not] at h
    obtain ⟨batch, hWriter, hFull⟩ := h
    exact ⟨.queueFull, (raised_runWriter_iff db _).mpr (.inr ⟨rfl, hFull, batch, hWriter⟩)⟩
  | writerRaises =>
    refine ⟨.uncaught, ?_⟩
    rw [step, TelemetryDB.raise]
    split
    · rfl
    · rfl
    next hOpening hWriting => exact absurd ⟨hOpening, hWriting⟩ h
  | record | resume | timeout | close | putSentinel | join => exact absurd trivial h

theorem flushedOnClose_iff (capacity : ℤ) (events : List (QueueEvent Producer)) :
    Always step FlushedOnClose (opened capacity) events ↔
      Throughout step Safe (opened capacity) events := by
  constructor
  · rintro h before event after rfl
    by_contra hUnsafe
    obtain ⟨error, hRaised⟩ := raised_of_unsafe hUnsafe
    have hFlushed := h (before ++ [event]) after (by simp)
    rw [List.foldl_append] at hFlushed
    exact hFlushed.2 error hRaised
  · intro hSafe before after hEvents
    have hStep : ∀ (db : TelemetryDB Producer) event, db.Safe event →
        (db.Closing ∧ ∀ error, db.writer ≠ .raised error) →
          (db.step event).Closing ∧ ∀ error, (db.step event).writer ≠ .raised error := by
      rintro db event hSafe ⟨hClosing, hAlive⟩
      have hNext := alive_step hSafe hAlive
      exact ⟨hClosing.move (db.moves_step event) (hNext _), hNext⟩
    obtain ⟨hClosing, hAlive⟩ := hSafe.always hStep ⟨closing_opened capacity, nofun⟩ before after hEvents
    exact hClosing.flushedOnClose hAlive

theorem run_records (job : WriteJob) (producer : Producer) (n : ℕ) {db : TelemetryDB Producer}
    (hThread : db.writerThread = true) (hIdle : db.waiting producer = none)
    (hRoom : (db.queue.items.length + n : ℤ) ≤ db.queue.capacity) :
    ∃ queue, db.run (List.replicate n (.record producer job true)) =
        { db with queue, put := db.put ++ List.replicate n (producer, job) } ∧
      queue.capacity = db.queue.capacity ∧
        queue.items = db.queue.items ++ List.replicate n (some job) := by
  induction n generalizing db with
  | zero => exact ⟨db.queue, by simp [run], rfl, by simp⟩
  | succ n ih =>
    have hFull : ¬db.queue.Full := by
      rintro ⟨-, hLe⟩
      omega
    obtain ⟨queue, hPut, hCapacity, hItems⟩ := BoundedQueue.putNowait_of_room hFull (some job)
    have hStep : db.step (.record producer job true) =
        { db with queue, put := db.put ++ [(producer, job)] } := by
      simp [step, enqueue, hIdle, hThread, hPut]
    have hLength : (queue.items.length + n : ℤ) ≤ queue.capacity := by
      rw [hItems, hCapacity, List.length_append, List.length_singleton]
      omega
    obtain ⟨last, hRun, hLastCapacity, hLastItems⟩ :=
      @ih { db with queue, put := db.put ++ [(producer, job)] } hThread hIdle hLength
    refine ⟨last, ?_, hLastCapacity.trans hCapacity, ?_⟩
    · rw [List.replicate_succ, run, List.foldl_cons, hStep]
      refine hRun.trans ?_
      simp [List.replicate_succ]
    · simp [hLastItems, hItems, List.replicate_succ]

theorem step_record_full {db : TelemetryDB Producer} {job : WriteJob} {producer : Producer}
    (hThread : db.writerThread = true) (hIdle : db.waiting producer = none) (hFull : db.queue.Full)
    (hTable : job.table ∈ undroppableTables) : db.step (.record producer job true) =
      { db with waiting := Function.update db.waiting producer (some job) } := by
  have hPut : db.queue.putNowait (some job) = none := BoundedQueue.putNowait_eq_none.mpr hFull
  simp [step, enqueue, hThread, hIdle, hPut, hTable]

/-- With the sentinel in front of a full queue, a batch being drained and a producer that
waits for room, the batch is lost. -/
theorem batch_lost (db : TelemetryDB Producer) (producer : Producer) {batch before : List WriteJob}
    {rest : List (Option WriteJob)} {job : WriteJob}
    (hWriter : db.writer = .draining batch) (hBatch : batch.length < maxBatchSize)
    (hCloser : db.closer = .joining before) (hItems : db.queue.items = none :: rest)
    (hFull : db.queue.Full) (hWaiting : db.waiting producer = some job) :
    (db.run [.writer, .resume producer, .writer, .join]).closer = .returned before ∧
      (db.run [.writer, .resume producer, .writer, .join]).handed = db.handed ∧
        (db.run [.writer, .resume producer, .writer, .join]).writer = .raised .queueFull := by
  obtain ⟨emptied, hGet, hEmptied, hRest⟩ := BoundedQueue.getNowait_of_cons hItems
  have hRoom : ¬emptied.Full := by
    rintro ⟨-, hLe⟩
    have hBound := db.queue.bounded hFull.1
    rw [hItems, List.length_cons] at hBound
    rw [hRest, hEmptied] at hLe
    omega
  obtain ⟨refilled, hPut, hRefilled, hAgain⟩ := BoundedQueue.putNowait_of_room hRoom (some job)
  have hBack : refilled.putNowait none = none := by
    rw [BoundedQueue.putNowait_eq_none, BoundedQueue.Full, hAgain, hRefilled, hEmptied, hRest]
    have hLe := hFull.2
    rw [hItems, List.length_cons] at hLe
    refine ⟨hFull.1, ?_⟩
    rw [List.length_append, List.length_singleton]
    exact hLe
  simp [run, step, runWriter, drainStep, resumePut, putBack, join, hWriter, hBatch, hGet, hWaiting,
    hPut, hBack, hCloser, Writer.Ended]

end TelemetryDB

def demoFill (fillId : String) : WriteJob where
  table := .insertInto .fills
  row := rowOf [(.fillId, .str fillId), (.orderId, .str "order-1"), (.ticker, .str "KX-A-1"),
    (.outcomeSide, .str "yes"), (.countFp, .str "1.00"), (.yesPriceDollars, .str "0.5000"),
    (.source, .str "ws"), (.recordedAtMs, .int 1000)]

/-- A fill is drained, `close` puts its sentinel behind it, as many other fills as given
follow and one more waits for room. -/
def fullShutdown (others : ℕ) : List (QueueEvent ℕ) :=
  [.writer, .record 0 (demoFill "fill-0") true, .writer, .close, .putSentinel] ++
    List.replicate others (.record 1 (demoFill "fill-1") true) ++
      [.record 2 (demoFill "fill-2") true] ++ [.writer, .resume 2, .writer, .join]

/-- When the others fill the queue up, the drained fill is lost. -/
theorem run_fullShutdown (others : ℕ) (hOthers : others + 1 = maxQueueSize) :
    (TelemetryDB.run (.opened maxQueueSize) (fullShutdown others)).closer =
        .returned [demoFill "fill-0"] ∧
      (TelemetryDB.run (.opened maxQueueSize) (fullShutdown others)).handed = [] ∧
        (TelemetryDB.run (.opened maxQueueSize) (fullShutdown others)).writer =
          .raised .queueFull := by
  let drained : TelemetryDB ℕ := TelemetryDB.run (.opened maxQueueSize)
    [.writer, .record 0 (demoFill "fill-0") true, .writer, .close, .putSentinel]
  have hLength : drained.queue.items.length = 1 := rfl
  have hBound : drained.queue.capacity = maxQueueSize := rfl
  obtain ⟨queue, hRecords, hCapacity, hItems⟩ :=
    @TelemetryDB.run_records ℕ _ (demoFill "fill-1") 1 others drained rfl rfl (by omega)
  have hFull : queue.Full := by
    rw [BoundedQueue.Full, hCapacity, hItems, List.length_append, List.length_replicate, hBound]
    omega
  let put := drained.put ++ List.replicate others (1, demoFill "fill-1")
  let waiting := Function.update drained.waiting 2 (some (demoFill "fill-2"))
  have hWaits : TelemetryDB.step { drained with queue, put } (.record 2 (demoFill "fill-2") true) =
      { drained with queue, put, waiting } :=
    TelemetryDB.step_record_full rfl rfl hFull (by decide)
  have hRun : TelemetryDB.run (.opened maxQueueSize) (fullShutdown others) =
      TelemetryDB.run { drained with queue, put, waiting } [.writer, .resume 2, .writer, .join] := by
    rw [← hWaits, ← hRecords]
    simp only [fullShutdown, TelemetryDB.run, List.foldl_append, List.foldl_cons, List.foldl_nil,
      drained]
  rw [hRun]
  exact TelemetryDB.batch_lost { drained with queue, put, waiting } 2 rfl (by decide) rfl hItems
    hFull rfl

theorem fullShutdown_loses_fill :
    (TelemetryDB.run (.opened maxQueueSize) (fullShutdown 9999)).closer =
        .returned [demoFill "fill-0"] ∧
      (TelemetryDB.run (.opened maxQueueSize) (fullShutdown 9999)).handed = [] ∧
        ¬Always TelemetryDB.step TelemetryDB.FlushedOnClose (.opened maxQueueSize)
          (fullShutdown 9999) := by
  obtain ⟨hReturned, hHanded, hRaised⟩ := run_fullShutdown 9999 (by decide)
  refine ⟨hReturned, hHanded, fun hAlways => ?_⟩
  have hFlushed := hAlways (fullShutdown 9999) [] (List.append_nil _).symm
  exact hFlushed.2 .queueFull hRaised

end KalshiBot.Telemetry

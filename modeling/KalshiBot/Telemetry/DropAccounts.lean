import KalshiBot.Telemetry.Shutdown

/-! # What becomes of every recorded row

A call of `record_*` that does not raise has offered its row. Each row offered is put on the
queue, still waiting for room in it, or dropped, and the counter has counted every drop.
-/

namespace KalshiBot.Telemetry

open Library Runs
open scoped List

set_option autoImplicit false

variable {Producer : Type} [DecidableEq Producer]

namespace TelemetryDB

/-- The jobs of one producer among these. -/
def ofProducer (producer : Producer) (jobs : List (Producer × WriteJob)) : List WriteJob :=
  (jobs.filter fun entry => entry.1 = producer).map Prod.snd

theorem ofProducer_append (producer : Producer) (jobs others : List (Producer × WriteJob)) :
    ofProducer producer (jobs ++ others) =
      ofProducer producer jobs ++ ofProducer producer others := by
  rw [ofProducer, List.filter_append, List.map_append, ← ofProducer, ← ofProducer]

theorem ofProducer_singleton (producer caller : Producer) (job : WriteJob) :
    ofProducer producer [(caller, job)] = if caller = producer then [job] else [] := by
  by_cases hSame : caller = producer <;> simp [ofProducer, hSame]

/-- What the call of an event offers: its caller is in no other call, and the database is open. -/
def accepted (db : TelemetryDB Producer) (producer : Producer) :
    QueueEvent Producer → List WriteJob
  | .record caller job _ =>
    if caller = producer ∧ db.waiting caller = none ∧ db.writerThread then [job] else []
  | _ => []

def acceptedBy (db : TelemetryDB Producer) (producer : Producer) :
    List (QueueEvent Producer) → List WriteJob
  | [] => []
  | event :: events => db.accepted producer event ++ (db.step event).acceptedBy producer events

/-- The row that an event loses: its own, or the one that was waiting for room. -/
def loses (db : TelemetryDB Producer) (event : QueueEvent Producer) : List (Producer × WriteJob) :=
  if (db.step event).dropped = db.dropped then []
  else
    match event with
    | .record caller job _ => [(caller, job)]
    | .timeout caller => (db.waiting caller).toList.map (Prod.mk caller)
    | _ => []

def lostDuring (db : TelemetryDB Producer) :
    List (QueueEvent Producer) → List (Producer × WriteJob)
  | [] => []
  | event :: events => db.loses event ++ (db.step event).lostDuring events

theorem loses_of_dropped_eq {db : TelemetryDB Producer} {event : QueueEvent Producer}
    (h : (db.step event).dropped = db.dropped) : db.loses event = [] := if_pos h

theorem loses_record {db : TelemetryDB Producer} {caller : Producer} {job : WriteJob}
    {blocking : Bool} (h : db.step (.record caller job blocking) = db.recordDrop) :
    db.loses (.record caller job blocking) = [(caller, job)] := by
  have hCounted : (db.step (.record caller job blocking)).dropped ≠ db.dropped := by
    rw [h]
    exact Nat.succ_ne_self _
  exact if_neg hCounted

/-- A row of an undroppable table is lost only by a call that would not wait for room, or by a
call that has waited for it all the time that it had. -/
def Reason (db : TelemetryDB Producer) (event : QueueEvent Producer)
    (entry : Producer × WriteJob) : Prop :=
  event = .record entry.1 entry.2 false ∨
    event = .timeout entry.1 ∧ db.waiting entry.1 = some entry.2

structure Accounts (db : TelemetryDB Producer) (event : QueueEvent Producer) : Prop where
  dropped : (db.step event).dropped = db.dropped + (db.loses event).length
  offered : ∀ producer, (db.offeredBy producer ++ db.accepted producer event).Perm
    ((db.step event).offeredBy producer ++ ofProducer producer (db.loses event))
  reasons : ∀ entry ∈ db.loses event, entry.2.table ∈ undroppableTables → db.Reason event entry

theorem Accounts.quiet {db : TelemetryDB Producer} {event : QueueEvent Producer}
    (hDropped : (db.step event).dropped = db.dropped)
    (hOffered : ∀ producer, (db.offeredBy producer ++ db.accepted producer event).Perm
      ((db.step event).offeredBy producer)) : Accounts db event := by
  have hNone : db.loses event = [] := loses_of_dropped_eq hDropped
  refine ⟨?_, fun producer => ?_, ?_⟩
  · rw [hDropped, hNone, List.length_nil, Nat.add_zero]
  · rw [hNone]
    exact (hOffered producer).trans (.of_eq (List.append_nil _).symm)
  · rw [hNone]
    exact List.forall_mem_nil _

theorem Accounts.unmoved {db : TelemetryDB Producer} {event : QueueEvent Producer}
    (hAccepted : ∀ producer, db.accepted producer event = [])
    (hDropped : (db.step event).dropped = db.dropped)
    (hOffered : ∀ producer, (db.step event).offeredBy producer = db.offeredBy producer) :
    Accounts db event := by
  refine .quiet hDropped fun producer => ?_
  rw [hAccepted, List.append_nil, hOffered]

theorem accounts_recordDrop {db : TelemetryDB Producer} {caller : Producer} {job : WriteJob}
    {blocking : Bool} (hIdle : db.waiting caller = none) (hOpen : db.writerThread = true)
    (hStep : db.step (.record caller job blocking) = db.recordDrop)
    (hReason : job.table ∈ undroppableTables → blocking = false) :
    Accounts db (.record caller job blocking) := by
  have hLost := loses_record hStep
  refine ⟨?_, fun producer => ?_, ?_⟩
  · rw [hLost, hStep, recordDrop, List.length_singleton]
  · rw [hLost, hStep, ofProducer_singleton, accepted, hIdle, hOpen]
    simp only [and_true]
    exact .refl _
  · rw [hLost]
    rintro entry hEntry hUndroppable
    obtain rfl := List.mem_singleton.mp hEntry
    rw [hReason hUndroppable]
    exact .inl rfl

theorem accounts_record (db : TelemetryDB Producer) (caller : Producer) (job : WriteJob)
    (blocking : Bool) : Accounts db (.record caller job blocking) := by
  by_cases hIdle : db.waiting caller = none
  · have hStep : db.step (.record caller job blocking) = db.enqueue caller job blocking := by
      rw [step, if_neg (Option.not_isSome_iff_eq_none.mpr hIdle)]
    have hAccepted : ∀ producer, db.accepted producer (.record caller job blocking) =
        if caller = producer ∧ db.writerThread then [job] else [] := by
      intro producer
      simp only [accepted, hIdle, true_and]
    by_cases hOpen : db.writerThread = true
    · have hOffers : ∀ producer, db.accepted producer (.record caller job blocking) =
          if caller = producer then [job] else [] := by
        intro producer
        rw [hAccepted, hOpen]
        simp only [and_true]
      have hUnclosed : db.writerThread ≠ false := by rw [hOpen]; exact Bool.noConfusion
      rw [enqueue, if_neg hUnclosed] at hStep
      cases hPut : db.queue.putNowait (some job) with
      | some queue =>
        rw [hPut] at hStep
        refine .quiet (by rw [hStep]) fun producer => ?_
        rw [hOffers, hStep, offeredBy, offeredBy, putBy_append]
        by_cases hSame : caller = producer
        · subst hSame
          simp [hIdle]
        · simp [hSame]
      | none =>
        rw [hPut] at hStep
        by_cases hNow : job.table ∈ undroppableTables ∧ blocking = false
        · simp only [if_pos hNow] at hStep
          exact accounts_recordDrop hIdle hOpen hStep fun _ => hNow.2
        · by_cases hUndroppable : job.table ∈ undroppableTables
          · simp only [if_neg hNow, if_pos hUndroppable] at hStep
            refine .quiet (by rw [hStep]) fun producer => ?_
            rw [hOffers, hStep, offeredBy, offeredBy]
            by_cases hSame : caller = producer
            · subst hSame
              simp [hIdle, putBy]
            · simp [hSame, Ne.symm hSame, putBy]
          · simp only [if_neg hNow, if_neg hUndroppable] at hStep
            exact accounts_recordDrop hIdle hOpen hStep fun hTable => absurd hTable hUndroppable
    · have hClosed : db.writerThread = false := Bool.not_eq_true _ |>.mp hOpen
      rw [enqueue, if_pos hClosed] at hStep
      refine .unmoved (fun producer => ?_) (by rw [hStep]) fun _ => by rw [hStep]
      rw [hAccepted, hClosed]
      simp only [Bool.false_eq_true, and_false, if_false]
  · have hStep : db.step (.record caller job blocking) = db := by
      rw [step, if_pos (Option.isSome_iff_ne_none.mpr hIdle)]
    refine .unmoved (fun producer => ?_) (by rw [hStep]) fun _ => by rw [hStep]
    simp only [accepted, hIdle, false_and, and_false, if_false]

theorem accounts_timeout (db : TelemetryDB Producer) (caller : Producer) :
    Accounts db (.timeout caller) := by
  have hStep : db.step (.timeout caller) = db.timeoutPut caller := rfl
  cases hWaiting : db.waiting caller with
  | none =>
    refine .unmoved (fun _ => rfl) ?_ fun producer => ?_ <;>
      simp only [hStep, timeoutPut, hWaiting]
  | some job =>
    have hCounted : (db.step (.timeout caller)).dropped = db.dropped + 1 := by
      simp only [hStep, timeoutPut, hWaiting, recordDrop]
    have hLost : db.loses (.timeout caller) = [(caller, job)] := by
      have hRisen : (db.step (.timeout caller)).dropped ≠ db.dropped := by
        rw [hCounted]
        exact Nat.succ_ne_self _
      rw [loses, if_neg hRisen]
      simp only [hWaiting, Option.toList_some, List.map_cons, List.map_nil]
    refine ⟨?_, fun producer => ?_, ?_⟩
    · rw [hCounted, hLost, List.length_singleton]
    · rw [hLost, ofProducer_singleton, offeredBy, offeredBy, putBy, putBy]
      simp only [hStep, timeoutPut, hWaiting, recordDrop, accepted]
      by_cases hSame : caller = producer
      · subst hSame
        simp [hWaiting]
      · simp [hSame, Ne.symm hSame]
    · rw [hLost]
      rintro entry hEntry -
      obtain rfl := List.mem_singleton.mp hEntry
      exact .inr ⟨rfl, hWaiting⟩

theorem accounts_step (db : TelemetryDB Producer) (event : QueueEvent Producer) :
    Accounts db event := by
  cases event with
  | record caller job blocking => exact db.accounts_record caller job blocking
  | resume caller =>
    refine .unmoved (fun _ => rfl) ?_ fun producer => db.offeredBy_resumePut producer caller
    simp only [step, resumePut]
    split
    · rfl
    · split <;> rfl
  | timeout caller => exact db.accounts_timeout caller
  | close | putSentinel | join | writer | writerRaises =>
    refine .unmoved (fun _ => rfl) ?_ fun producer => offeredBy_of_same db producer ?_ ?_
    all_goals
      simp only [step, TelemetryDB.close, TelemetryDB.putSentinel, TelemetryDB.join, runWriter,
        drainStep, TelemetryDB.putBack, TelemetryDB.raise]
      repeat' split
      all_goals rfl

theorem accounts_run (db : TelemetryDB Producer) (events : List (QueueEvent Producer)) :
    (db.run events).dropped = db.dropped + (db.lostDuring events).length ∧
      ∀ producer, (db.offeredBy producer ++ db.acceptedBy producer events).Perm
        ((db.run events).offeredBy producer ++ ofProducer producer (db.lostDuring events)) := by
  induction events generalizing db with
  | nil => exact ⟨rfl, fun producer => .refl _⟩
  | cons event events ih =>
    have hNow := db.accounts_step event
    obtain ⟨hDropped, hOffered⟩ := ih (db.step event)
    refine ⟨?_, fun producer => ?_⟩
    · have hRun : (db.run (event :: events)).dropped = ((db.step event).run events).dropped := rfl
      rw [hRun, hDropped, hNow.dropped, lostDuring, List.length_append, Nat.add_assoc]
    · rw [acceptedBy, lostDuring, ← List.append_assoc, ofProducer_append]
      calc db.offeredBy producer ++ db.accepted producer event ++
            (db.step event).acceptedBy producer events
        _ ~ (db.step event).offeredBy producer ++ ofProducer producer (db.loses event) ++
            (db.step event).acceptedBy producer events := (hNow.offered producer).append_right _
        _ ~ (db.step event).offeredBy producer ++ (db.step event).acceptedBy producer events ++
            ofProducer producer (db.loses event) := by
          rw [List.append_assoc, List.append_assoc]
          exact List.perm_append_comm.append_left _
        _ ~ (db.run (event :: events)).offeredBy producer ++
            ofProducer producer ((db.step event).lostDuring events) ++
            ofProducer producer (db.loses event) := (hOffered producer).append_right _
        _ ~ (db.run (event :: events)).offeredBy producer ++
            (ofProducer producer (db.loses event) ++
              ofProducer producer ((db.step event).lostDuring events)) := by
          rw [List.append_assoc]
          exact List.perm_append_comm.append_left _

/-- Of every run: the rows that each producer has offered are those it has put, the one it is
waiting to put and those that the events of the run have lost; `dropped_count` is the number
of all that are lost. -/
theorem rows_accounted (capacity : ℤ) (events : List (QueueEvent Producer)) :
    (run (opened capacity) events).dropped = ((opened capacity).lostDuring events).length ∧
      (∀ producer, (opened capacity).acceptedBy producer events ~
        (run (opened capacity) events).putBy producer ++
          ((run (opened capacity) events).waiting producer).toList ++
          ofProducer producer ((opened capacity).lostDuring events)) ∧
      ∀ before event after, events = before ++ event :: after →
        ∀ entry ∈ (run (opened capacity) before).loses event,
          entry.2.table ∈ undroppableTables →
            (run (opened capacity) before).Reason event entry := by
  obtain ⟨hDropped, hOffered⟩ := (opened capacity).accounts_run events
  refine ⟨?_, hOffered, fun before event after _ entry hEntry hUndroppable => ?_⟩
  · rw [hDropped]
    exact Nat.zero_add _
  · exact (accounts_step _ event).reasons entry hEntry hUndroppable

end TelemetryDB

end KalshiBot.Telemetry

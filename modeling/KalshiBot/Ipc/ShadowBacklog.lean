import KalshiBot.Ipc.WakeDelivery
import KalshiBot.Library.YieldingQueue

/-! # The backlog of wakes

`send_wake` and the `get` of the write loop in any order. What takes a message out of the queue,
and what becomes of it then, does not matter here.
-/

namespace KalshiBot.Ipc

open PythonText Library YieldingQueue

set_option autoImplicit false

inductive BacklogEvent where
  | sendWake (m : RawWake)
  | pop

structure WakeBacklog where
  channel : WakeChannel
  popped : List (ℕ × RawWake) := []

namespace WakeChannel

/-- The queue and the counters of the client are the same. -/
structure SameBacklog (s t : WakeChannel) : Prop where
  queue : s.queue = t.queue
  accepted : s.accepted = t.accepted
  dropped : s.dropped = t.dropped
  droppedShadow : s.droppedShadow = t.droppedShadow

variable {s t u : WakeChannel}

theorem SameBacklog.refl (s : WakeChannel) : SameBacklog s s := ⟨rfl, rfl, rfl, rfl⟩

theorem SameBacklog.trans (h : SameBacklog s t) (h' : SameBacklog t u) : SameBacklog s u :=
  ⟨h.queue.trans h'.queue, h.accepted.trans h'.accepted, h.dropped.trans h'.dropped,
    h.droppedShadow.trans h'.droppedShadow⟩

theorem SameBacklog.sendWake (h : SameBacklog s t) (m : RawWake) :
    SameBacklog (s.sendWake m) (t.sendWake m) := by
  simp only [WakeChannel.sendWake, h.queue, h.accepted]
  split
  · exact ⟨rfl, rfl, h.dropped, congrArg Nat.succ h.droppedShadow⟩
  · cases t.queue.putNowait (t.accepted.length, m) with
    | none => exact ⟨rfl, rfl, congrArg Nat.succ h.dropped, h.droppedShadow⟩
    | some queue => exact ⟨rfl, rfl, h.dropped, h.droppedShadow⟩

theorem backlog_of_write (c : Codec) (s : WakeChannel) (i : ℕ) (connection : Connection) :
    SameBacklog (s.write c i connection) s ∨
    ∃ entry queue, s.queue.getNowait = some (entry, queue) ∧
      SameBacklog (s.write c i connection) { s with queue } := by
  cases hGet : s.queue.getNowait with
  | none =>
    left
    simp only [write, hGet]
    exact .refl s
  | some taken =>
    obtain ⟨⟨number, m⟩, queue⟩ := taken
    right
    refine ⟨(number, m), queue, rfl, ?_⟩
    simp only [write, hGet]
    split
    · exact ⟨rfl, rfl, rfl, rfl⟩
    · exact ⟨rfl, rfl, rfl, rfl⟩

theorem sameBacklog_fire (c : Codec) (s : WakeChannel) (i : ℕ) (connection : Connection)
    (r : FrameReadings) : SameBacklog (s.fire c i connection r) s := by
  cases hHeld : connection.held with
  | none =>
    simp only [fire, hHeld]
    exact .refl s
  | some held =>
    simp only [fire, hHeld]
    exact ⟨rfl, rfl, rfl, rfl⟩

/-- What a step of the channel that is no `send_wake` can do to the queue. -/
theorem backlog_of_stepOn (c : Codec) (s : WakeChannel) (i : ℕ) (connection : Connection)
    (event : ChannelEvent) :
    SameBacklog (s.stepOn c i connection event) s ∨
    ∃ entry queue, s.queue.getNowait = some (entry, queue) ∧
      SameBacklog (s.stepOn c i connection event) { s with queue } := by
  cases event with
  | write _ =>
    simp only [stepOn]
    split
    · exact backlog_of_write c s i connection
    · exact .inl (.refl s)
  | stopWriting _ => exact .inl ⟨rfl, rfl, rfl, rfl⟩
  | arrive _ n =>
    left
    simp only [stepOn]
    split
    · exact ⟨rfl, rfl, rfl, rfl⟩
    · exact .refl s
  | fail _ => exact .inl ⟨rfl, rfl, rfl, rfl⟩
  | read _ =>
    left
    simp only [stepOn]
    split
    · exact ⟨rfl, rfl, rfl, rfl⟩
    · exact .refl s
  | fire _ r =>
    left
    simp only [stepOn]
    split
    · exact sameBacklog_fire c s i connection r
    · exact .refl s
  | stopHandling _ => exact .inl ⟨rfl, rfl, rfl, rfl⟩
  | sendWake _ => exact .inl (.refl s)
  | connect => exact .inl (.refl s)

end WakeChannel

def isShadow (entry : ℕ × RawWake) : Bool := entry.2.dryRun.truthy

namespace WakeBacklog

def opened (maxsize : ℤ) : WakeBacklog where
  channel := .opened maxsize

def items (b : WakeBacklog) : List (ℕ × RawWake) := b.channel.queue.items

def step (b : WakeBacklog) : BacklogEvent → WakeBacklog
  | .sendWake m => { b with channel := b.channel.sendWake m }
  | .pop =>
    match b.channel.queue.getNowait with
    | none => b
    | some (entry, queue) =>
      { channel := { b.channel with queue }, popped := b.popped ++ [entry] }

def run (b : WakeBacklog) (events : List BacklogEvent) : WakeBacklog := events.foldl step b

/-- The accepted messages with their numbers. -/
def numbered (accepted : List RawWake) : List (ℕ × RawWake) :=
  accepted.mapIdx fun number m => (number, m)

structure Orderly (maxsize : ℤ) (b : WakeBacklog) : Prop where
  bound : b.channel.queue.capacity = maxsize
  lowFirst : LowFirst isShadow (shadowQueueLimit maxsize).toNat b.items
  inOrder : b.popped ++ b.items = numbered b.channel.accepted

variable {maxsize : ℤ} {b : WakeBacklog}

theorem shadowQueueLimit_pos (maxsize : ℤ) : 0 < shadowQueueLimit maxsize :=
  lt_of_lt_of_le Int.one_pos (le_max_left _ _)

theorem orderly_opened (maxsize : ℤ) : Orderly maxsize (opened maxsize) where
  bound := rfl
  lowFirst := lowFirst_nil
  inOrder := rfl

theorem Orderly.sendWake (h : Orderly maxsize b) (m : RawWake) :
    Orderly maxsize (b.step (.sendWake m)) := by
  have hSends := b.channel.sends_sendWake m
  rw [step]
  generalize b.channel.sendWake m = sent at hSends ⊢
  cases hSends with
  | shadowDropped _ _ => exact ⟨h.bound, h.lowFirst, h.inOrder⟩
  | dropped _ => exact ⟨h.bound, h.lowFirst, h.inOrder⟩
  | accepted hAdmitted hCapacity hItems =>
    refine ⟨hCapacity.trans h.bound, ?_, ?_⟩
    · rw [items, hItems]
      refine h.lowFirst.concat fun hShadow => ?_
      have hShort := hAdmitted hShadow
      rw [h.bound] at hShort
      rw [items]
      omega
    · rw [items, hItems, ← List.append_assoc]
      have hInOrder : b.popped ++ b.channel.queue.items = numbered b.channel.accepted := h.inOrder
      rw [hInOrder]
      exact List.mapIdx_concat.symm

theorem Orderly.pop (h : Orderly maxsize b) : Orderly maxsize (b.step .pop) := by
  simp only [step]
  cases hGet : b.channel.queue.getNowait with
  | none => exact h
  | some taken =>
    obtain ⟨entry, queue⟩ := taken
    obtain ⟨hCapacity, hItems⟩ := BoundedQueue.getNowait_eq_some hGet
    have hLow := h.lowFirst
    have hInOrder := h.inOrder
    rw [items, hItems] at hLow hInOrder
    refine ⟨hCapacity.trans h.bound, hLow.tail, ?_⟩
    rw [← hInOrder, List.append_assoc]
    rfl

theorem orderly_run (maxsize : ℤ) (events : List BacklogEvent) :
    Orderly maxsize ((opened maxsize).run events) := by
  induction events using List.reverseRecOn with
  | nil => exact orderly_opened maxsize
  | append_singleton events event ih =>
    rw [run, List.foldl_append]
    cases event with
    | sendWake m => exact ih.sendWake m
    | pop => exact ih.pop

theorem exists_step_of_step {s : WakeChannel} (h : s.SameBacklog b.channel) (c : Codec)
    (event : ChannelEvent) :
    ∃ events, (s.step c event).SameBacklog (b.run events).channel := by
  have hOn : ∀ i event, ∃ events, (s.on c i event).SameBacklog (b.run events).channel := by
    intro i event
    unfold WakeChannel.on
    split
    · exact ⟨[], h⟩
    next connection _ =>
    obtain hSame | ⟨entry, queue, hGet, hSame⟩ := s.backlog_of_stepOn c i connection event
    · exact ⟨[], hSame.trans h⟩
    · refine ⟨[.pop], hSame.trans ?_⟩
      rw [h.queue] at hGet
      simp only [run, List.foldl_cons, List.foldl_nil, step, hGet]
      exact ⟨rfl, h.accepted, h.dropped, h.droppedShadow⟩
  cases event with
  | sendWake m => exact ⟨[.sendWake m], h.sendWake m⟩
  | connect =>
    refine ⟨[], ?_⟩
    simp only [WakeChannel.step, WakeChannel.connect]
    split
    · exact ⟨h.queue, h.accepted, h.dropped, h.droppedShadow⟩
    · exact h
  | write i => exact hOn i _
  | stopWriting i => exact hOn i _
  | arrive i n => exact hOn i _
  | fail i => exact hOn i _
  | read i => exact hOn i _
  | fire i r => exact hOn i _
  | stopHandling i => exact hOn i _

/-- Every run of the channel is, for the queue, an interleaving of sends and pops. -/
theorem exists_run_of_run (c : Codec) (maxsize : ℤ) (events : List ChannelEvent) :
    ∃ backlogEvents, ((WakeChannel.opened maxsize).run c events).SameBacklog
      ((opened maxsize).run backlogEvents).channel := by
  induction events using List.reverseRecOn with
  | nil => exact ⟨[], .refl _⟩
  | append_singleton events event ih =>
    obtain ⟨before, hBefore⟩ := ih
    obtain ⟨next, hNext⟩ := exists_step_of_step hBefore c event
    refine ⟨before ++ next, ?_⟩
    rw [run, List.foldl_append, WakeChannel.run, List.foldl_append]
    exact hNext

theorem shadowQueueLimit_eq {maxsize : ℤ} (hBound : 1 ≤ maxsize) :
    shadowQueueLimit maxsize = max 1 (maxsize / 4) := by
  rw [shadowQueueLimit, Int.tdiv_eq_ediv_of_nonneg (by omega)]

/-- A real wake is turned away by nothing but a full queue. -/
theorem Orderly.real (h : Orderly maxsize b) {m : RawWake}
    (hReal : m.dryRun.truthy = false) :
    (b.items.length : ℤ) = maxsize ∨
      ((b.channel.sendWake m).accepted = b.channel.accepted ++ [m] ∧
        (b.channel.sendWake m).dropped = b.channel.dropped) := by
  have hSends := b.channel.sends_sendWake m
  generalize b.channel.sendWake m = sent at hSends ⊢
  cases hSends with
  | shadowDropped hShadow _ =>
    rw [hReal] at hShadow
    cases hShadow
  | dropped hFull =>
    left
    have hLe := b.channel.queue.bounded hFull.1
    have hGe := hFull.2
    rw [h.bound] at hLe hGe
    exact le_antisymm hLe hGe
  | accepted _ _ _ => exact .inr ⟨rfl, rfl⟩

theorem backlog_bounded {maxsize : ℤ} (hBound : 1 ≤ maxsize) (events : List BacklogEvent) :
    let b := (opened maxsize).run events
    let limit := max 1 (maxsize / 4)
    ((b.items.filter isShadow).length : ℤ) ≤ limit ∧
    (∀ (i : ℕ) (entry : ℕ × RawWake), b.items[i]? = some entry → isShadow entry = true →
      (i : ℤ) < limit) ∧
    (∀ (i : ℕ) (entry : ℕ × RawWake), b.items[i]? = some entry → isShadow entry = false →
      (((b.items.take i).filter isShadow).length : ℤ) ≤ limit) ∧
    (∀ m : RawWake, m.dryRun.truthy = false → (b.items.length : ℤ) = maxsize ∨
      ((b.channel.sendWake m).accepted = b.channel.accepted ++ [m] ∧
        (b.channel.sendWake m).dropped = b.channel.dropped)) ∧
    b.popped ++ b.items = numbered b.channel.accepted := by
  intro b limit
  have hOrderly : Orderly maxsize b := orderly_run maxsize events
  have hLimit : ((shadowQueueLimit maxsize).toNat : ℤ) = limit :=
    (Int.toNat_of_nonneg (shadowQueueLimit_pos maxsize).le).trans (shadowQueueLimit_eq hBound)
  refine ⟨?_, ?_, ?_, fun m hReal => hOrderly.real hReal, hOrderly.inOrder⟩
  · rw [← hLimit]
    exact_mod_cast hOrderly.lowFirst.length_filter_le
  · intro i entry hAt hShadow
    rw [← hLimit]
    exact_mod_cast hOrderly.lowFirst.index_lt hAt hShadow
  · intro i entry _ _
    rw [← hLimit]
    exact_mod_cast hOrderly.lowFirst.length_ahead_le i

def wakeNamed (correlationId : String) (dryRun : Bool) : RawWake where
  schemaVersion := .int 4
  correlationId := .str correlationId
  marketTicker := .str "KX-A-1"
  asset := .str "btc"
  direction := .str "yes"
  kalshiPrice := .float (1 / 2)
  modelProbability := .float (3 / 5)
  fee := .float 0
  edge := .float (1 / 10)
  decisionTsMs := .int 0
  sentAtMs := .int 0
  sentAtNs := .int 0
  dryRun := .bool dryRun

def reconnecting : List BacklogEvent :=
  [.sendWake (wakeNamed "shadow-0" true), .sendWake (wakeNamed "shadow-1" true),
    .sendWake (wakeNamed "shadow-2" true), .sendWake (wakeNamed "real-fire" false), .pop,
    .sendWake (wakeNamed "shadow-3" true)]

def reconnected : WakeBacklog := (opened 8).run reconnecting

theorem backlog_bounded_reconnecting :
    ((reconnected.items.filter isShadow).length : ℤ) ≤ 2 ∧
    (∀ (i : ℕ) (entry : ℕ × RawWake), reconnected.items[i]? = some entry → isShadow entry = true →
      (i : ℤ) < 2) ∧
    (∀ (i : ℕ) (entry : ℕ × RawWake), reconnected.items[i]? = some entry → isShadow entry = false →
      (((reconnected.items.take i).filter isShadow).length : ℤ) ≤ 2) ∧
    (reconnected.channel.sendWake (wakeNamed "late-fire" false)).accepted =
      reconnected.channel.accepted ++ [wakeNamed "late-fire" false] ∧
    reconnected.popped ++ reconnected.items = numbered reconnected.channel.accepted := by
  obtain ⟨hShadows, hAhead, hReal, hLate, hInOrder⟩ :=
    backlog_bounded (by decide : (1 : ℤ) ≤ 8) reconnecting
  refine ⟨hShadows, hAhead, hReal, ?_, hInOrder⟩
  obtain hFull | ⟨hAccepted, -⟩ := hLate (wakeNamed "late-fire" false) rfl
  · exact absurd hFull (by decide)
  · exact hAccepted

example : reconnected.items.map (fun entry => entry.2.correlationId) =
    [.str "shadow-1", .str "real-fire"] := rfl

end WakeBacklog

end KalshiBot.Ipc

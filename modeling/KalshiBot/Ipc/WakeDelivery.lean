import KalshiBot.Ipc.WakeFraming
import KalshiBot.Library.BoundedQueue
import KalshiBot.Library.Runs

/-! # From `send_wake` to the fire tasks

The client's queue and write loop, its connections one after the other, and the executor's
handlers, which may still read an old connection while a new one is open. Every byte on a wire
carries the number of the accepted message it was written for, and a fire task the numbers of the
bytes it was made from: no code reads them.
-/

namespace KalshiBot.Ipc

open PythonText ByteStream Library

set_option autoImplicit false

structure Connection where
  /-- The socket still carries bytes. -/
  live : Bool := true
  /-- The write loop runs. -/
  writing : Bool := true
  /-- Written and not yet read. -/
  wire : List (ℕ × UInt8) := []
  /-- How many bytes of the wire have arrived. -/
  arrived : ℕ := 0
  /-- The executor's loop over the connection runs. -/
  handling : Bool := true
  /-- A frame that was read, its task not yet created. -/
  held : Option (List ℕ × Bytes) := none

structure SentWake where
  connection : ℕ
  number : ℕ
  message : RawWake

structure FireTask where
  connection : ℕ
  origins : List ℕ
  message : RawWake

structure WakeChannel where
  queue : BoundedQueue (ℕ × RawWake)
  dropped : ℕ
  droppedShadow : ℕ
  connections : List Connection
  accepted : List RawWake
  sent : List SentWake
  tasks : List FireTask

inductive ChannelEvent where
  | sendWake (m : RawWake)
  | connect
  /-- The write loop of a connection takes a message and writes its frame. -/
  | write (i : ℕ)
  /-- The write loop raises or is cancelled. -/
  | stopWriting (i : ℕ)
  | arrive (i n : ℕ)
  /-- The connection fails: what has not arrived never will. -/
  | fail (i : ℕ)
  | read (i : ℕ)
  | fire (i : ℕ) (r : FrameReadings)
  /-- The executor's loop raises or its writer is closed. -/
  | stopHandling (i : ℕ)

def shadowQueueLimit (maxsize : ℤ) : ℤ := max 1 (maxsize.tdiv 4)

namespace WakeChannel

def opened (maxsize : ℤ) : WakeChannel where
  queue := .empty maxsize
  dropped := 0
  droppedShadow := 0
  connections := []
  accepted := []
  sent := []
  tasks := []

def sendWake (s : WakeChannel) (m : RawWake) : WakeChannel :=
  if m.dryRun.truthy ∧ shadowQueueLimit s.queue.capacity ≤ s.queue.items.length then
    { s with droppedShadow := s.droppedShadow + 1 }
  else match s.queue.putNowait (s.accepted.length, m) with
    | none => { s with dropped := s.dropped + 1 }
    | some queue => { s with queue, accepted := s.accepted ++ [m] }

/-- What `send_wake` can do. -/
inductive Sends (s : WakeChannel) (m : RawWake) : WakeChannel → Prop
  | shadowDropped (hShadow : m.dryRun.truthy = true)
      (hLimit : shadowQueueLimit s.queue.capacity ≤ s.queue.items.length) :
      Sends s m { s with droppedShadow := s.droppedShadow + 1 }
  | dropped (hFull : s.queue.Full) : Sends s m { s with dropped := s.dropped + 1 }
  | accepted {queue : BoundedQueue (ℕ × RawWake)}
      (hAdmitted : m.dryRun.truthy = true →
        (s.queue.items.length : ℤ) < shadowQueueLimit s.queue.capacity)
      (hCapacity : queue.capacity = s.queue.capacity)
      (hItems : queue.items = s.queue.items ++ [(s.accepted.length, m)]) :
      Sends s m { s with queue, accepted := s.accepted ++ [m] }

theorem sends_sendWake (s : WakeChannel) (m : RawWake) : Sends s m (s.sendWake m) := by
  unfold sendWake
  split
  next hShadow => exact .shadowDropped hShadow.1 hShadow.2
  next hAdmitted =>
  cases hPut : s.queue.putNowait (s.accepted.length, m) with
  | none => exact .dropped (BoundedQueue.putNowait_eq_none.mp hPut)
  | some queue =>
    obtain ⟨-, hCapacity, hItems⟩ := BoundedQueue.putNowait_eq_some hPut
    exact .accepted (fun hShadow => not_le.mp fun hLimit => hAdmitted ⟨hShadow, hLimit⟩) hCapacity
      hItems

/-- `_run` opens the next connection when the loops of the last one have ended. -/
def connect (s : WakeChannel) : WakeChannel :=
  if s.connections.all (!·.writing) then { s with connections := s.connections ++ [{}] } else s

def update (s : WakeChannel) (i : ℕ) (connection : Connection) : WakeChannel :=
  { s with connections := s.connections.set i connection }

variable (c : Codec)

def bodyOf (m : RawWake) : Bytes := c.dumps (.dict m.fields)

/-- The bytes of a frame with the number of their message. -/
def taggedFrame (number : ℕ) (m : RawWake) : List (ℕ × UInt8) :=
  (encodeFrame c m.fields).map (number, ·)

/-- One turn of `_write_loop`, with the `struct.error` of a length that has no four bytes. -/
def write (s : WakeChannel) (i : ℕ) (connection : Connection) : WakeChannel :=
  match s.queue.getNowait with
  | none => s
  | some ((number, m), queue) =>
    if (bodyOf c m).length < 2 ^ 32 then
      { s with
        queue
        connections :=
          s.connections.set i { connection with wire := connection.wire ++ taggedFrame c number m }
        sent := s.sent ++ [⟨i, number, m⟩] }
    else { s with queue, connections := s.connections.set i { connection with writing := false } }

/-- `read_frame_body` on what has arrived; it waits while more can come. -/
def read (connection : Connection) : Connection :=
  match readFrameBody ⟨[], [(connection.wire.take connection.arrived).map Prod.snd]⟩ with
  | .incomplete => if connection.live then connection else { connection with handling := false }
  | .oversized => { connection with handling := false }
  | .body body _ =>
    { connection with
      wire := connection.wire.drop (4 + body.length)
      arrived := connection.arrived - (4 + body.length)
      held := some ((connection.wire.take (4 + body.length)).map Prod.fst, body) }

/-- The rest of the turn: ack, latency event and task. -/
def fire (s : WakeChannel) (i : ℕ) (connection : Connection) (r : FrameReadings) : WakeChannel :=
  match connection.held with
  | none => s
  | some (origins, body) =>
    { s with
      connections := s.connections.set i
        { connection with handling := (handleFrame c r body).2, held := none }
      tasks := s.tasks ++ (firesOf (handleFrame c r body).1).map fun m => ⟨i, origins, m⟩ }

def stepOn (s : WakeChannel) (i : ℕ) (connection : Connection) : ChannelEvent → WakeChannel
  | .write _ => if connection.writing then s.write c i connection else s
  | .stopWriting _ => s.update i { connection with writing := false }
  | .arrive _ n =>
    if connection.live then
      s.update i { connection with arrived := min (connection.arrived + n) connection.wire.length }
    else s
  | .fail _ => s.update i { connection with live := false }
  | .read _ =>
    if connection.handling ∧ connection.held = none then s.update i (read connection) else s
  | .fire _ r => if connection.handling then s.fire c i connection r else s
  | .stopHandling _ => s.update i { connection with handling := false, held := none }
  | _ => s

def on (s : WakeChannel) (i : ℕ) (event : ChannelEvent) : WakeChannel :=
  match s.connections[i]? with
  | none => s
  | some connection => s.stepOn c i connection event

def step (s : WakeChannel) (event : ChannelEvent) : WakeChannel :=
  match event with
  | .sendWake m => s.sendWake m
  | .connect => s.connect
  | .write i | .stopWriting i | .arrive i _ | .fail i | .read i | .fire i _ | .stopHandling i =>
    s.on c i event

def run (s : WakeChannel) (events : List ChannelEvent) : WakeChannel := events.foldl (step c) s

section Frames

variable {c}

/-- What is read from the front of a frame and more is the body of that frame. -/
theorem eq_body_of_readFrameBody {reader reader' : StreamReader} {body expected later tail : Bytes}
    (hExpected : expected.length < 2 ^ 32) (hStream : reader.rest ++ later = frameOf expected ++ tail)
    (h : readFrameBody reader = .body body reader') : body = expected := by
  obtain ⟨lengthPrefix, hFour, hLength, hRest⟩ := rest_eq_of_readFrameBody h
  rw [hRest, frameOf, List.append_assoc, List.append_assoc, List.append_assoc] at hStream
  obtain ⟨rfl, hBody⟩ := List.append_inj hStream (hFour.trans (length_pack _).symm)
  rw [unpack_pack hExpected] at hLength
  exact (List.append_inj hBody hLength.symm).1

theorem length_taggedFrame (number : ℕ) (m : RawWake) :
    (taggedFrame c number m).length = 4 + (bodyOf c m).length := by
  rw [taggedFrame, List.length_map, encodeFrame, frameOf, List.length_append, length_pack, bodyOf]

theorem map_snd_taggedFrame (number : ℕ) (m : RawWake) :
    (taggedFrame c number m).map Prod.snd = frameOf (bodyOf c m) := by
  rw [taggedFrame, List.map_map]
  exact List.map_id _

end Frames

def tagsOf (x : SentWake) : List ℕ := (taggedFrame c x.number x.message).map Prod.fst

theorem tagsOf_eq_replicate (x : SentWake) :
    tagsOf c x = List.replicate (4 + (bodyOf c x.message).length) x.number := by
  rw [tagsOf, ← length_taggedFrame (c := c) x.number, taggedFrame, List.map_map, List.length_map]
  exact List.map_const

def taskOf (x : SentWake) : Option FireTask :=
  (decodeWakeMessage c (bodyOf c x.message)).toOption.map fun m => ⟨x.connection, tagsOf c x, m⟩

/-- How far a connection has come with what was sent on it. -/
structure Progress (sent : List SentWake) (tasks : List FireTask) (connection : Connection)
    (handled : List SentWake) (holding : Option SentWake) (unread : List SentWake) : Prop where
  sent : sent = handled ++ (holding.toList ++ unread)
  wire : connection.wire = unread.flatMap fun x => taggedFrame c x.number x.message
  held : connection.held = holding.map fun x => (tagsOf c x, bodyOf c x.message)
  tasks : tasks.Sublist (handled.filterMap (taskOf c))

def Followed (sent : List SentWake) (tasks : List FireTask) (connection : Connection) : Prop :=
  ∃ handled holding unread, Progress c sent tasks connection handled holding unread

section Connections

variable {c} {sent : List SentWake} {tasks : List FireTask} {connection connection' : Connection}

theorem Followed.congr (h : Followed c sent tasks connection)
    (hWire : connection'.wire = connection.wire) (hHeld : connection'.held = connection.held) :
    Followed c sent tasks connection' := by
  obtain ⟨handled, holding, unread, hProgress⟩ := h
  exact ⟨handled, holding, unread, hProgress.sent, hWire.trans hProgress.wire,
    hHeld.trans hProgress.held, hProgress.tasks⟩

theorem Followed.write (h : Followed c sent tasks connection) (x : SentWake)
    (hWire : connection'.wire = connection.wire ++ taggedFrame c x.number x.message)
    (hHeld : connection'.held = connection.held) :
    Followed c (sent ++ [x]) tasks connection' := by
  obtain ⟨handled, holding, unread, hProgress⟩ := h
  refine ⟨handled, holding, unread ++ [x], ?_, ?_, hHeld.trans hProgress.held, hProgress.tasks⟩
  · rw [hProgress.sent, List.append_assoc, List.append_assoc]
  · rw [hWire, hProgress.wire, List.flatMap_append, List.flatMap_singleton]

theorem Followed.drop (h : Followed c sent tasks connection)
    (hWire : connection'.wire = connection.wire) (hHeld : connection'.held = none) :
    Followed c sent tasks connection' := by
  obtain ⟨handled, holding, unread, hProgress⟩ := h
  refine ⟨handled ++ holding.toList, none, unread, ?_, hWire.trans hProgress.wire, hHeld, ?_⟩
  · rw [hProgress.sent, Option.toList_none, List.nil_append, List.append_assoc]
  · rw [List.filterMap_append]
    exact hProgress.tasks.trans (List.sublist_append_left _ _)

theorem Followed.read (h : Followed c sent tasks connection) (hHeld : connection.held = none)
    (hBodies : ∀ x ∈ sent, (bodyOf c x.message).length < 2 ^ 32) :
    Followed c sent tasks (read connection) := by
  unfold WakeChannel.read
  split
  · split
    · exact h
    · exact h.congr rfl rfl
  · exact h.congr rfl rfl
  next body reader hRead =>
    obtain ⟨handled, holding, unread, hProgress⟩ := h
    have hHolding : holding = none := Option.map_eq_none_iff.mp (hProgress.held.symm.trans hHeld)
    subst hHolding
    cases unread with
    | nil =>
      obtain ⟨lengthPrefix, hFour, -, hRest⟩ := rest_eq_of_readFrameBody hRead
      have hEmpty : connection.wire = [] := hProgress.wire
      rw [StreamReader.rest, hEmpty, List.take_nil] at hRest
      obtain rfl := (List.append_eq_nil_iff.mp hRest.symm).1
      cases hFour
    | cons x unread =>
      have hWire : connection.wire = taggedFrame c x.number x.message ++
          unread.flatMap fun y => taggedFrame c y.number y.message := hProgress.wire
      have hBytes : connection.wire.map Prod.snd = frameOf (bodyOf c x.message) ++
          (unread.flatMap fun y => taggedFrame c y.number y.message).map Prod.snd := by
        rw [hWire, List.map_append, map_snd_taggedFrame]
      have hStream : StreamReader.rest
            ⟨[], [(connection.wire.take connection.arrived).map Prod.snd]⟩ ++
          (connection.wire.drop connection.arrived).map Prod.snd = connection.wire.map Prod.snd := by
        simp [StreamReader.rest]
      have hMem : x ∈ sent := by
        rw [hProgress.sent]
        simp
      have hBody : body = bodyOf c x.message :=
        eq_body_of_readFrameBody (hBodies x hMem) (hStream.trans hBytes) hRead
      have hLength := length_taggedFrame (c := c) x.number x.message
      rw [← hBody] at hLength
      refine ⟨handled, some x, unread, hProgress.sent, ?_, ?_, hProgress.tasks⟩
      · rw [← hLength, hWire]
        exact List.drop_left
      · rw [← hLength, hWire, List.take_left, hBody]
        rfl

theorem Followed.fire {i : ℕ} {r : FrameReadings} {origins : List ℕ} {body : Bytes}
    (h : Followed c sent tasks connection) (hHeld : connection.held = some (origins, body))
    (hSent : ∀ x ∈ sent, x.connection = i) (hWire : connection'.wire = connection.wire)
    (hHeld' : connection'.held = none) :
    Followed c sent
      (tasks ++ (firesOf (handleFrame c r body).1).map fun m => ⟨i, origins, m⟩) connection' := by
  obtain ⟨handled, holding, unread, hProgress⟩ := h
  obtain ⟨x, rfl, hx⟩ := Option.map_eq_some_iff.mp (hProgress.held.symm.trans hHeld)
  obtain ⟨rfl, rfl⟩ := Prod.mk.inj hx
  have hConnection : x.connection = i := hSent x (by rw [hProgress.sent]; simp)
  refine ⟨handled ++ [x], none, unread, ?_, hWire.trans hProgress.wire, hHeld', ?_⟩
  · rw [hProgress.sent, Option.toList_none, List.nil_append, List.append_assoc]
    rfl
  · rw [List.filterMap_append]
    refine hProgress.tasks.append ?_
    have hFires := firesOf_handleFrame_sublist c r (bodyOf c x.message)
    have hTask : (List.filterMap (taskOf c) [x]) =
        ((decodeWakeMessage c (bodyOf c x.message)).toOption.toList).map
          fun m => ⟨i, tagsOf c x, m⟩ := by
      rw [List.filterMap_cons, taskOf, hConnection]
      cases (decodeWakeMessage c (bodyOf c x.message)).toOption <;> rfl
    rw [hTask]
    exact hFires.map _

end Connections

theorem followed_set {connections : List Connection} {sent : List SentWake} {tasks : List FireTask}
    {i : ℕ} {connection' : Connection}
    (hOthers : ∀ j connection, connections[j]? = some connection → j ≠ i →
      Followed c (sent.filter (·.connection = j)) (tasks.filter (·.connection = j)) connection)
    (hNew : Followed c (sent.filter (·.connection = i)) (tasks.filter (·.connection = i)) connection')
    (j : ℕ) (connection : Connection) (h : (connections.set i connection')[j]? = some connection) :
    Followed c (sent.filter (·.connection = j)) (tasks.filter (·.connection = j)) connection := by
  obtain rfl | hNe := eq_or_ne j i
  · rw [List.getElem?_set_self'] at h
    obtain ⟨-, -, rfl⟩ := Option.map_eq_some_iff.mp h
    exact hNew
  · rw [List.getElem?_set_ne hNe.symm] at h
    exact hOthers j connection h hNe

/-- The numbers grow along what was sent and then what waits, and every connection carries its
share of it. -/
structure Accounted (s : WakeChannel) : Prop where
  ordered : (s.sent.map SentWake.number ++ s.queue.items.map Prod.fst).Pairwise (· < ·)
  taken : ∀ x ∈ s.sent, s.accepted[x.number]? = some x.message
  packed : ∀ x ∈ s.sent, (bodyOf c x.message).length < 2 ^ 32
  opened : ∀ x ∈ s.sent, x.connection < s.connections.length
  queued : ∀ q ∈ s.queue.items, s.accepted[q.1]? = some q.2
  fired : ∀ t ∈ s.tasks, t.connection < s.connections.length
  followed : ∀ i connection, s.connections[i]? = some connection →
    Followed c (s.sent.filter (·.connection = i)) (s.tasks.filter (·.connection = i)) connection

variable {c} {s : WakeChannel}

theorem accounted_opened (maxsize : ℤ) : Accounted c (opened maxsize) where
  ordered := .nil
  taken _ hMem := by cases hMem
  packed _ hMem := by cases hMem
  opened _ hMem := by cases hMem
  queued _ hMem := by cases hMem
  fired _ hMem := by cases hMem
  followed _ _ h := by cases h

theorem Accounted.number_lt (h : Accounted c s) {n : ℕ}
    (hMem : n ∈ s.sent.map SentWake.number ++ s.queue.items.map Prod.fst) :
    n < s.accepted.length := by
  obtain hSent | hQueued := List.mem_append.mp hMem
  · obtain ⟨x, hx, rfl⟩ := List.mem_map.mp hSent
    exact (List.getElem?_eq_some_iff.mp (h.taken x hx)).1
  · obtain ⟨q, hq, rfl⟩ := List.mem_map.mp hQueued
    exact (List.getElem?_eq_some_iff.mp (h.queued q hq)).1

theorem getElem?_append_of_some {α : Type} {l : List α} {n : ℕ} {a : α} (h : l[n]? = some a)
    (later : List α) : (l ++ later)[n]? = some a := by
  rw [List.getElem?_append_left (List.getElem?_eq_some_iff.mp h).1, h]

theorem Accounted.sendWake (h : Accounted c s) (m : RawWake) : Accounted c (s.sendWake m) := by
  have hSends := s.sends_sendWake m
  generalize s.sendWake m = sent at hSends ⊢
  cases hSends with
  | shadowDropped _ _ =>
    exact ⟨h.ordered, h.taken, h.packed, h.opened, h.queued, h.fired, h.followed⟩
  | dropped _ => exact ⟨h.ordered, h.taken, h.packed, h.opened, h.queued, h.fired, h.followed⟩
  | accepted _ _ hItems =>
    refine ⟨?_, ?_, h.packed, h.opened, ?_, h.fired, h.followed⟩
    · rw [hItems, List.map_append, ← List.append_assoc]
      refine List.pairwise_append.mpr ⟨h.ordered, List.pairwise_singleton _ _, ?_⟩
      intro n hMem last hLast
      rw [List.map_singleton, List.mem_singleton] at hLast
      rw [hLast]
      exact h.number_lt hMem
    · intro x hMem
      exact getElem?_append_of_some (h.taken x hMem) _
    · intro q hMem
      rw [hItems] at hMem
      obtain hOld | hNew := List.mem_append.mp hMem
      · exact getElem?_append_of_some (h.queued q hOld) _
      · rw [List.mem_singleton.mp hNew]
        exact List.getElem?_concat_length

theorem filter_connection_eq_nil {α : Type} {l : List α} {connectionOf : α → ℕ} {n i : ℕ}
    (h : ∀ x ∈ l, connectionOf x < n) (hi : n ≤ i) : l.filter (connectionOf · = i) = [] := by
  rw [List.filter_eq_nil_iff]
  intro x hMem hEq
  have hLt := h x hMem
  have hIs := of_decide_eq_true hEq
  omega

theorem Accounted.connect (h : Accounted c s) : Accounted c s.connect := by
  unfold WakeChannel.connect
  split
  · have hLength : s.connections.length ≤ (s.connections ++ [({} : Connection)]).length := by simp
    refine ⟨h.ordered, h.taken, h.packed, ?_, h.queued, ?_, ?_⟩
    · exact fun x hMem => (h.opened x hMem).trans_le hLength
    · exact fun t hMem => (h.fired t hMem).trans_le hLength
    · intro i connection hAt
      obtain hOld | hNew := Nat.lt_or_ge i s.connections.length
      · rw [List.getElem?_append_left hOld] at hAt
        exact h.followed i connection hAt
      · rw [filter_connection_eq_nil h.opened hNew, filter_connection_eq_nil h.fired hNew]
        rw [List.getElem?_append_right hNew, List.getElem?_singleton] at hAt
        obtain rfl := Option.some.inj (Option.ite_none_right_eq_some.mp hAt).2
        exact ⟨[], none, [], rfl, rfl, rfl, .slnil⟩
  · exact h

variable {i : ℕ} {connection : Connection}

theorem Accounted.update (h : Accounted c s) (hAt : s.connections[i]? = some connection)
    {connection' : Connection}
    (hNew : ∀ sent tasks, (∀ x ∈ sent, (bodyOf c x.message).length < 2 ^ 32) →
      Followed c sent tasks connection → Followed c sent tasks connection') :
    Accounted c (s.update i connection') := by
  have hLength : (s.connections.set i connection').length = s.connections.length :=
    List.length_set
  refine ⟨h.ordered, h.taken, h.packed, ?_, h.queued, ?_, ?_⟩
  · exact fun x hMem => (h.opened x hMem).trans_eq hLength.symm
  · exact fun t hMem => (h.fired t hMem).trans_eq hLength.symm
  · refine followed_set c (fun j other hOther _ => h.followed j other hOther) ?_
    exact hNew _ _ (fun x hMem => h.packed x (List.mem_of_mem_filter hMem))
      (h.followed i connection hAt)

theorem filter_concat_of_ne {α : Type} {connectionOf : α → ℕ} {l later : List α} {j : ℕ}
    (hLater : ∀ x ∈ later, connectionOf x = i) (hNe : j ≠ i) :
    (l ++ later).filter (connectionOf · = j) = l.filter (connectionOf · = j) := by
  have hNone : later.filter (connectionOf · = j) = [] := by
    rw [List.filter_eq_nil_iff]
    intro x hMem hEq
    exact hNe ((of_decide_eq_true hEq).symm.trans (hLater x hMem))
  rw [List.filter_append, hNone, List.append_nil]

theorem filter_concat_of_eq {α : Type} {connectionOf : α → ℕ} {l later : List α}
    (hLater : ∀ x ∈ later, connectionOf x = i) :
    (l ++ later).filter (connectionOf · = i) = l.filter (connectionOf · = i) ++ later := by
  have hAll : later.filter (connectionOf · = i) = later :=
    List.filter_eq_self.mpr fun x hMem => decide_eq_true (hLater x hMem)
  rw [List.filter_append, hAll]

theorem Accounted.write (h : Accounted c s) (hAt : s.connections[i]? = some connection) :
    Accounted c (s.write c i connection) := by
  unfold WakeChannel.write
  split
  · exact h
  next number m queue hGet =>
    obtain ⟨-, hItems⟩ := BoundedQueue.getNowait_eq_some hGet
    have hOrdered := h.ordered
    rw [hItems, List.map_cons] at hOrdered
    have hQueued : ∀ q ∈ queue.items, s.accepted[q.1]? = some q.2 := by
      intro q hMem
      exact h.queued q (hItems ▸ List.mem_cons_of_mem _ hMem)
    have hLength : ∀ connection', (s.connections.set i connection').length =
        s.connections.length := fun connection' => List.length_set
    split
    next hPacked =>
      refine ⟨?_, ?_, ?_, ?_, hQueued, ?_, ?_⟩
      · rw [List.map_append, List.append_assoc]
        exact hOrdered
      · rw [List.forall_mem_append, List.forall_mem_singleton]
        exact ⟨h.taken, h.queued (number, m) (hItems ▸ List.mem_cons_self)⟩
      · rw [List.forall_mem_append, List.forall_mem_singleton]
        exact ⟨h.packed, hPacked⟩
      · rw [List.forall_mem_append, List.forall_mem_singleton, hLength]
        exact ⟨h.opened, (List.getElem?_eq_some_iff.mp hAt).1⟩
      · exact fun t hMem => (h.fired t hMem).trans_eq (hLength _).symm
      · have hLater : ∀ x ∈ [SentWake.mk i number m], x.connection = i := by simp
        refine followed_set c (fun j other hOther hNe => ?_) ?_
        · rw [filter_concat_of_ne hLater hNe]
          exact h.followed j other hOther
        · rw [filter_concat_of_eq hLater]
          exact (h.followed i connection hAt).write _ rfl rfl
    next =>
      refine ⟨?_, h.taken, h.packed, ?_, hQueued, ?_, ?_⟩
      · exact hOrdered.sublist ((List.sublist_cons_self _ _).append_left _)
      · exact fun x hMem => (h.opened x hMem).trans_eq (hLength _).symm
      · exact fun t hMem => (h.fired t hMem).trans_eq (hLength _).symm
      · refine followed_set c (fun j other hOther _ => h.followed j other hOther) ?_
        exact (h.followed i connection hAt).congr rfl rfl

theorem Accounted.fire (h : Accounted c s) (hAt : s.connections[i]? = some connection)
    (r : FrameReadings) : Accounted c (s.fire c i connection r) := by
  unfold WakeChannel.fire
  split
  · exact h
  next origins body hHeld =>
    have hLength : ∀ connection', (s.connections.set i connection').length =
        s.connections.length := fun connection' => List.length_set
    have hLater : ∀ t ∈ (firesOf (handleFrame c r body).1).map fun m => FireTask.mk i origins m,
        t.connection = i := by
      intro t hMem
      obtain ⟨m, -, rfl⟩ := List.mem_map.mp hMem
      rfl
    refine ⟨h.ordered, h.taken, h.packed, ?_, h.queued, ?_, ?_⟩
    · exact fun x hMem => (h.opened x hMem).trans_eq (hLength _).symm
    · rw [List.forall_mem_append, hLength]
      refine ⟨h.fired, fun t hMem => ?_⟩
      rw [hLater t hMem]
      exact (List.getElem?_eq_some_iff.mp hAt).1
    · refine followed_set c (fun j other hOther hNe => ?_) ?_
      · rw [filter_concat_of_ne hLater hNe]
        exact h.followed j other hOther
      · rw [filter_concat_of_eq hLater]
        refine (h.followed i connection hAt).fire hHeld ?_ rfl rfl
        exact fun x hMem => of_decide_eq_true (List.mem_filter.mp hMem).2

theorem Accounted.stepOn (h : Accounted c s) (hAt : s.connections[i]? = some connection)
    (event : ChannelEvent) : Accounted c (s.stepOn c i connection event) := by
  cases event with
  | write _ =>
    simp only [WakeChannel.stepOn]
    split
    · exact h.write hAt
    · exact h
  | stopWriting _ => exact h.update hAt fun _ _ _ hFollowed => hFollowed.congr rfl rfl
  | arrive _ n =>
    simp only [WakeChannel.stepOn]
    split
    · exact h.update hAt fun _ _ _ hFollowed => hFollowed.congr rfl rfl
    · exact h
  | fail _ => exact h.update hAt fun _ _ _ hFollowed => hFollowed.congr rfl rfl
  | read _ =>
    simp only [WakeChannel.stepOn]
    split
    next hReads => exact h.update hAt fun _ _ hPacked hFollowed => hFollowed.read hReads.2 hPacked
    next => exact h
  | fire _ r =>
    simp only [WakeChannel.stepOn]
    split
    · exact h.fire hAt r
    · exact h
  | stopHandling _ => exact h.update hAt fun _ _ _ hFollowed => hFollowed.drop rfl rfl
  | sendWake _ => exact h
  | connect => exact h

theorem Accounted.on (h : Accounted c s) (i : ℕ) (event : ChannelEvent) :
    Accounted c (s.on c i event) := by
  unfold WakeChannel.on
  split
  · exact h
  next connection hAt => exact h.stepOn hAt event

theorem Accounted.step (h : Accounted c s) (event : ChannelEvent) :
    Accounted c (s.step c event) := by
  cases event with
  | sendWake m => exact h.sendWake m
  | connect => exact h.connect
  | write i => exact h.on i _
  | stopWriting i => exact h.on i _
  | arrive i n => exact h.on i _
  | fail i => exact h.on i _
  | read i => exact h.on i _
  | fire i r => exact h.on i _
  | stopHandling i => exact h.on i _

theorem accounted_run (c : Codec) (maxsize : ℤ) (events : List ChannelEvent) :
    Accounted c ((opened maxsize).run c events) := by
  induction events using List.reverseRecOn with
  | nil => exact accounted_opened maxsize
  | append_singleton events event ih =>
    rw [run, List.foldl_append]
    exact ih.step event

theorem origins_of_taskOf {x : SentWake} {t : FireTask} (h : taskOf c x = some t) :
    t.connection = x.connection ∧ t.origins = tagsOf c x ∧
      decodeWakeMessage c (bodyOf c x.message) = .ok t.message := by
  obtain ⟨m, hDecoded, rfl⟩ := Option.map_eq_some_iff.mp h
  refine ⟨rfl, rfl, ?_⟩
  cases hBody : decodeWakeMessage c (bodyOf c x.message) with
  | error reason => simp [hBody, Except.toOption] at hDecoded
  | ok m' => simpa [hBody, Except.toOption] using hDecoded

theorem number_of_mem_tagsOf {x : SentWake} {n : ℕ} (h : n ∈ tagsOf c x) : n = x.number := by
  rw [tagsOf_eq_replicate] at h
  exact List.eq_of_mem_replicate h

theorem Accounted.sent_sorted (h : Accounted c s) :
    s.sent.Pairwise fun x y => x.number < y.number :=
  List.pairwise_map.mp (List.pairwise_append.mp h.ordered).1

theorem Accounted.numbers_nodup (h : Accounted c s) : (s.sent.map SentWake.number).Nodup :=
  (List.pairwise_append.mp h.ordered).1.imp ne_of_lt

theorem Accounted.exists_sent (h : Accounted c s) {t : FireTask} (hMem : t ∈ s.tasks) :
    ∃ x ∈ s.sent, taskOf c x = some t := by
  have hAt := List.getElem?_eq_getElem (h.fired t hMem)
  obtain ⟨handled, holding, unread, hProgress⟩ := h.followed t.connection _ hAt
  have hFired : t ∈ s.tasks.filter (·.connection = t.connection) :=
    List.mem_filter.mpr ⟨hMem, decide_eq_true rfl⟩
  obtain ⟨x, hx, hTask⟩ := List.mem_filterMap.mp (hProgress.tasks.subset hFired)
  have hSent : x ∈ s.sent.filter (·.connection = t.connection) := by
    rw [hProgress.sent]
    exact List.mem_append_left _ hx
  exact ⟨x, List.mem_of_mem_filter hSent, hTask⟩

theorem Accounted.inOrder (h : Accounted c s) (i : ℕ) :
    (s.tasks.filter (·.connection = i)).Pairwise fun earlier later =>
      ∀ a ∈ earlier.origins, ∀ b ∈ later.origins, a < b := by
  obtain hOpened | hNone := Nat.lt_or_ge i s.connections.length
  · have hAt := List.getElem?_eq_getElem hOpened
    obtain ⟨handled, holding, unread, hProgress⟩ := h.followed i _ hAt
    have hHandled : handled.Sublist s.sent := by
      refine List.Sublist.trans ?_ (List.filter_sublist (p := (·.connection = i)))
      rw [hProgress.sent]
      exact List.sublist_append_left _ _
    refine List.Pairwise.sublist hProgress.tasks ?_
    refine List.pairwise_filterMap.mpr ((h.sent_sorted.sublist hHandled).imp ?_)
    intro x y hLt earlier hEarlier later hLater a ha b hb
    rw [(origins_of_taskOf hEarlier).2.1] at ha
    rw [(origins_of_taskOf hLater).2.1] at hb
    rw [number_of_mem_tagsOf ha, number_of_mem_tagsOf hb]
    exact hLt
  · rw [filter_connection_eq_nil h.fired hNone]
    exact .nil

theorem length_filter_le_one {α : Type} {l : List α} {p : α → Prop} [DecidablePred p]
    {R : α → α → Prop} (h : l.Pairwise R) (hApart : ∀ a b, R a b → p a → ¬p b) :
    (l.filter p).length ≤ 1 := by
  have hFiltered := h.filter p
  have hAll : ∀ a ∈ l.filter p, p a := fun a hMem => of_decide_eq_true (List.mem_filter.mp hMem).2
  cases hCases : l.filter p with
  | nil => exact Nat.zero_le 1
  | cons a rest =>
    cases rest with
    | nil => exact Nat.le_refl 1
    | cons b rest =>
      rw [hCases] at hFiltered hAll
      have hR := List.rel_of_pairwise_cons hFiltered List.mem_cons_self
      exact absurd (hAll b (by simp)) (hApart a b hR (hAll a (by simp)))

theorem Accounted.once (h : Accounted c s) (n : ℕ) :
    (s.tasks.filter fun t => n ∈ t.origins).length ≤ 1 := by
  cases hTasks : s.tasks.filter fun t => n ∈ t.origins with
  | nil => exact Nat.zero_le 1
  | cons first rest =>
    rw [← hTasks]
    have hFirst : first ∈ s.tasks.filter fun t => n ∈ t.origins := hTasks ▸ List.mem_cons_self
    have hConnection : ∀ t ∈ s.tasks, n ∈ t.origins → t.connection = first.connection := by
      intro t hMem hOrigin
      obtain ⟨x, hx, hTask⟩ := h.exists_sent hMem
      obtain ⟨y, hy, hTask'⟩ := h.exists_sent (List.mem_of_mem_filter hFirst)
      obtain ⟨hAt, hTags, -⟩ := origins_of_taskOf hTask
      obtain ⟨hAt', hTags', -⟩ := origins_of_taskOf hTask'
      have hOrigin' : n ∈ first.origins := of_decide_eq_true (List.mem_filter.mp hFirst).2
      have hNumber : x.number = y.number :=
        (number_of_mem_tagsOf (hTags ▸ hOrigin)).symm.trans
          (number_of_mem_tagsOf (hTags' ▸ hOrigin'))
      have hSame : x = y := List.inj_on_of_nodup_map h.numbers_nodup hx hy hNumber
      rw [hAt, hAt', hSame]
    have hFilter : (s.tasks.filter fun t => n ∈ t.origins) =
        (s.tasks.filter (·.connection = first.connection)).filter fun t => n ∈ t.origins := by
      rw [List.filter_filter]
      refine List.filter_congr fun t hMem => ?_
      rw [Bool.eq_iff_iff, Bool.and_eq_true, decide_eq_true_eq, decide_eq_true_eq]
      exact ⟨fun hOrigin => ⟨hOrigin, hConnection t hMem hOrigin⟩, And.left⟩
    rw [hFilter]
    refine length_filter_le_one (h.inOrder first.connection) fun a b hLt ha hb => ?_
    exact absurd (hLt n ha n hb) (lt_irrefl n)

end WakeChannel

open WakeChannel in
structure FiresAtMostOnce (c : Codec) (s : WakeChannel) : Prop where
  once : ∀ n, (s.tasks.filter fun t => n ∈ t.origins).length ≤ 1
  inOrder : ∀ i, (s.tasks.filter (·.connection = i)).Pairwise fun earlier later =>
    ∀ a ∈ earlier.origins, ∀ b ∈ later.origins, a < b
  notResent : (s.sent.map SentWake.number).Nodup
  ofAccepted : ∀ t ∈ s.tasks, ∃ n m, s.accepted[n]? = some m ∧
    t.origins = List.replicate (encodeFrame c m.fields).length n ∧
    decodeWakeMessage c (bodyOf c m) = .ok t.message

theorem run_firesAtMostOnce (c : Codec) (maxsize : ℤ) (events : List ChannelEvent) :
    FiresAtMostOnce c ((WakeChannel.opened maxsize).run c events) := by
  have hAccounted := WakeChannel.accounted_run c maxsize events
  refine ⟨hAccounted.once, hAccounted.inOrder, hAccounted.numbers_nodup, ?_⟩
  intro t hMem
  obtain ⟨x, hx, hTask⟩ := hAccounted.exists_sent hMem
  obtain ⟨-, hOrigins, hDecoded⟩ := WakeChannel.origins_of_taskOf hTask
  refine ⟨x.number, x.message, hAccounted.taken x hx, ?_, hDecoded⟩
  rw [hOrigins, WakeChannel.tagsOf_eq_replicate, ← WakeChannel.length_taggedFrame x.number,
    WakeChannel.taggedFrame, List.length_map]

end KalshiBot.Ipc

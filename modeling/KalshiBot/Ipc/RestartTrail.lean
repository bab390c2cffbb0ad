import KalshiBot.Ipc.FireRows
import KalshiBot.Library.Runs

/-! # A restart from the rows that the fires have left

The executor's fires, the jobs that they hand to the telemetry and the table which these make,
in one run. A process that starts from the table answers every later candidate as the one that
it replaces would have.
-/

namespace KalshiBot.Risk.Knows

open RollingWindow

set_option autoImplicit false

variable {groupFor : String → String} {orders : List Order} {clock nowMs : ℤ} {g : RiskGate}

theorem later (h : Knows groupFor orders clock g) (hNow : clock ≤ nowMs) :
    Knows groupFor orders nowMs g :=
  { h with
    epoch := h.epoch_later hNow
    recent := fun floor hFloor => h.recent floor (by omega)
    fills := fun p hp => h.fills p fun f hf => hp f (by omega) }

theorem prune (h : Knows groupFor orders clock g) (hNow : clock ≤ nowMs) :
    Knows groupFor orders nowMs (g.prune nowMs) := by
  refine ⟨h.epoch_later hNow, h.ordered, h.inFlight, h.reconciledAtMs, h.baseline, ?_, ?_, h.latest,
    ?_, h.learned⟩
  · exact (pruneBefore_suffix _ _ _).trans h.attempts
  · intro floor hFloor
    exact (since_pruneBefore _ hFloor _).trans (h.recent floor (by omega))
  · intro p hp
    have hSeen : (g.prune nowMs).fills.filter p = g.fills.filter p := filter_pruneBefore _ _ p _ hp
    rw [hSeen]
    exact h.fills p fun f hf => hp f (by omega)

/-- A gate with slots taken, seen without them. -/
theorem check_idle {gate : RiskGate} (h : Knows groupFor orders clock { gate with inFlight := 0 })
    (c : Candidate) (hNow : clock ≤ nowMs) :
    Knows groupFor orders nowMs { (gate.check c nowMs).2 with inFlight := 0 } := by
  obtain hSame | hPruned := gate.check_gate c nowMs
  · rw [hSame]
    exact h.later hNow
  · rw [hPruned]
    exact h.prune hNow

theorem fill_idle {gate : RiskGate} {before after : List Order} {a : WireAttempt} (fillCount : ℚ)
    (h : Knows groupFor (before ++ ⟨a, none⟩ :: after) clock { gate with inFlight := 0 })
    (hNow : clock ≤ nowMs) (hGroup : a.correlationGroup = groupFor a.ticker) :
    Knows groupFor (before ++ ⟨a, some (fillCount, nowMs)⟩ :: after) nowMs
      { gate.recordFill a.ticker fillCount nowMs with inFlight := 0 } := by
  have hFill := h.fill fillCount hNow hGroup
  unfold RiskGate.recordFill at hFill ⊢
  split
  next hPos =>
    rw [dif_pos hPos] at hFill
    exact hFill
  next hNot =>
    rw [dif_neg hNot] at hFill
    exact hFill

end KalshiBot.Risk.Knows

namespace KalshiBot.Ipc

open PythonText Sqlite Execution Risk Telemetry Runs

set_option autoImplicit false

/-- The executor's fires with the table that their jobs make, where none is lost, and what the
gate has been told of each order, by its client order id. -/
structure AuditedFleet where
  fleet : Fleet
  store : Store
  told : List (String × Order) := []
  clockMs : ℤ := 0

def PendingFire.clientOrderId (fire : PendingFire) : String := fire.dispatch.row.clientOrderId

def Fleet.gated (fleet : Fleet) : List PendingFire := fleet.pending.filter fun fire => fire.gatingRisk

def Fleet.jobsOf (fleet : Fleet) : FireEvent → List OrderJob
  | .arrive m r => (fleet.server.startFire m r).2.1
  | .resume index outcome r =>
    match fleet.pending[index]? with
    | none => []
    | some fire => (finishFire fleet.server fire outcome r).1

/-- The entry of one order as the gate knows it once the response is there. -/
def answered (id : String) (fill : Option (ℚ × ℤ)) (entry : String × Order) : String × Order :=
  if entry.1 = id then (entry.1, { entry.2 with fill }) else entry

def toldOf (fleet : Fleet) (told : List (String × Order)) : FireEvent → List (String × Order)
  | .arrive m r =>
    told ++ ((fleet.server.startFire m r).1.tasks.filter fun fire => fire.gatingRisk).map fun fire =>
      (fire.clientOrderId, ⟨attemptOf m fire.count fire.wirePrice r, none⟩)
  | .resume index outcome r =>
    match fleet.pending[index]? with
    | none => told
    | some fire =>
      if fire.gatingRisk then
        match (closeDispatch fire.dispatch outcome r.acknowledgedMs).1 with
        | some response =>
          told.map (answered fire.clientOrderId (some (responseFillCount response, r.fillMs)))
        | none => told
      else told

def FireEvent.lastMs : FireEvent → ℤ
  | .arrive _ r => r.recordMs
  | .resume _ _ r => r.fillMs

namespace AuditedFleet

def write (castText : String → ℚ) (store : Store) (jobs : List OrderJob) : Store :=
  jobs.foldl (fun store job => Connection.keep (insertJob castText) store (recorded job).1) store

def step (castText : String → ℚ) (s : AuditedFleet) (event : FireEvent) : AuditedFleet where
  fleet := s.fleet.step event
  store := write castText s.store (s.fleet.jobsOf event)
  told := toldOf s.fleet s.told event
  clockMs := event.lastMs

def sentRows (s : AuditedFleet) : List (Sqlite.Row Column) :=
  (s.store.rows .ordersFired).filter fun row => (storedOrder row).status ≠ "rejected"

/-- What a real fire needs besides its gate: a side, a permitted order, a price on the grid, a
fresh id, and two clock readings in one millisecond. -/
structure Sendable (groupFor : String → String) (s : AuditedFleet) (m : WakeMessage)
    (r : FireReadings) : Prop where
  direction : m.direction ∈ ["yes", "no"]
  permitted : r.dispatch.permitted = true
  group : m.correlationGroup = groupFor m.marketTicker
  grid : ∀ wirePrice, snapToGrid m.wirePriceYesDollars m.priceRanges = some wirePrice →
    OnGrid wirePrice
  fresh : ∀ row ∈ s.store.rows .ordersFired, row .clientOrderId ≠ .text r.dispatch.clientOrderId
  clock : r.dispatch.requestedAtMs = r.recordMs
  requestedAtMs : InRange r.dispatch.requestedAtMs
  submittedAtMs : InRange r.dispatch.submittedAtMs

/-- The clock does not run back, and the exchange answers as documented. -/
def InScope (groupFor : String → String) (s : AuditedFleet) : FireEvent → Prop
  | .arrive m r => s.clockMs ≤ r.checkMs ∧ r.checkMs ≤ r.recordMs ∧
      (m.dryRun = false → Sendable groupFor s m r)
  | .resume _ outcome r => s.clockMs ≤ r.fillMs ∧ InRange r.acknowledgedMs ∧ AsDocumented outcome

/-- A row and what the gate has been told of the same order. -/
structure Tells (row : Sqlite.Row Column) (entry : String × Order) : Prop where
  id : row .clientOrderId = .text entry.1
  records : (storedOrder row).Records entry.2

/-- A real fire whose response is awaited. -/
structure Waits (castText : String → ℚ) (groupFor : String → String) (s : AuditedFleet)
    (fire : PendingFire) : Prop where
  valid : ValidRow castText fire.dispatch.row
  real : fire.dispatch.dryRun = false
  status : fire.dispatch.row.status = .pending
  submittedAtMs : InRange fire.dispatch.submittedAtMs
  row : ∃ p ∈ s.store.rows .ordersFired,
    bindRow (tableColumns .ordersFired) (rowOfOrder fire.dispatch.row) = some p
  told : ∃ a, (fire.clientOrderId, ⟨a, none⟩) ∈ s.told ∧ a.ticker = fire.message.marketTicker ∧
    a.correlationGroup = groupFor a.ticker

/-- What the gate and the table agree on. -/
structure Trail (castText : String → ℚ) (groupFor : String → String) (limits : RiskLimits)
    (s : AuditedFleet) : Prop where
  gate : ∃ gate, s.fleet.server.riskGate = some gate ∧ gate.limits = limits ∧
    gate.inFlight = s.fleet.gated.length ∧
    Knows groupFor (s.told.map Prod.snd) s.clockMs { gate with inFlight := 0 }
  epoch : 0 ≤ s.clockMs
  table : OrderTable castText s.store
  rows : List.Forall₂ Tells s.sentRows s.told
  waits : ∀ fire ∈ s.fleet.gated, Waits castText groupFor s fire
  apart : (s.fleet.gated.map PendingFire.clientOrderId).Nodup
  shadow : ∀ fire ∈ s.fleet.pending, fire.gatingRisk = false → fire.dispatch.dryRun = true

variable {castText : String → ℚ} {groupFor : String → String} {limits : RiskLimits}
  {s : AuditedFleet}

theorem ids_of_tells {rows : List (Sqlite.Row Column)} {told : List (String × Order)}
    (h : List.Forall₂ Tells rows told) :
    rows.map (fun row => row .clientOrderId) = told.map fun entry => .text entry.1 := by
  induction h with
  | nil => rfl
  | cons hHead _ ih => rw [List.map_cons, List.map_cons, hHead.id, ih]

theorem tells_map {rows : List (Sqlite.Row Column)} {told : List (String × Order)}
    {f : Sqlite.Row Column → Sqlite.Row Column} {g : String × Order → String × Order}
    (h : List.Forall₂ Tells rows told)
    (hEach : ∀ row ∈ rows, ∀ entry ∈ told, Tells row entry → Tells (f row) (g entry)) :
    List.Forall₂ Tells (rows.map f) (told.map g) := by
  induction h with
  | nil => exact .nil
  | cons hHead _ ih =>
    refine .cons (hEach _ List.mem_cons_self _ List.mem_cons_self hHead) (ih ?_)
    exact fun row hRow entry hEntry =>
      hEach row (List.mem_cons_of_mem _ hRow) entry (List.mem_cons_of_mem _ hEntry)

theorem Trail.nodup_told (h : s.Trail castText groupFor limits) : (s.told.map Prod.fst).Nodup := by
  have hSent : (s.sentRows.map fun row => row .clientOrderId).Nodup :=
    h.table.distinct.sublist (List.filter_sublist.map _)
  rw [ids_of_tells h.rows] at hSent
  have hTexts : (s.told.map fun entry => Value.text entry.1) =
      (s.told.map Prod.fst).map Value.text := by rw [List.map_map]; rfl
  rw [hTexts] at hSent
  exact hSent.of_map _

section Arrivals

variable {m : WakeMessage} {r : FireReadings}

/-- A shadow fire hands over nothing and leaves the gate alone. -/
theorem startFire_of_shadow (server : ExecutorServer) (hShadow : m.dryRun = true) :
    (server.startFire m r).2.2.riskGate = server.riskGate ∧ (server.startFire m r).2.1 = [] ∧
      ∀ fire ∈ (server.startFire m r).1.tasks,
        fire.gatingRisk = false ∧ fire.dispatch.dryRun = true := by
  have hSend : ∀ count wirePrice, (server.sendFire m count wirePrice r).2.2.riskGate =
      server.riskGate ∧ (server.sendFire m count wirePrice r).2.1 = [] ∧
        ∀ fire ∈ (server.sendFire m count wirePrice r).1.tasks,
          fire.gatingRisk = false ∧ fire.dispatch.dryRun = true := by
    intro count wirePrice
    simp only [ExecutorServer.sendFire, hShadow, Bool.not_true, Bool.and_false, Bool.false_eq_true,
      if_false]
    split
    · exact ⟨rfl, rfl, List.forall_mem_nil _⟩
    · split
      · exact ⟨rfl, rfl, List.forall_mem_nil _⟩
      next dispatch jobs hOpen =>
        obtain ⟨hDryRun, hJobs⟩ := openDispatch_eq_some hOpen
        rw [if_pos rfl] at hJobs
        refine ⟨rfl, hJobs, fun fire hMem => ?_⟩
        rw [List.mem_singleton.mp hMem]
        exact ⟨rfl, hDryRun⟩
  simp only [ExecutorServer.startFire, hShadow, if_true]
  split
  · exact ⟨rfl, rfl, List.forall_mem_nil _⟩
  · exact hSend _ _

/-- What waits goes on waiting while the table only grows. -/
theorem Waits.grown {fire : PendingFire} {s' : AuditedFleet} (h : Waits castText groupFor s fire)
    (hRows : ∀ row ∈ s.store.rows .ordersFired, row ∈ s'.store.rows .ordersFired)
    (hTold : ∀ entry ∈ s.told, entry ∈ s'.told) : Waits castText groupFor s' fire := by
  obtain ⟨p, hMem, hBound⟩ := h.row
  obtain ⟨a, hEntry, hTicker⟩ := h.told
  exact ⟨h.valid, h.real, h.status, h.submittedAtMs, ⟨p, hRows p hMem, hBound⟩,
    ⟨a, hTold _ hEntry, hTicker⟩⟩

/-- Rejections add rows that the warm start does not select. -/
theorem write_rejections {jobs : List OrderJob} {store : Store} (hTable : OrderTable castText store)
    (hJobs : ∀ job ∈ jobs, ∃ row, job = .fired row true ∧ row.status = .rejected) :
    OrderTable castText (write castText store jobs) ∧
      ((write castText store jobs).rows .ordersFired).filter
          (fun row => (storedOrder row).status ≠ "rejected") =
        (store.rows .ordersFired).filter (fun row => (storedOrder row).status ≠ "rejected") ∧
      ∀ row ∈ store.rows .ordersFired, row ∈ (write castText store jobs).rows .ordersFired := by
  induction jobs generalizing store with
  | nil => exact ⟨hTable, rfl, fun _ hMem => hMem⟩
  | cons job jobs ih =>
    obtain ⟨row, rfl, hStatus⟩ := hJobs job List.mem_cons_self
    have hRest := fun job hMem => hJobs job (List.mem_cons_of_mem _ hMem)
    have hStep : write castText store (.fired row true :: jobs) = write castText
        (Connection.keep (insertJob castText) store ⟨.insertInto .ordersFired, rowOfOrder row⟩) jobs :=
      rfl
    rw [hStep]
    obtain hSame | ⟨bound, hBound, hAdmits, hFree, hRows⟩ :=
      @rows_keep_fired_cases castText (rowOfOrder row) store
    · have hTable' : OrderTable castText
          (Connection.keep (insertJob castText) store ⟨.insertInto .ordersFired, rowOfOrder row⟩) :=
        ⟨hSame ▸ hTable.admits, hSame ▸ hTable.texts, hSame ▸ hTable.distinct⟩
      obtain ⟨hAfter, hSent, hKept⟩ := ih hTable' hRest
      rw [hSame] at hSent hKept
      exact ⟨hAfter, hSent, hKept⟩
    · have hText : ∃ id, bound .clientOrderId = .text id := ⟨_, clientOrderId_of_bind hBound⟩
      have hFresh : ∀ other ∈ store.rows .ordersFired,
          other .clientOrderId ≠ bound .clientOrderId := fun other hMem hEq =>
        hFree (List.any_eq_true.mpr ⟨other, hMem, (conflict_orders hText other).mpr hEq⟩)
      obtain ⟨hAfter, hSent, hKept⟩ := ih (hTable.appended hRows hAdmits hText hFresh) hRest
      have hRejected : (storedOrder bound).status = "rejected" := by
        rw [storedOrder_of_bind hBound]
        exact congrArg OrderStatus.text hStatus
      rw [hRows] at hSent hKept
      refine ⟨hAfter, hSent.trans ?_, fun other hMem => hKept other (List.mem_append_left _ hMem)⟩
      rw [List.filter_append, List.filter_singleton]
      simp [hRejected]

/-- What changes neither the fires in the air nor what the gate has been told. -/
theorem Trail.quiet {s' : AuditedFleet} {jobs : List OrderJob} {gate after : RiskGate} {nowMs : ℤ}
    (h : s.Trail castText groupFor limits) (hGated : s'.fleet.gated.Perm s.fleet.gated)
    (hTold : s'.told = s.told) (hNow : s.clockMs ≤ nowMs) (hClock : nowMs ≤ s'.clockMs)
    (hGate : s.fleet.server.riskGate = some gate) (hAfter : s'.fleet.server.riskGate = some after)
    (hChecked : after = gate ∨ ∃ c, after = (gate.check c nowMs).2)
    (hStore : s'.store = write castText s.store jobs)
    (hJobs : ∀ job ∈ jobs, ∃ row, job = .fired row true ∧ row.status = .rejected)
    (hShadow : ∀ fire ∈ s'.fleet.pending, fire.gatingRisk = false → fire.dispatch.dryRun = true) :
    s'.Trail castText groupFor limits := by
  obtain ⟨gate', hGate', hLimits, hSlots, hKnows⟩ := h.gate
  obtain rfl : gate' = gate := Option.some.inj (hGate'.symm.trans hGate)
  obtain ⟨hTable, hSent, hKept⟩ := write_rejections h.table hJobs
  rw [← hStore] at hTable hSent hKept
  constructor
  case gate =>
    refine ⟨after, hAfter, ?_⟩
    rw [hTold, hGated.length_eq]
    obtain rfl | ⟨c, rfl⟩ := hChecked
    · exact ⟨hLimits, hSlots, hKnows.later (hNow.trans hClock)⟩
    · refine ⟨(apply_limits gate' (.check c nowMs)).trans hLimits, ?_,
        (hKnows.check_idle c hNow).later hClock⟩
      obtain hSame | hPruned := gate'.check_gate c nowMs
      · rw [hSame]
        exact hSlots
      · rw [hPruned]
        exact hSlots
  case epoch => exact h.epoch.trans (hNow.trans hClock)
  case table => exact hTable
  case rows =>
    rw [sentRows, hSent, hTold]
    exact h.rows
  case waits =>
    intro fire hMem
    exact (h.waits fire (hGated.mem_iff.mp hMem)).grown hKept fun entry hEntry => hTold ▸ hEntry
  case apart => exact (hGated.map _).nodup_iff.mpr h.apart
  case shadow => exact hShadow

/-- A real fire that is sent adds its row, and the gate is told the same of it. -/
theorem Trail.sent {s' : AuditedFleet} {gate : RiskGate} {fire : PendingFire} {wirePrice : ℚ}
    (h : s.Trail castText groupFor limits) (hCast : CastsNumerals castText)
    (hSendable : Sendable groupFor s m r) (hNow : s.clockMs ≤ r.checkMs)
    (hClock : r.checkMs ≤ r.recordMs) (hClock' : s'.clockMs = r.recordMs)
    (hGate : s.fleet.server.riskGate = some gate)
    (hAfter : s'.fleet.server.riskGate = some (s.fleet.server.gateAfter m r gate wirePrice))
    (hSnapped : snapToGrid m.wirePriceYesDollars m.priceRanges = some wirePrice)
    (hMessage : fire.message = m) (hCount : fire.count = orderCount s.fleet.server m r.balanceDollars)
    (hCounted : 1 ≤ fire.count)
    (hDispatched : Dispatched m fire.count wirePrice r fire.dispatch)
    (hGated : s'.fleet.gated = s.fleet.gated ++ [fire])
    (hTold : s'.told =
      s.told ++ [(fire.clientOrderId, ⟨attemptOf m fire.count wirePrice r, none⟩)])
    (hStore : s'.store = write castText s.store [.fired fire.dispatch.row false])
    (hShadow : ∀ fire ∈ s'.fleet.pending, fire.gatingRisk = false → fire.dispatch.dryRun = true) :
    s'.Trail castText groupFor limits := by
  obtain ⟨gate', hGate', hLimits, hSlots, hKnows⟩ := h.gate
  obtain rfl : gate' = gate := Option.some.inj (hGate'.symm.trans hGate)
  have hGrid := hSendable.grid wirePrice hSnapped
  have hValid := hDispatched.valid hCast hSendable.direction hCounted hGrid hSendable.requestedAtMs
  obtain ⟨bound, hBound⟩ := bindRow_of_binds fun c _ => hValid.binds c
  have hText := clientOrderId_of_bind hBound
  have hFresh : ∀ other ∈ s.store.rows .ordersFired,
      other .clientOrderId ≠ bound .clientOrderId := by
    rw [hText, hDispatched.clientOrderId]
    exact hSendable.fresh
  have hRows : s'.store.rows .ordersFired = s.store.rows .ordersFired ++ [bound] := by
    rw [hStore]
    exact rows_keep_fired hBound (hValid.admits hBound) ⟨_, hText⟩ hFresh
  have hSent : s'.sentRows = s.sentRows ++ [bound] := by
    have hPending : (storedOrder bound).status = "pending" := by
      rw [storedOrder_of_bind hBound]
      exact congrArg OrderStatus.text hDispatched.status
    rw [sentRows, hRows, List.filter_append, List.filter_singleton, hPending]
    rfl
  have hOld : ∀ row ∈ s.store.rows .ordersFired, row ∈ s'.store.rows .ordersFired :=
    fun row hMem => hRows ▸ List.mem_append_left _ hMem
  have hOldTold : ∀ entry ∈ s.told, entry ∈ s'.told :=
    fun entry hMem => hTold ▸ List.mem_append_left _ hMem
  constructor
  case gate =>
    refine ⟨_, hAfter, ?_, ?_, ?_⟩
    · exact (apply_limits gate' (.check _ r.checkMs)).trans hLimits
    · have hSlots' : (gate'.check (s.fleet.server.orderOf m r wirePrice) r.checkMs).2.inFlight =
          s.fleet.gated.length := by
        obtain hSame | hPruned := gate'.check_gate (s.fleet.server.orderOf m r wirePrice) r.checkMs
        · rw [hSame]
          exact hSlots
        · rw [hPruned]
          exact hSlots
      rw [hGated, List.length_append, Nat.cast_add, ← hSlots']
      rfl
    · have hChecked := hKnows.check_idle (s.fleet.server.orderOf m r wirePrice) hNow
      have hTold' : s'.told.map Prod.snd =
          s.told.map Prod.snd ++ [⟨attemptOf m fire.count wirePrice r, none⟩] := by
        rw [hTold, List.map_append]
        rfl
      rw [hTold', hClock', hCount]
      exact hChecked.attempt (a := attemptOf m _ wirePrice r) hClock (h.epoch.trans hNow)
        hSendable.group
  case epoch =>
    rw [hClock']
    exact h.epoch.trans (hNow.trans hClock)
  case table => exact h.table.appended hRows (hValid.admits hBound) ⟨_, hText⟩ hFresh
  case rows =>
    rw [hSent, hTold]
    refine List.rel_append h.rows (.cons ⟨hText, ?_⟩ .nil)
    exact hDispatched.records hCounted hGrid hSendable.clock hBound
  case waits =>
    intro other hMem
    rw [hGated] at hMem
    obtain hOther | hNew := List.mem_append.mp hMem
    · exact (h.waits other hOther).grown hOld hOldTold
    obtain rfl := List.mem_singleton.mp hNew
    refine ⟨hValid, hDispatched.dryRun, hDispatched.status,
      hDispatched.submittedAtMs ▸ hSendable.submittedAtMs, ⟨bound, hRows ▸ ?_, hBound⟩, ?_⟩
    · exact List.mem_append_right _ List.mem_cons_self
    · refine ⟨attemptOf m other.count wirePrice r, ?_, ?_, hSendable.group⟩
      · exact hTold ▸ List.mem_append_right _ List.mem_cons_self
      · rw [hMessage]
        rfl
  case apart =>
    rw [hGated, List.map_append, List.nodup_append]
    refine ⟨h.apart, List.nodup_singleton _, ?_⟩
    rintro id hOther id' hNew rfl
    obtain ⟨other, hMem, rfl⟩ := List.mem_map.mp hOther
    obtain ⟨row, hRow, hOtherBound⟩ := (h.waits other hMem).row
    refine hFresh row hRow ?_
    rw [clientOrderId_of_bind hOtherBound, hText]
    exact congrArg Value.text (List.mem_singleton.mp hNew)
  case shadow => exact hShadow

theorem Trail.arrive (h : s.Trail castText groupFor limits) (hCast : CastsNumerals castText)
    (hScope : InScope groupFor s (.arrive m r)) :
    (s.step castText (.arrive m r)).Trail castText groupFor limits := by
  obtain ⟨hNow, hClock, hSendable⟩ := hScope
  obtain ⟨gate, hGate, -⟩ := h.gate
  have hGated : (s.step castText (.arrive m r)).fleet.gated =
      s.fleet.gated ++ (s.fleet.server.startFire m r).1.tasks.filter fun fire => fire.gatingRisk :=
    List.filter_append _ _
  have hShadow : (∀ fire ∈ (s.fleet.server.startFire m r).1.tasks,
      fire.gatingRisk = false → fire.dispatch.dryRun = true) →
      ∀ fire ∈ (s.step castText (.arrive m r)).fleet.pending,
        fire.gatingRisk = false → fire.dispatch.dryRun = true := by
    intro hTasks fire hMem
    obtain hOld | hNew := List.mem_append.mp hMem
    · exact h.shadow fire hOld
    · exact hTasks fire hNew
  have hTold : (s.step castText (.arrive m r)).told = s.told ++
      ((s.fleet.server.startFire m r).1.tasks.filter fun fire => fire.gatingRisk).map fun fire =>
        (fire.clientOrderId, ⟨attemptOf m fire.count fire.wirePrice r, none⟩) := rfl
  have hAfter : (s.step castText (.arrive m r)).fleet.server.riskGate =
      (s.fleet.server.startFire m r).2.2.riskGate := rfl
  have hStore : (s.step castText (.arrive m r)).store =
      write castText s.store (s.fleet.server.startFire m r).2.1 := rfl
  have hClock' : (s.step castText (.arrive m r)).clockMs = r.recordMs := rfl
  generalize s.step castText (.arrive m r) = s' at *
  cases hReal : m.dryRun with
  | true =>
    obtain ⟨hSame, hJobs, hTasks⟩ := startFire_of_shadow (r := r) s.fleet.server hReal
    have hNone : (s.fleet.server.startFire m r).1.tasks.filter (fun fire => fire.gatingRisk) = [] :=
      List.filter_eq_nil_iff.mpr fun fire hMem => by simp [(hTasks fire hMem).1]
    rw [hNone, List.append_nil] at hGated
    rw [hNone, List.map_nil, List.append_nil] at hTold
    refine h.quiet (.of_eq hGated) hTold hNow (hClock'.symm ▸ hClock) hGate
      (hAfter.trans (hSame.trans hGate)) (.inl rfl) (hJobs ▸ hStore) (List.forall_mem_nil _) ?_
    exact hShadow fun fire hMem _ => (hTasks fire hMem).2
  | false =>
    have hSend := hSendable hReal
    have hAnswers := ExecutorServer.answers_of_startFire hGate hReal hSend.direction hSend.permitted
    generalize (s.fleet.server.startFire m r).1.tasks = tasks at *
    generalize (s.fleet.server.startFire m r).2.1 = jobs at *
    generalize hRisk : (s.fleet.server.startFire m r).2.2.riskGate = riskGate at *
    cases hAnswers with
    | refused hChecked hJobs =>
      rw [List.filter_nil, List.append_nil] at hGated
      rw [List.filter_nil, List.map_nil, List.append_nil] at hTold
      exact h.quiet (.of_eq hGated) hTold hNow (hClock'.symm ▸ hClock) hGate hAfter hChecked hStore
        hJobs (hShadow (List.forall_mem_nil _))
    | sent hSnapped hCounted hDispatched =>
      refine h.sent hCast hSend hNow hClock hClock' hGate hAfter hSnapped rfl rfl hCounted
        hDispatched hGated hTold hStore (hShadow ?_)
      intro fire hMem hNot
      obtain rfl := List.mem_singleton.mp hMem
      cases hNot

end Arrivals

section Resumptions

variable {fire : PendingFire} {outcome : PostOutcome} {r : FinishReadings}

theorem answered_of_told {told : List (String × Order)} {id : String} {a : WireAttempt}
    (hNodup : (told.map Prod.fst).Nodup) (hMem : (id, ⟨a, none⟩) ∈ told) :
    told.map (answered id none) = told := by
  refine (List.map_congr_left fun entry hEntry => ?_).trans (List.map_id _)
  rw [answered]
  split
  next hId =>
    obtain rfl : entry = (id, ⟨a, none⟩) := List.inj_on_of_nodup_map hNodup hEntry hMem hId
    rfl
  · rfl

/-- The one entry of an id takes the answer, where it stands. -/
theorem answered_split {told : List (String × Order)} {id : String} {a : WireAttempt}
    (fill : Option (ℚ × ℤ)) (hNodup : (told.map Prod.fst).Nodup) (hMem : (id, ⟨a, none⟩) ∈ told) :
    ∃ before after, told.map Prod.snd = before ++ ⟨a, none⟩ :: after ∧
      (told.map (answered id fill)).map Prod.snd = before ++ ⟨a, fill⟩ :: after := by
  obtain ⟨before, after, rfl⟩ := List.append_of_mem hMem
  rw [List.map_append, List.map_cons, List.nodup_append] at hNodup
  obtain ⟨-, hAfter, hBefore⟩ := hNodup
  have hOther : ∀ entries : List (String × Order), (∀ entry ∈ entries, entry.1 ≠ id) →
      entries.map (answered id fill) = entries := fun entries hNot =>
    (List.map_congr_left fun entry hEntry => if_neg (hNot entry hEntry)).trans (List.map_id _)
  refine ⟨before.map Prod.snd, after.map Prod.snd, List.map_append, ?_⟩
  rw [List.map_append, List.map_cons, hOther before, hOther after, List.map_append, List.map_cons]
  · rw [answered, if_pos rfl]
  · rintro entry hEntry rfl
    have hAgain : entry.1 ∈ after.map Prod.fst := List.mem_map_of_mem hEntry
    exact (List.nodup_cons.mp hAfter).1 hAgain
  · rintro entry hEntry rfl
    exact hBefore _ (List.mem_map_of_mem hEntry) _ List.mem_cons_self rfl

theorem eq_rejected_of_text {status : OrderStatus} (h : status.text = "rejected") :
    status = .rejected := by
  cases status with
  | rejected => rfl
  | _ => exact absurd h (by decide)

/-- A resolution leaves of the pending row only the request's time, which it shares. -/
theorem overwrite_resolution {d : Dispatch} {row : OrderRow} {pending bound : Sqlite.Row Column}
    (hResolves : Resolves d row)
    (hPending : bindRow (tableColumns .ordersFired) (rowOfOrder d.row) = some pending)
    (hBound : bindRow (tableColumns .ordersFired) (rowOfOrder row) = some bound) :
    overwrite updatable bound pending = bound := by
  funext c
  rw [overwrite]
  split
  · rfl
  next hNot =>
    by_cases hMem : c ∈ tableColumns .ordersFired
    · have hSame : rowOfOrder d.row c = rowOfOrder row c := by
        have hKept : c = .clientOrderId ∨ c = .requestedAtMs := by
          by_contra hNeither
          obtain ⟨hId, hRequested⟩ := not_or.mp hNeither
          exact hNot (List.mem_filter.mpr ⟨hMem, by simp [hId, hRequested]⟩)
        obtain rfl | rfl := hKept
        · exact congrArg PyValue.str hResolves.clientOrderId.symm
        · exact congrArg PyValue.int hResolves.requestedAtMs.symm
      have hEach := (eq_of_bindRow hPending).1 c hMem
      rw [hSame, (eq_of_bindRow hBound).1 c hMem] at hEach
      exact (Option.some.inj hEach).symm
    · rw [(eq_of_bindRow hPending).2 c hMem, (eq_of_bindRow hBound).2 c hMem]

/-- An order whose response is there: its row and its entry say the same of the outcome. -/
theorem Trail.resolve {s' : AuditedFleet} {row : OrderRow} {gate : RiskGate}
    (h : s.Trail castText groupFor limits) (fill : Option (ℚ × ℤ)) (after : RiskGate)
    (hFire : (fire :: s'.fleet.gated).Perm s.fleet.gated) (hResolves : Resolves fire.dispatch row)
    (hValid : ValidRow castText row)
    (hFill : match fill with
      | none => row.fillCount = none
      | some (fillCount, _) => RiskGate.asFloat (orNone row.fillCount) = fillCount)
    (hStore : s'.store = write castText s.store [.resolution row])
    (hTold : s'.told = s.told.map (answered fire.clientOrderId fill))
    (hClock : s.clockMs ≤ s'.clockMs) (hGate : s.fleet.server.riskGate = some gate)
    (hAfter : s'.fleet.server.riskGate = some after) (hLimits : after.limits = gate.limits)
    (hSlots : after.inFlight = max 0 (gate.inFlight - 1))
    (hKnows : Knows groupFor (s'.told.map Prod.snd) s'.clockMs { after with inFlight := 0 })
    (hShadow : ∀ fire ∈ s'.fleet.pending, fire.gatingRisk = false → fire.dispatch.dryRun = true) :
    s'.Trail castText groupFor limits := by
  obtain ⟨gate', hGate', hLimits', hSlots', -⟩ := h.gate
  obtain rfl : gate' = gate := Option.some.inj (hGate'.symm.trans hGate)
  have hWaits := h.waits fire (hFire.mem_iff.mp List.mem_cons_self)
  obtain ⟨pending, hPending, hPendingBound⟩ := hWaits.row
  obtain ⟨a, hEntry, -⟩ := hWaits.told
  obtain ⟨bound, hBound⟩ := bindRow_of_binds fun c _ => hValid.binds c
  have hText : bound .clientOrderId = .text fire.clientOrderId :=
    (clientOrderId_of_bind hBound).trans (congrArg Value.text hResolves.clientOrderId)
  have hPendingText : pending .clientOrderId = .text fire.clientOrderId :=
    clientOrderId_of_bind hPendingBound
  have hRows : s'.store.rows .ordersFired = (s.store.rows .ordersFired).map fun other =>
      if other .clientOrderId = bound .clientOrderId then overwrite updatable bound other
      else other := by
    rw [hStore]
    exact rows_keep_resolution hBound (hValid.admits hBound) ⟨_, hText⟩ h.table.admits
      ⟨pending, hPending, hPendingText.trans hText.symm⟩
  have hOnly : ∀ other ∈ s.store.rows .ordersFired,
      other .clientOrderId = bound .clientOrderId → other = pending := fun other hMem hId =>
    List.inj_on_of_nodup_map h.table.distinct hMem hPending
      ((hId.trans hText).trans hPendingText.symm)
  have hOver := overwrite_resolution hResolves hPendingBound hBound
  have hSent : s'.sentRows = s.sentRows.map fun other =>
      if other .clientOrderId = bound .clientOrderId then overwrite updatable bound other
      else other := by
    rw [sentRows, hRows, List.filter_map]
    refine congrArg (List.map _) (List.filter_congr fun other hMem => ?_)
    simp only [Function.comp]
    split
    next hId =>
      obtain rfl := hOnly other hMem hId
      have hOne : (storedOrder bound).status ≠ "rejected" := by
        rw [storedOrder_of_bind hBound]
        exact fun hRejected => hResolves.status.2 (eq_rejected_of_text hRejected)
      have hOther : (storedOrder other).status ≠ "rejected" := by
        rw [storedOrder_of_bind hPendingBound, hWaits.status]
        change OrderStatus.pending.text ≠ "rejected"
        decide
      rw [hOver, decide_eq_true hOne, decide_eq_true hOther]
    · rfl
  have hLeft : ∀ other ∈ s'.fleet.gated, other.clientOrderId ≠ fire.clientOrderId := by
    have hNodup := (hFire.map PendingFire.clientOrderId).nodup_iff.mpr h.apart
    rw [List.map_cons, List.nodup_cons] at hNodup
    rintro other hMem hSame
    exact hNodup.1 (hSame ▸ List.mem_map_of_mem hMem)
  constructor
  case gate =>
    refine ⟨after, hAfter, hLimits.trans hLimits', ?_, hKnows⟩
    have hLength := hFire.length_eq
    rw [List.length_cons] at hLength
    omega
  case epoch => exact h.epoch.trans hClock
  case table => exact h.table.resolved (hValid.admits hBound) hRows
  case rows =>
    rw [hSent, hTold]
    refine tells_map h.rows fun other hOther entry hEntry' hTells => ?_
    have hMem := (List.mem_filter.mp hOther).1
    rw [answered]
    by_cases hId : entry.1 = fire.clientOrderId
    · have hSame : other .clientOrderId = bound .clientOrderId := by
        rw [hTells.id, hText, hId]
      obtain rfl := hOnly other hMem hSame
      rw [if_pos hId, if_pos hSame, hOver]
      refine ⟨hText.trans (congrArg Value.text hId.symm), ?_⟩
      exact hResolves.records hPendingBound hBound hTells.records hFill
    · have hNot : other .clientOrderId ≠ bound .clientOrderId := by
        rw [hTells.id, hText]
        exact fun hSame => hId (Value.text.inj hSame)
      rw [if_neg hId, if_neg hNot]
      exact hTells
  case waits =>
    intro other hMem
    have hOther := h.waits other (hFire.mem_iff.mp (List.mem_cons_of_mem _ hMem))
    obtain ⟨row', hRow', hRowBound⟩ := hOther.row
    obtain ⟨a', hEntry', hTicker⟩ := hOther.told
    refine ⟨hOther.valid, hOther.real, hOther.status, hOther.submittedAtMs,
      ⟨row', ?_, hRowBound⟩, ⟨a', ?_, hTicker⟩⟩
    · rw [hRows]
      refine List.mem_map.mpr ⟨row', hRow', if_neg ?_⟩
      rw [clientOrderId_of_bind hRowBound, hText]
      exact fun hSame => hLeft other hMem (Value.text.inj hSame)
    · rw [hTold]
      exact List.mem_map.mpr ⟨_, hEntry', if_neg (hLeft other hMem)⟩
  case apart =>
    have hNodup := (hFire.map PendingFire.clientOrderId).nodup_iff.mpr h.apart
    exact (List.nodup_cons.mp hNodup).2
  case shadow => exact hShadow

/-- An order whose response says nothing stays as it was sent. -/
theorem Trail.abandon {s' : AuditedFleet} {gate : RiskGate}
    (h : s.Trail castText groupFor limits)
    (hFire : (fire :: s'.fleet.gated).Perm s.fleet.gated) (hStore : s'.store = s.store)
    (hTold : s'.told = s.told) (hClock : s.clockMs ≤ s'.clockMs)
    (hGate : s.fleet.server.riskGate = some gate)
    (hAfter : s'.fleet.server.riskGate = some gate.endDispatch)
    (hShadow : ∀ fire ∈ s'.fleet.pending, fire.gatingRisk = false → fire.dispatch.dryRun = true) :
    s'.Trail castText groupFor limits := by
  obtain ⟨gate', hGate', hLimits, hSlots, hKnows⟩ := h.gate
  obtain rfl : gate' = gate := Option.some.inj (hGate'.symm.trans hGate)
  have hMem : ∀ other ∈ s'.fleet.gated, other ∈ s.fleet.gated := fun other hMem =>
    hFire.mem_iff.mp (List.mem_cons_of_mem _ hMem)
  constructor
  case gate =>
    refine ⟨gate'.endDispatch, hAfter, hLimits, ?_, hTold ▸ hKnows.later hClock⟩
    have hLength := hFire.length_eq
    have hEnd : gate'.endDispatch.inFlight = max 0 (gate'.inFlight - 1) := rfl
    rw [List.length_cons] at hLength
    omega
  case epoch => exact h.epoch.trans hClock
  case table => exact ⟨hStore ▸ h.table.admits, hStore ▸ h.table.texts, hStore ▸ h.table.distinct⟩
  case rows =>
    rw [sentRows, hStore, hTold]
    exact h.rows
  case waits =>
    intro other hOther
    exact (h.waits other (hMem other hOther)).grown (fun row hRow => hStore ▸ hRow)
      fun entry hEntry => hTold ▸ hEntry
  case apart =>
    have hNodup := (hFire.map PendingFire.clientOrderId).nodup_iff.mpr h.apart
    exact (List.nodup_cons.mp hNodup).2
  case shadow => exact hShadow

theorem Trail.resume {index : ℕ} (h : s.Trail castText groupFor limits)
    (hScope : InScope groupFor s (.resume index outcome r)) :
    (s.step castText (.resume index outcome r)).Trail castText groupFor limits := by
  obtain ⟨hNow, hAcknowledged, hDocumented⟩ := hScope
  obtain ⟨gate, hGate, -, -, hKnows⟩ := h.gate
  have hClock : (s.step castText (.resume index outcome r)).clockMs = r.fillMs := rfl
  cases hFire : s.fleet.pending[index]? with
  | none =>
    have hFleet : (s.step castText (.resume index outcome r)).fleet = s.fleet := by
      simp only [step, Fleet.step, hFire]
    have hStore : (s.step castText (.resume index outcome r)).store = write castText s.store [] := by
      simp only [step, Fleet.jobsOf, hFire]
    have hTold : (s.step castText (.resume index outcome r)).told = s.told := by
      simp only [step, toldOf, hFire]
    generalize s.step castText (.resume index outcome r) = s' at *
    exact h.quiet (.of_eq (hFleet ▸ rfl)) hTold hNow hClock.symm.le hGate (hFleet ▸ hGate) (.inl rfl)
      hStore (List.forall_mem_nil _) (hFleet ▸ h.shadow)
  | some fire =>
    have hPerm := perm_eraseIdx hFire
    have hFleet : (s.step castText (.resume index outcome r)).fleet.pending =
        s.fleet.pending.eraseIdx index := by
      simp only [step, Fleet.step, hFire]
    have hServer : (s.step castText (.resume index outcome r)).fleet.server =
        (finishFire s.fleet.server fire outcome r).2 := by
      simp only [step, Fleet.step, hFire]
    have hStore : (s.step castText (.resume index outcome r)).store =
        write castText s.store (closeDispatch fire.dispatch outcome r.acknowledgedMs).2 := by
      simp only [step, Fleet.jobsOf, hFire, finishFire]
      split <;> rfl
    have hShadow : ∀ fire ∈ (s.step castText (.resume index outcome r)).fleet.pending,
        fire.gatingRisk = false → fire.dispatch.dryRun = true := by
      rw [hFleet]
      exact fun other hMem => h.shadow other (List.mem_of_mem_eraseIdx hMem)
    have hTold : (s.step castText (.resume index outcome r)).told =
        toldOf s.fleet s.told (.resume index outcome r) := rfl
    have hGated : (s.step castText (.resume index outcome r)).fleet.gated =
        (s.fleet.pending.eraseIdx index).filter fun fire => fire.gatingRisk := by
      rw [Fleet.gated, hFleet]
    have hSplit : ((fire :: s.fleet.pending.eraseIdx index).filter fun fire =>
        fire.gatingRisk).Perm s.fleet.gated := (hPerm.filter _).symm
    simp only [toldOf, hFire] at hTold
    generalize s.step castText (.resume index outcome r) = s' at *
    cases hGating : fire.gatingRisk with
    | false =>
      have hDryRun := h.shadow fire (hPerm.mem_iff.mpr List.mem_cons_self) hGating
      rw [hGating, if_neg Bool.false_ne_true] at hTold
      rw [List.filter_cons_of_neg (by simp [hGating]), ← hGated] at hSplit
      rw [closeDispatch_of_dryRun hDryRun] at hStore
      rw [finishFire, hGating] at hServer
      refine h.quiet hSplit hTold hNow hClock.symm.le hGate ?_ (.inl rfl) hStore
        (List.forall_mem_nil _) hShadow
      rw [hServer]
      exact hGate
    | true =>
      rw [List.filter_cons_of_pos hGating, ← hGated] at hSplit
      rw [hGating, if_pos rfl] at hTold
      simp only [finishFire, hGating, if_true] at hServer
      have hWaits := h.waits fire (hSplit.mem_iff.mp List.mem_cons_self)
      obtain ⟨a, hEntry, hTicker, hGroup⟩ := hWaits.told
      obtain hSilent | ⟨row, hJobs, hResolves, hValid, hFill⟩ := closeDispatch_resolves hWaits.real
        hWaits.valid hWaits.status hWaits.submittedAtMs hAcknowledged hDocumented
      · rw [hSilent] at hStore hTold hServer
        refine h.abandon hSplit hStore hTold (hClock ▸ hNow) hGate ?_ hShadow
        rw [hServer, ExecutorServer.withGate, hGate]
        rfl
      rw [hJobs] at hStore
      cases hResponse : (closeDispatch fire.dispatch outcome r.acknowledgedMs).1 with
      | none =>
        rw [hResponse] at hTold hServer hFill
        have hSame := hTold.trans (answered_of_told h.nodup_told hEntry).symm
        refine h.resolve none gate.endDispatch hSplit hResolves hValid hFill
          hStore hSame (hClock ▸ hNow) hGate ?_ rfl rfl ?_ hShadow
        · rw [hServer, ExecutorServer.withGate, hGate]
          rfl
        · rw [hTold, hClock]
          exact hKnows.later hNow
      | some response =>
        rw [hResponse] at hTold hServer hFill
        obtain ⟨before, after, hBefore, hAfter⟩ :=
          answered_split (some (responseFillCount response, r.fillMs)) h.nodup_told hEntry
        refine h.resolve (some (responseFillCount response, r.fillMs))
          (gate.recordFill fire.message.marketTicker (responseFillCount response)
            r.fillMs).endDispatch hSplit hResolves hValid hFill hStore hTold (hClock ▸ hNow) hGate
          ?_ ?_ ?_ ?_ hShadow
        · rw [hServer]
          simp only [ExecutorServer.withGate, hGate, Option.map_some]
        · exact apply_limits gate (.recordFill fire.message.marketTicker _ r.fillMs)
        · rw [RiskGate.recordFill_eq]
          rfl
        · rw [hBefore] at hKnows
          rw [hTold, hAfter, hClock, ← hTicker]
          exact hKnows.fill_idle (responseFillCount response) hNow hGroup

end Resumptions

section Restart

variable {events : List FireEvent}

/-- The executor before its first fire, with a table that holds no order. -/
structure Starting (limits : RiskLimits) (s : AuditedFleet) : Prop where
  riskGate : s.fleet.server.riskGate = some { limits }
  pending : s.fleet.pending = []
  rows : s.store.rows .ordersFired = []
  told : s.told = []
  clockMs : s.clockMs = 0

theorem Starting.trail (groupFor : String → String) (h : Starting limits s) :
    s.Trail castText groupFor limits := by
  have hGated : s.fleet.gated = [] := by rw [Fleet.gated, h.pending, List.filter_nil]
  constructor
  case gate =>
    refine ⟨{ limits }, h.riskGate, rfl, ?_, ?_⟩
    · rw [hGated]
      rfl
    · rw [h.told, h.clockMs]
      exact .start groupFor limits
  case epoch => exact h.clockMs.ge
  case table =>
    constructor
    · rw [h.rows]
      exact List.forall_mem_nil _
    · rw [h.rows]
      exact List.forall_mem_nil _
    · rw [h.rows]
      exact .nil
  case rows =>
    rw [sentRows, h.rows, h.told]
    exact .nil
  case waits =>
    rw [hGated]
    exact List.forall_mem_nil _
  case apart =>
    rw [hGated]
    exact .nil
  case shadow =>
    rw [h.pending]
    exact List.forall_mem_nil _

/-- Whatever the fires' interleaving, the gate and the table never tell a different story. -/
theorem trail_of_run (hCast : CastsNumerals castText) (hStart : Starting limits s)
    (hScope : Throughout (step castText) (InScope groupFor) s events) :
    (events.foldl (step castText) s).Trail castText groupFor limits := by
  refine Throughout.invariant ?_ (hStart.trail groupFor) hScope
  intro s event hEvent hTrail
  cases event with
  | arrive m r => exact hTrail.arrive hCast hEvent
  | resume index outcome r => exact hTrail.resume hEvent

theorem Trail.recordedIn (h : s.Trail castText groupFor limits) :
    RecordedIn (s.told.map Prod.snd) ((s.store.rows .ordersFired).map storedOrder) := by
  refine ⟨s.sentRows.map storedOrder, .of_eq ?_, ?_⟩
  · rw [sentRows, List.filter_map]
    rfl
  · rw [List.forall₂_map_left_iff, List.forall₂_map_right_iff]
    exact h.rows.imp fun _ _ hTells => hTells.records

theorem selects_of_one {table : List StoredOrder} {sent : StoredOrder} {nowMs : ℤ}
    (hTable : table.filter (fun row => row.status ≠ "rejected") = [sent]) :
    Selects table nowMs (([sent].filter fun row => nowMs - dayMs ≤ row.requestedAtMs).map
      StoredOrder.toFetchedOrder) := by
  constructor
  · rw [List.filter_singleton]
    cases decide (nowMs - dayMs ≤ sent.requestedAtMs) with
    | true => exact List.pairwise_singleton _ _
    | false => exact .nil
  · rw [← hTable, List.filter_filter]
    simp only [Bool.decide_and]
    exact .refl _

def restingWake : WakeMessage :=
  { correlationId := "corr-9", marketTicker := "KX-B-2", direction := "no", kalshiPrice := 1 / 2,
    edge := 1 / 10, wirePriceYesDollars := 1 / 2, exchangeIndex := 0 }

def restingFleet : AuditedFleet :=
  { fleet := { server := demoServer }, store := ⟨[], fun _ => []⟩ }

end Restart

end AuditedFleet

end KalshiBot.Ipc

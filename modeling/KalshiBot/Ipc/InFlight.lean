import KalshiBot.Ipc.GatedDispatch
import KalshiBot.Library.Slots

/-! # Dispatches in flight

Every fire is a task with a number. It may be cancelled before its first step, and its dispatch
may end in any way and after any other step; an audit write that raises inside a dispatch is, for
the gate, a dispatch that raised. The log lists the calls that all the tasks make, and every split
of it is a moment of the run, also between two calls of one step.
-/

namespace KalshiBot.Ipc

open PythonText Execution Risk KalshiBot.Runtime Slots

set_option autoImplicit false

def Call.slot? : Call → Option SlotOp
  | beginDispatch => some .take
  | endDispatch => some .release
  | _ => none

inductive Moment where
  | call (number : ℕ) (call : Call)
  | reconcile (openPositions : Dict String ℚ) (snapshotAtMs : ℤ)

namespace Moment

def applyTo (gate : RiskGate) : Moment → RiskGate
  | .call _ made => made.applyTo gate
  | .reconcile openPositions snapshotAtMs => gate.reconcileOpenPositions openPositions snapshotAtMs

def slot? : Moment → Option (ℕ × SlotOp)
  | .call number made => made.slot?.map (number, ·)
  | .reconcile _ _ => none

end Moment

def gateAt (gate : RiskGate) (log : List Moment) : RiskGate := log.foldl Moment.applyTo gate

def slotsOf (log : List Moment) : SlotLog ℕ := log.filterMap Moment.slot?

/-- The tasks that were created and have not run, and those whose dispatch has not ended. -/
structure FireTasks where
  server : ExecutorServer
  created : ℕ := 0
  scheduled : List (ℕ × WakeMessage) := []
  pending : List (ℕ × PendingFire) := []
  log : List Moment := []

inductive TaskEvent where
  | create (m : WakeMessage)
  | start (index : ℕ) (r : FireReadings)
  | cancelUnstarted (index : ℕ)
  | resume (index : ℕ) (outcome : PostOutcome) (r : FinishReadings)
  | reconcile (openPositions : Dict String ℚ) (snapshotAtMs : ℤ)

namespace FireTasks

def step (tasks : FireTasks) : TaskEvent → FireTasks
  | .create m =>
    { tasks with
      created := tasks.created + 1
      scheduled := tasks.scheduled ++ [(tasks.created, m)] }
  | .start index r =>
    match tasks.scheduled[index]? with
    | none => tasks
    | some (number, m) =>
      let started := tasks.server.startFire m r
      { tasks with
        server := started.2.2
        scheduled := tasks.scheduled.eraseIdx index
        pending := tasks.pending ++ started.1.tasks.map (number, ·)
        log := tasks.log ++ (tasks.server.startCalls m r).map (.call number) }
  | .cancelUnstarted index => { tasks with scheduled := tasks.scheduled.eraseIdx index }
  | .resume index outcome r =>
    match tasks.pending[index]? with
    | none => tasks
    | some (number, fire) =>
      { tasks with
        server := (finishFire tasks.server fire outcome r).2
        pending := tasks.pending.eraseIdx index
        log := tasks.log ++ (finishCalls fire outcome r).map (.call number) }
  | .reconcile openPositions snapshotAtMs =>
    { tasks with
      server := tasks.server.withGate fun gate =>
        gate.reconcileOpenPositions openPositions snapshotAtMs
      log := tasks.log ++ [.reconcile openPositions snapshotAtMs] }

def run (tasks : FireTasks) (events : List TaskEvent) : FireTasks := events.foldl step tasks

end FireTasks

theorem gateAt_append (gate : RiskGate) (log later : List Moment) :
    gateAt gate (log ++ later) = gateAt (gateAt gate log) later := List.foldl_append

theorem slotsOf_append (log later : List Moment) :
    slotsOf (log ++ later) = slotsOf log ++ slotsOf later := List.filterMap_append

theorem gateAt_calls (gate : RiskGate) (number : ℕ) (calls : List Call) :
    gateAt gate (calls.map (.call number)) = calls.foldl Call.applyTo gate := by
  rw [gateAt, List.foldl_map]
  rfl

theorem slotsOf_calls (number : ℕ) (calls : List Call) :
    slotsOf (calls.map (.call number)) = (calls.filterMap Call.slot?).map (number, ·) := by
  rw [slotsOf, List.filterMap_map, List.map_filterMap]
  rfl

theorem applyTo_limits (gate : RiskGate) (moment : Moment) :
    (moment.applyTo gate).limits = gate.limits := by
  cases moment with
  | reconcile openPositions snapshotAtMs => rfl
  | call number made =>
    cases made with
    | check c nowMs verdict =>
      rw [Moment.applyTo, Call.applyTo]
      obtain h | h := gate.check_gate c nowMs <;> rw [h]
      rfl
    | recordFill ticker fillCount nowMs =>
      rw [Moment.applyTo, Call.applyTo, RiskGate.recordFill_eq]
    | _ => rfl

theorem gateAt_limits (gate : RiskGate) (log : List Moment) :
    (gateAt gate log).limits = gate.limits := by
  induction log using List.reverseRecOn with
  | nil => rfl
  | append_singleton log moment ih =>
    rw [gateAt_append]
    exact (applyTo_limits _ moment).trans ih

/-- `begin_dispatch` and `end_dispatch` are the only calls that touch the counter. -/
theorem applyTo_inFlight (gate : RiskGate) (moment : Moment) : (moment.applyTo gate).inFlight =
    (moment.slot?.elim gate.inFlight fun entry => entry.2.applyTo gate.inFlight) := by
  cases moment with
  | reconcile openPositions snapshotAtMs => rfl
  | call number made =>
    cases made with
    | check c nowMs verdict =>
      rw [Moment.applyTo, Call.applyTo]
      obtain h | h := gate.check_gate c nowMs <;> rw [h] <;> rfl
    | recordFill ticker fillCount nowMs =>
      rw [Moment.applyTo, Call.applyTo, RiskGate.recordFill_eq]
      rfl
    | _ => rfl

theorem inFlight_gateAt {gate : RiskGate} (hIdle : gate.inFlight = 0) (log : List Moment) :
    (gateAt gate log).inFlight = counter (slotsOf log) := by
  induction log using List.reverseRecOn with
  | nil => exact hIdle
  | append_singleton log moment ih =>
    have hHere : gateAt gate (log ++ [moment]) = moment.applyTo (gateAt gate log) :=
      gateAt_append gate log [moment]
    rw [hHere, applyTo_inFlight, ih, slotsOf_append]
    cases hSlot : moment.slot? with
    | none => simp [slotsOf, hSlot]
    | some entry => simp [slotsOf, hSlot]

/-- What the start of a fire does with a slot, and the dispatch it leaves pending. -/
inductive Slotted (free : Prop) : List SlotOp → List PendingFire → Prop
  | nothing : Slotted free [] []
  | ungated {fire : PendingFire} (hUngated : fire.gatingRisk = false) : Slotted free [] [fire]
  | failed (hFree : free) : Slotted free [.take, .release] []
  | sent {fire : PendingFire} (hFree : free) (hGating : fire.gatingRisk = true) :
      Slotted free [.take] [fire]

namespace ExecutorServer

variable {server : ExecutorServer} {m : WakeMessage} {r : FireReadings} {free : Prop}

theorem slotted_sendFire (count : ℤ) (wirePrice : ℚ)
    (hFree : (server.riskGate.isSome && !m.dryRun) = true → free) :
    Slotted free ((server.sendCalls m count wirePrice r).filterMap Call.slot?)
      (server.sendFire m count wirePrice r).1.tasks := by
  unfold sendCalls sendFire
  cases hGating : server.riskGate.isSome && !m.dryRun with
  | true =>
    have hFree := hFree hGating
    cases hTemplate : buildTemplate m.marketTicker m.direction with
    | none => exact .failed hFree
    | some template =>
      dsimp only
      generalize openDispatch _ r.dispatch = opened
      obtain _ | ⟨dispatch, jobs⟩ := opened
      · exact .failed hFree
      · exact .sent hFree rfl
  | false =>
    cases hTemplate : buildTemplate m.marketTicker m.direction with
    | none => exact .nothing
    | some template =>
      dsimp only
      generalize openDispatch _ r.dispatch = opened
      obtain _ | ⟨dispatch, jobs⟩ := opened
      · exact .nothing
      · exact .ungated rfl

theorem slotted_gateFire (count : ℤ) (wirePrice : ℚ)
    (hFree : ∀ gate, server.riskGate = some gate →
      gate.inFlight < gate.limits.maxConcurrentDispatches → free) :
    Slotted free ((server.gateCalls m count wirePrice r).filterMap Call.slot?)
      (server.gateFire m count wirePrice r).1.tasks := by
  unfold gateCalls gateFire
  cases hGate : server.riskGate with
  | none =>
    refine slotted_sendFire count wirePrice ?_
    rw [hGate]
    exact nofun
  | some gate =>
    cases hCheck : gate.check (candidateOf m count wirePrice) r.checkMs with
    | mk verdict checked =>
    dsimp only
    rw [hCheck]
    cases verdict with
    | some rejection => exact .nothing
    | none =>
      have hAdmits := (gate.check_eq_none_iff (candidateOf m count wirePrice) r.checkMs).mp
        (congrArg Prod.fst hCheck)
      rw [← sendCalls_of_gate count wirePrice hGate _ server.killSwitch]
      exact slotted_sendFire count wirePrice fun _ => hFree gate hGate hAdmits.slot

theorem slotted_guardFire (count : ℤ) (wirePrice : ℚ)
    (hFree : ∀ gate, server.riskGate = some gate →
      gate.inFlight < gate.limits.maxConcurrentDispatches → free) :
    Slotted free ((server.guardCalls m count wirePrice r).filterMap Call.slot?)
      (server.guardFire m count wirePrice r).1.tasks := by
  unfold guardCalls guardFire
  cases hSwitch : server.killSwitch with
  | none => exact slotted_gateFire count wirePrice hFree
  | some switch =>
    cases hConsult : switch.isEngaged r.switchExists r.switchNs with
    | mk engaged consulted =>
    dsimp only
    rw [hConsult]
    cases engaged with
    | true =>
      rw [if_pos rfl, if_pos rfl]
      split <;> exact .nothing
    | false =>
      rw [← gateCalls_of_switch count wirePrice (some consulted)]
      exact slotted_gateFire count wirePrice hFree

theorem slotted_startFire (server : ExecutorServer) (m : WakeMessage) (r : FireReadings)
    (hFree : ∀ gate, server.riskGate = some gate →
      gate.inFlight < gate.limits.maxConcurrentDispatches → free) :
    Slotted free ((server.startCalls m r).filterMap Call.slot?) (server.startFire m r).1.tasks := by
  unfold startCalls startFire
  split
  next hDry =>
    cases hSnap : snapToGrid m.wirePriceYesDollars m.priceRanges with
    | none => exact .nothing
    | some wirePrice =>
      refine slotted_sendFire _ wirePrice ?_
      rw [hDry, Bool.not_true, Bool.and_false]
      exact nofun
  · split
    · exact .nothing
    · cases hSnap : snapToGrid m.wirePriceYesDollars m.priceRanges with
      | none => exact .nothing
      | some wirePrice =>
        dsimp only
        split
        · exact .nothing
        · exact slotted_guardFire _ wirePrice hFree

end ExecutorServer

theorem slots_finishCalls (fire : PendingFire) (outcome : PostOutcome) (r : FinishReadings) :
    (finishCalls fire outcome r).filterMap Call.slot? = if fire.gatingRisk then [.release] else [] := by
  unfold finishCalls
  split
  · split <;> rfl
  · rfl

theorem riskGate_finishCalls (server : ExecutorServer) (fire : PendingFire) (outcome : PostOutcome)
    (r : FinishReadings) : (finishFire server fire outcome r).2.riskGate =
      server.riskGate.map fun gate => (finishCalls fire outcome r).foldl Call.applyTo gate := by
  unfold finishFire finishCalls
  cases fire.gatingRisk with
  | false => exact Option.map_id'.symm
  | true =>
    cases hClosed : (closeDispatch fire.dispatch outcome r.acknowledgedMs).1 with
    | none =>
      dsimp only
      rw [hClosed]
      rfl
    | some response =>
      dsimp only
      rw [hClosed]
      exact Option.map_map _ _ _

namespace FireTasks

structure Kept (gate : RiskGate) (tasks : FireTasks) : Prop where
  riskGate : tasks.server.riskGate = some (gateAt gate tasks.log)
  paired : Paired (slotsOf tasks.log)
  admitted : Admitted gate.limits.maxConcurrentDispatches (slotsOf tasks.log)
  holding : ∀ number, number ∈ holders (slotsOf tasks.log) ↔
    ∃ fire, (number, fire) ∈ tasks.pending ∧ fire.gatingRisk = true
  unstarted : ∀ number m, (number, m) ∈ tasks.scheduled → ∀ op, (number, op) ∉ slotsOf tasks.log
  distinct : (tasks.scheduled.map Prod.fst ++ tasks.pending.map Prod.fst).Nodup
  numbered : ∀ number ∈ tasks.scheduled.map Prod.fst ++ tasks.pending.map Prod.fst,
    number < tasks.created
  logged : ∀ entry ∈ slotsOf tasks.log, entry.1 < tasks.created

variable {gate : RiskGate} {tasks : FireTasks}

theorem Kept.create (h : Kept gate tasks) (m : WakeMessage) :
    Kept gate (tasks.step (.create m)) where
  riskGate := h.riskGate
  paired := h.paired
  admitted := h.admitted
  holding := h.holding
  unstarted := by
    intro number m' hMem op hLogged
    obtain hOld | hNew := List.mem_append.mp hMem
    · exact h.unstarted number m' hOld op hLogged
    · obtain ⟨rfl, -⟩ := Prod.mk.inj (List.mem_singleton.mp hNew)
      exact absurd (h.logged _ hLogged) (lt_irrefl _)
  distinct := by
    have hNew : tasks.created ∉ tasks.scheduled.map Prod.fst ++ tasks.pending.map Prod.fst :=
      fun hMem => lt_irrefl _ (h.numbered _ hMem)
    simp only [step, List.map_append, List.map_cons, List.map_nil, List.append_assoc,
      List.singleton_append]
    exact (List.perm_middle.nodup_iff).mpr (List.nodup_cons.mpr ⟨hNew, h.distinct⟩)
  numbered := by
    intro number hMem
    simp only [step, List.map_append, List.map_cons, List.map_nil, List.append_assoc,
      List.singleton_append] at hMem
    obtain rfl | hOld := List.mem_cons.mp (List.perm_middle.mem_iff.mp hMem)
    · exact Nat.lt_succ_self _
    · exact (h.numbered number hOld).trans (Nat.lt_succ_self _)
  logged entry hEntry := (h.logged entry hEntry).trans (Nat.lt_succ_self _)

theorem Kept.drop (h : Kept gate tasks) (index : ℕ) :
    Kept gate (tasks.step (.cancelUnstarted index)) where
  riskGate := h.riskGate
  paired := h.paired
  admitted := h.admitted
  holding := h.holding
  unstarted number m hMem := h.unstarted number m (List.mem_of_mem_eraseIdx hMem)
  distinct := (((List.eraseIdx_sublist tasks.scheduled index).map Prod.fst).append_right _).nodup
    h.distinct
  numbered number hMem := h.numbered number
    ((((List.eraseIdx_sublist tasks.scheduled index).map Prod.fst).append_right _).mem hMem)
  logged := h.logged

theorem Kept.reconcile (h : Kept gate tasks) (openPositions : Dict String ℚ) (snapshotAtMs : ℤ) :
    Kept gate (tasks.step (.reconcile openPositions snapshotAtMs)) := by
  have hSlots : slotsOf (tasks.log ++ [.reconcile openPositions snapshotAtMs]) = slotsOf tasks.log := by
    rw [slotsOf_append]
    exact List.append_nil _
  exact
    { riskGate := by
        simp only [step, ExecutorServer.withGate, h.riskGate, Option.map_some, gateAt_append]
        rfl
      paired := hSlots ▸ h.paired
      admitted := hSlots ▸ h.admitted
      holding := by
        simp only [step, hSlots]
        exact h.holding
      unstarted := by
        simp only [step, hSlots]
        exact h.unstarted
      distinct := h.distinct
      numbered := h.numbered
      logged := by
        simp only [step, hSlots]
        exact h.logged }

/-- What the step that starts a task changes besides the gate: the number of the task moves, its
slot operations are logged. -/
structure Moved (tasks next : FireTasks) (number : ℕ) (ops : List SlotOp) (fires : List PendingFire) :
    Prop where
  created : next.created = tasks.created
  scheduled : ∃ m, tasks.scheduled.Perm ((number, m) :: next.scheduled)
  pending : next.pending = tasks.pending ++ fires.map (number, ·)
  slots : slotsOf next.log = slotsOf tasks.log ++ ops.map (number, ·)

variable {next : FireTasks} {number : ℕ} {ops : List SlotOp} {fires : List PendingFire} {free : Prop}

theorem Moved.nodup (hMoved : Moved tasks next number ops fires) (h : Kept gate tasks) :
    (number :: (next.scheduled.map Prod.fst ++ tasks.pending.map Prod.fst)).Nodup := by
  obtain ⟨m, hPerm⟩ := hMoved.scheduled
  exact ((hPerm.map Prod.fst).append_right _).nodup_iff.mp h.distinct

theorem Moved.new (hMoved : Moved tasks next number ops fires) (h : Kept gate tasks) (op : SlotOp) :
    (number, op) ∉ slotsOf tasks.log := by
  obtain ⟨m, hPerm⟩ := hMoved.scheduled
  exact h.unstarted number m (hPerm.mem_iff.mpr List.mem_cons_self) op

theorem Moved.numbers (hMoved : Moved tasks next number ops fires) (hSlotted : Slotted free ops fires) :
    (next.scheduled.map Prod.fst ++ next.pending.map Prod.fst).Sublist
        (next.scheduled.map Prod.fst ++ tasks.pending.map Prod.fst ++ [number]) := by
  rw [hMoved.pending, List.map_append, ← List.append_assoc]
  refine List.Sublist.append_left ?_ _
  cases hSlotted with
  | nothing | failed hFree => exact List.nil_sublist _
  | ungated hUngated => exact List.Sublist.refl _
  | sent hFree hGating => exact List.Sublist.refl _

theorem Moved.paired (hMoved : Moved tasks next number ops fires) (h : Kept gate tasks)
    (hSlotted : Slotted free ops fires) : Paired (slotsOf next.log) := by
  have hNew := hMoved.new h
  rw [hMoved.slots]
  cases hSlotted with
  | nothing | ungated hUngated => simpa using h.paired
  | failed hFree =>
    have hHeld : number ∈ holders (slotsOf tasks.log ++ [(number, .take)]) := by
      rw [holders_take hNew]
      exact Finset.mem_insert_self _ _
    simpa using (h.paired.take hNew).release hHeld
  | sent hFree hGating => exact h.paired.take hNew

theorem Moved.admitted (hMoved : Moved tasks next number ops fires) (h : Kept gate tasks)
    (hSlotted : Slotted (counter (slotsOf tasks.log) < gate.limits.maxConcurrentDispatches) ops fires) :
    Admitted gate.limits.maxConcurrentDispatches (slotsOf next.log) := by
  rw [hMoved.slots]
  refine h.admitted.append ?_
  intro before task after hOps
  cases hSlotted with
  | nothing | ungated hUngated => simp at hOps
  | failed hFree =>
    rcases before with _ | ⟨first, _ | ⟨second, before⟩⟩
    · simpa using hFree
    · simp at hOps
    · simp at hOps
  | sent hFree hGating =>
    rcases before with _ | ⟨first, before⟩
    · simpa using hFree
    · simp at hOps

theorem Moved.holding (hMoved : Moved tasks next number ops fires) (h : Kept gate tasks)
    (hSlotted : Slotted free ops fires) (other : ℕ) : other ∈ holders (slotsOf next.log) ↔
      ∃ fire, (other, fire) ∈ next.pending ∧ fire.gatingRisk = true := by
  have hNew := hMoved.new h
  rw [hMoved.slots, hMoved.pending]
  cases hSlotted with
  | nothing => simpa using h.holding other
  | ungated hUngated =>
    simp only [List.map_nil, List.append_nil, h.holding, List.map_cons, List.mem_append,
      List.mem_singleton]
    constructor
    · rintro ⟨fire, hFire, hGating⟩
      exact ⟨fire, .inl hFire, hGating⟩
    · rintro ⟨fire, hFire | hFire, hGating⟩
      · exact ⟨fire, hFire, hGating⟩
      · obtain ⟨-, rfl⟩ := Prod.mk.inj hFire
        rw [hUngated] at hGating
        cases hGating
  | failed hFree =>
    have hOut : number ∉ holders (slotsOf tasks.log) := fun hHeld => hNew _ (mem_holders.mp hHeld).1
    have hSame : holders (slotsOf tasks.log ++ [SlotOp.take, .release].map (number, ·)) =
        holders (slotsOf tasks.log) := by
      rw [List.map_cons, List.append_cons, List.map_cons, List.map_nil, holders_release,
        holders_take hNew, Finset.erase_insert hOut]
    rw [hSame, h.holding]
    simp
  | sent hFree hGating =>
    simp only [List.map_cons, List.map_nil, holders_take hNew, Finset.mem_insert, h.holding,
      List.mem_append, List.mem_singleton]
    constructor
    · rintro (rfl | ⟨fire, hFire, hFireGating⟩)
      · exact ⟨_, .inr rfl, hGating⟩
      · exact ⟨fire, .inl hFire, hFireGating⟩
    · rintro ⟨fire, hFire | hFire, hFireGating⟩
      · exact .inr ⟨fire, hFire, hFireGating⟩
      · exact .inl (Prod.mk.inj hFire).1

theorem Moved.unstarted (hMoved : Moved tasks next number ops fires) (h : Kept gate tasks)
    (other : ℕ) (m' : WakeMessage) (hMem : (other, m') ∈ next.scheduled) (op : SlotOp) :
    (other, op) ∉ slotsOf next.log := by
  have hNodup := hMoved.nodup h
  obtain ⟨m, hPerm⟩ := hMoved.scheduled
  intro hLogged
  rw [hMoved.slots] at hLogged
  obtain hOld | hHere := List.mem_append.mp hLogged
  · exact h.unstarted other m' (hPerm.mem_iff.mpr (List.mem_cons_of_mem _ hMem)) op hOld
  · obtain ⟨_, -, hEntry⟩ := List.mem_map.mp hHere
    obtain ⟨rfl, -⟩ := Prod.mk.inj hEntry
    exact (List.nodup_cons.mp hNodup).1
      (List.mem_append_left _ (List.mem_map_of_mem (f := Prod.fst) hMem))

theorem Moved.kept (hMoved : Moved tasks next number ops fires) (h : Kept gate tasks)
    (hGate : next.server.riskGate = some (gateAt gate next.log))
    (hSlotted : Slotted (counter (slotsOf tasks.log) < gate.limits.maxConcurrentDispatches) ops fires) :
    Kept gate next := by
  obtain ⟨m, hPerm⟩ := hMoved.scheduled
  have hSpread : (next.scheduled.map Prod.fst ++ tasks.pending.map Prod.fst ++ [number]).Perm
      (tasks.scheduled.map Prod.fst ++ tasks.pending.map Prod.fst) :=
    (List.perm_append_singleton number _).trans ((hPerm.map Prod.fst).append_right _).symm
  have hNumber : number < tasks.created :=
    h.numbered number (List.mem_append_left _ (List.mem_map_of_mem
      (hPerm.mem_iff.mpr List.mem_cons_self)))
  constructor
  case riskGate => exact hGate
  case paired => exact hMoved.paired h hSlotted
  case admitted => exact hMoved.admitted h hSlotted
  case holding => exact hMoved.holding h hSlotted
  case unstarted => exact hMoved.unstarted h
  case distinct => exact (hMoved.numbers hSlotted).nodup (hSpread.nodup_iff.mpr h.distinct)
  case numbered =>
    intro other hMem
    rw [hMoved.created]
    exact h.numbered other (hSpread.mem_iff.mp ((hMoved.numbers hSlotted).mem hMem))
  case logged =>
    intro entry hEntry
    rw [hMoved.slots] at hEntry
    rw [hMoved.created]
    obtain hOld | hHere := List.mem_append.mp hEntry
    · exact h.logged entry hOld
    · obtain ⟨_, -, rfl⟩ := List.mem_map.mp hHere
      exact hNumber

theorem Kept.start (h : Kept gate tasks) (hIdle : gate.inFlight = 0) (index : ℕ) (r : FireReadings) :
    Kept gate (tasks.step (.start index r)) := by
  cases hTask : tasks.scheduled[index]? with
  | none =>
    simp only [step, hTask]
    exact h
  | some entry =>
    obtain ⟨number, m⟩ := entry
    have hTraced := (ExecutorServer.traced_startFire tasks.server m r).gate
    rw [h.riskGate] at hTraced
    have hMoved : Moved tasks (tasks.step (.start index r)) number
        ((tasks.server.startCalls m r).filterMap Call.slot?)
        (tasks.server.startFire m r).1.tasks := by
      simp only [step, hTask]
      refine ⟨rfl, ⟨m, perm_eraseIdx hTask⟩, rfl, ?_⟩
      rw [slotsOf_append, slotsOf_calls]
    refine hMoved.kept h ?_ (ExecutorServer.slotted_startFire tasks.server m r ?_)
    · simp only [step, hTask]
      rw [gateAt_append, gateAt_calls]
      exact hTraced
    · rintro held hHeld hFree
      obtain rfl := Option.some.inj (h.riskGate.symm.trans hHeld)
      rwa [inFlight_gateAt hIdle, gateAt_limits] at hFree

/-- What the end of a dispatch changes besides the gate: the fire is no longer pending, and a real one
releases its slot. -/
structure Finished (tasks next : FireTasks) (number : ℕ) (fire : PendingFire) : Prop where
  created : next.created = tasks.created
  scheduled : next.scheduled = tasks.scheduled
  pending : tasks.pending.Perm ((number, fire) :: next.pending)
  shorter : next.pending.Sublist tasks.pending
  slots : slotsOf next.log =
    slotsOf tasks.log ++ if fire.gatingRisk then [(number, .release)] else []

variable {fire : PendingFire}

theorem Finished.held (hFinished : Finished tasks next number fire) (h : Kept gate tasks)
    (hGating : fire.gatingRisk = true) : number ∈ holders (slotsOf tasks.log) :=
  (h.holding number).mpr ⟨fire, hFinished.pending.mem_iff.mpr List.mem_cons_self, hGating⟩

theorem Finished.paired (hFinished : Finished tasks next number fire) (h : Kept gate tasks) :
    Paired (slotsOf next.log) := by
  rw [hFinished.slots]
  split
  next hGating => exact h.paired.release (hFinished.held h hGating)
  next => simpa using h.paired

theorem Finished.admitted (hFinished : Finished tasks next number fire) (h : Kept gate tasks) :
    Admitted gate.limits.maxConcurrentDispatches (slotsOf next.log) := by
  rw [hFinished.slots]
  refine h.admitted.append ?_
  intro before task after hOps
  split at hOps
  · obtain _ | ⟨first, before⟩ := before <;> simp at hOps
  · simp at hOps

theorem Finished.holding (hFinished : Finished tasks next number fire) (h : Kept gate tasks)
    (other : ℕ) : other ∈ holders (slotsOf next.log) ↔
      ∃ fire, (other, fire) ∈ next.pending ∧ fire.gatingRisk = true := by
  have hDistinct : (number :: next.pending.map Prod.fst).Nodup :=
    (hFinished.pending.map Prod.fst).nodup_iff.mp (List.nodup_append.mp h.distinct).2.1
  rw [hFinished.slots]
  split
  next hGating =>
    simp only [holders_release, Finset.mem_erase, h.holding, hFinished.pending.mem_iff, List.mem_cons]
    constructor
    · rintro ⟨hOther, f, hHere | hMem, hFire⟩
      · exact absurd (Prod.mk.inj hHere).1 hOther
      · exact ⟨f, hMem, hFire⟩
    · rintro ⟨f, hMem, hFire⟩
      refine ⟨?_, f, .inr hMem, hFire⟩
      rintro rfl
      exact (List.nodup_cons.mp hDistinct).1 (List.mem_map_of_mem (f := Prod.fst) hMem)
  next hUngated =>
    simp only [List.append_nil, h.holding, hFinished.pending.mem_iff, List.mem_cons]
    constructor
    · rintro ⟨f, hHere | hMem, hFire⟩
      · obtain ⟨-, rfl⟩ := Prod.mk.inj hHere
        exact absurd hFire hUngated
      · exact ⟨f, hMem, hFire⟩
    · rintro ⟨f, hMem, hFire⟩
      exact ⟨f, .inr hMem, hFire⟩

theorem Finished.entries (hFinished : Finished tasks next number fire) (h : Kept gate tasks)
    {entry : ℕ × SlotOp} (hEntry : entry ∈ slotsOf next.log) :
    entry ∈ slotsOf tasks.log ∨ entry.1 = number ∧ (number, .take) ∈ slotsOf tasks.log := by
  rw [hFinished.slots] at hEntry
  obtain hOld | hHere := List.mem_append.mp hEntry
  · exact .inl hOld
  · split at hHere
    next hGating =>
      rw [List.mem_singleton.mp hHere]
      exact .inr ⟨rfl, (mem_holders.mp (hFinished.held h hGating)).1⟩
    next => cases hHere

theorem Finished.kept (hFinished : Finished tasks next number fire) (h : Kept gate tasks)
    (hGate : next.server.riskGate = some (gateAt gate next.log)) : Kept gate next := by
  have hShorter : (next.scheduled.map Prod.fst ++ next.pending.map Prod.fst).Sublist
      (tasks.scheduled.map Prod.fst ++ tasks.pending.map Prod.fst) := by
    rw [hFinished.scheduled]
    exact (hFinished.shorter.map Prod.fst).append_left _
  constructor
  case riskGate => exact hGate
  case paired => exact hFinished.paired h
  case admitted => exact hFinished.admitted h
  case holding => exact hFinished.holding h
  case unstarted =>
    intro other m hMem op hLogged
    rw [hFinished.scheduled] at hMem
    obtain hOld | ⟨rfl, hTaken⟩ := hFinished.entries h hLogged
    · exact h.unstarted other m hMem op hOld
    · exact h.unstarted _ m hMem .take hTaken
  case distinct => exact hShorter.nodup h.distinct
  case numbered =>
    intro other hMem
    rw [hFinished.created]
    exact h.numbered other (hShorter.mem hMem)
  case logged =>
    intro entry hLogged
    rw [hFinished.created]
    obtain hOld | ⟨hNumber, hTaken⟩ := hFinished.entries h hLogged
    · exact h.logged entry hOld
    · rw [hNumber]
      exact h.logged _ hTaken

theorem Kept.resume (h : Kept gate tasks) (index : ℕ) (outcome : PostOutcome) (r : FinishReadings) :
    Kept gate (tasks.step (.resume index outcome r)) := by
  cases hTask : tasks.pending[index]? with
  | none =>
    simp only [step, hTask]
    exact h
  | some entry =>
    obtain ⟨number, fire⟩ := entry
    have hFinished : Finished tasks (tasks.step (.resume index outcome r)) number fire := by
      simp only [step, hTask]
      refine ⟨rfl, rfl, perm_eraseIdx hTask, List.eraseIdx_sublist _ _, ?_⟩
      rw [slotsOf_append, slotsOf_calls, slots_finishCalls]
      split <;> rfl
    refine hFinished.kept h ?_
    simp only [step, hTask]
    rw [riskGate_finishCalls, h.riskGate, gateAt_append, gateAt_calls]
    rfl

theorem Kept.step (h : Kept gate tasks) (hIdle : gate.inFlight = 0) (event : TaskEvent) :
    Kept gate (tasks.step event) := by
  cases event with
  | create m => exact h.create m
  | start index r => exact h.start hIdle index r
  | cancelUnstarted index => exact h.drop index
  | resume index outcome r => exact h.resume index outcome r
  | reconcile openPositions snapshotAtMs => exact h.reconcile openPositions snapshotAtMs

theorem kept_start {server : ExecutorServer} (hGate : server.riskGate = some gate) :
    Kept gate { server } where
  riskGate := hGate
  paired := .nil
  admitted before task after h := by simp [slotsOf] at h
  holding number := by simp [slotsOf, mem_holders]
  unstarted _ _ h := absurd h List.not_mem_nil
  distinct := List.nodup_nil
  numbered _ h := absurd h List.not_mem_nil
  logged _ h := absurd h List.not_mem_nil

theorem kept_run {server : ExecutorServer} (hGate : server.riskGate = some gate)
    (hIdle : gate.inFlight = 0) (events : List TaskEvent) :
    Kept gate (FireTasks.run { server } events) := by
  induction events using List.reverseRecOn with
  | nil => exact kept_start hGate
  | append_singleton events event ih =>
    rw [run, List.foldl_append]
    exact ih.step hIdle event

/-- The counter at one moment, `made` before it and `left` behind it. -/
structure Exact (gate : RiskGate) (made left : List Moment) : Prop where
  held : (gateAt gate made).inFlight = (holders (slotsOf made)).card
  bounded : 0 ≤ gate.limits.maxConcurrentDispatches →
    (gateAt gate made).inFlight ≤ gate.limits.maxConcurrentDispatches
  unclipped : ∀ number rest, left = .call number .endDispatch :: rest → 1 ≤ (gateAt gate made).inFlight

theorem exact_of_kept (h : Kept gate tasks) (hIdle : gate.inFlight = 0) {made left : List Moment}
    (hLog : tasks.log = made ++ left) : Exact gate made left := by
  have hPaired : Paired (slotsOf made ++ slotsOf left) := by
    rw [← slotsOf_append, ← hLog]
    exact h.paired
  have hAdmitted : Admitted gate.limits.maxConcurrentDispatches (slotsOf made ++ slotsOf left) := by
    rw [← slotsOf_append, ← hLog]
    exact h.admitted
  constructor
  case held => rw [inFlight_gateAt hIdle, hPaired.before.counter_eq]
  case bounded =>
    intro hLimit
    rw [inFlight_gateAt hIdle]
    exact hAdmitted.before.counter_le hLimit
  case unclipped =>
    rintro number rest rfl
    have hHeld : number ∈ holders (slotsOf made) := hPaired.holds
    rw [inFlight_gateAt hIdle, hPaired.before.counter_eq]
    exact_mod_cast Finset.card_pos.mpr ⟨number, hHeld⟩

/-- What `_in_flight` counts at every moment of a run, and behind its last step. -/
structure Accounted (gate : RiskGate) (tasks : FireTasks) : Prop where
  riskGate : tasks.server.riskGate = some (gateAt gate tasks.log)
  exact : ∀ made left, tasks.log = made ++ left → Exact gate made left
  holding : ∀ number, number ∈ holders (slotsOf tasks.log) ↔
    ∃ fire, (number, fire) ∈ tasks.pending ∧ fire.gatingRisk = true
  idle : tasks.pending = [] → (gateAt gate tasks.log).inFlight = 0

theorem inFlight_accounted {server : ExecutorServer} (hGate : server.riskGate = some gate)
    (hIdle : gate.inFlight = 0) (events : List TaskEvent) :
    Accounted gate (FireTasks.run { server } events) := by
  have hKept := kept_run hGate hIdle events
  refine ⟨hKept.riskGate, fun made left hLog => exact_of_kept hKept hIdle hLog, hKept.holding, ?_⟩
  intro hNone
  have hEmpty : holders (slotsOf (FireTasks.run { server } events).log) = ∅ := by
    refine Finset.eq_empty_of_forall_notMem fun number hHeld => ?_
    obtain ⟨fire, hFire, -⟩ := (hKept.holding number).mp hHeld
    rw [hNone] at hFire
    cases hFire
  rw [inFlight_gateAt hIdle, hKept.paired.counter_eq, hEmpty]
  rfl

theorem cancelledFire_accounted : ∃ gate, demoServer.riskGate = some gate ∧
    Accounted gate (FireTasks.run { server := demoServer }
      [.create demoWake, .start 0 demoReadings, .create demoWake, .resume 0 .cancelled ⟨1000, 1000⟩]) :=
  ⟨_, rfl, inFlight_accounted rfl rfl _⟩

example : counter (slotsOf (FireTasks.run { server := demoServer }
    [.create demoWake, .start 0 demoReadings, .create demoWake]).log) = 1 := by decide +kernel

end FireTasks

end KalshiBot.Ipc

import Mathlib.Data.List.Perm.Basic
import KalshiBot.Library.Runs
import KalshiBot.Ipc.FireTasks
import KalshiBot.Risk.Groups

/-! # Exposure under concurrent fires

The position caps are checked before a dispatch and the fill is recorded after it, so
contracts in flight are on no ledger. The caps hold in every run in which no order is
admitted beside dispatches in flight on the same exposure, unless it fits beside them.
-/

namespace KalshiBot.Ipc

open PythonText RollingWindow Execution Risk

set_option autoImplicit false

inductive Exposure where
  | ticker | event | group

namespace Exposure

def label (groupFor : String → String) : Exposure → String → String
  | ticker => id
  | event => eventTickerOf
  | group => groupFor

def cap (limits : RiskLimits) : Exposure → ℚ
  | ticker => limits.maxPositionContractsPerTicker
  | event => limits.maxPositionContractsPerEvent
  | group => limits.maxPositionContractsPerCorrelationGroup

/-- A fire without a group is under no group cap. -/
def Capped : Exposure → String → Prop
  | ticker, _ | event, _ => True
  | group, name => name ≠ ""

def position (gate : RiskGate) (name : String) (nowMs : ℤ) : Exposure → ℚ
  | ticker => gate.positionForTicker name nowMs
  | event => gate.positionForEvent name nowMs
  | group => gate.positionForGroup name nowMs

end Exposure

def ReturnedFire.contracts (x : ReturnedFire) : ℚ :=
  match x.outcome with
  | .returned response => responseFillCount response
  | .raised _ | .cancelled => 0

def PendingFire.contracts (fire : PendingFire) : ℚ := fire.count

namespace Fleet

def filledOn (fleet : Fleet) (label : String → String) (name : String) : ℚ :=
  total ReturnedFire.contracts
    (fleet.returned.filter fun x => label x.fire.message.marketTicker = name)

def requestedOn (fleet : Fleet) (label : String → String) (name : String) : ℚ :=
  total PendingFire.contracts
    (fleet.pending.filter fun fire => label fire.message.marketTicker = name)

def WithinCaps (fleet : Fleet) (limits : RiskLimits) (groupFor : String → String) : Prop :=
  ∀ (e : Exposure) (name : String), e.Capped name →
    fleet.filledOn (e.label groupFor) name ≤ e.cap limits

/-- Real fires within a day of the start, every dispatch returning a response object
that fills between nothing and all of the order. -/
def InScope (startMs : ℤ) (fleet : Fleet) : FireEvent → Prop
  | .arrive m r => m.dryRun = false ∧ r.checkMs < startMs + dayMs
  | .resume index outcome r => startMs ≤ r.fillMs ∧
      ∀ fire, fleet.pending[index]? = some fire → ∃ items, outcome = .returned (.dict items) ∧
        0 ≤ responseFillCount (.dict items) ∧ responseFillCount (.dict items) ≤ fire.count

/-- The ticker keeps its group, and an order that is admitted while others are in flight
on one of its exposures fits the cap beside all that these have requested. -/
def FitsBeside (limits : RiskLimits) (groupFor : String → String) (fleet : Fleet) :
    FireEvent → Prop
  | .arrive m r => m.correlationGroup = groupFor m.marketTicker ∧
      ∀ gate wirePrice, fleet.server.riskGate = some gate →
        fleet.server.Admits m r gate wirePrice → ∀ e : Exposure,
          e.Capped (e.label groupFor m.marketTicker) →
          (∃ fire ∈ fleet.pending,
            e.label groupFor fire.message.marketTicker = e.label groupFor m.marketTicker) →
          e.position gate (e.label groupFor m.marketTicker) r.checkMs +
            fleet.requestedOn (e.label groupFor) (e.label groupFor m.marketTicker) +
            orderCount fleet.server m r.balanceDollars ≤ e.cap limits
  | .resume _ _ _ => True

/-- Every event of the run meets the condition in the state in which it happens. -/
def Throughout (condition : Fleet → FireEvent → Prop) (start : Fleet) (events : List FireEvent) :
    Prop :=
  ∀ before event after, events = before ++ event :: after → condition (start.run before) event

theorem Throughout.before {condition : Fleet → FireEvent → Prop} {start : Fleet}
    {events : List FireEvent} {event : FireEvent} (h : Throughout condition start (events ++ [event])) :
    Throughout condition start events := Runs.Throughout.before h

theorem throughout_nil (condition : Fleet → FireEvent → Prop) (start : Fleet) :
    Throughout condition start [] := Runs.throughout_nil

theorem Throughout.cons {condition : Fleet → FireEvent → Prop} {start : Fleet} {event : FireEvent}
    {events : List FireEvent} (hHead : condition start event)
    (hTail : Throughout condition (start.step event) events) :
    Throughout condition start (event :: events) := Runs.Throughout.cons hHead hTail

theorem Throughout.last {condition : Fleet → FireEvent → Prop} {start : Fleet}
    {events : List FireEvent} {event : FireEvent} (h : Throughout condition start (events ++ [event])) :
    condition (start.run events) event := Runs.Throughout.last h

end Fleet

/-- The gate's ledger, which neither checks nor attempts nor slots touch. -/
structure SameLedger (g h : RiskGate) : Prop where
  limits : h.limits = g.limits
  fills : h.fills = g.fills
  byTicker : h.reconciledPositionByTicker = g.reconciledPositionByTicker
  byGroup : h.reconciledPositionByGroup = g.reconciledPositionByGroup
  byEvent : h.reconciledPositionByEvent = g.reconciledPositionByEvent
  atMs : h.reconciledAtMs = g.reconciledAtMs

theorem SameLedger.endDispatch {g h : RiskGate} (hSame : SameLedger g h) :
    SameLedger g h.endDispatch :=
  ⟨hSame.limits, hSame.fills, hSame.byTicker, hSame.byGroup, hSame.byEvent, hSame.atMs⟩

theorem sameLedger_check {g : RiskGate} {nowMs : ℤ} (c : Candidate)
    (h : ∀ f ∈ g.fills, nowMs - dayMs ≤ f.recordedAtMs) :
    SameLedger g (g.check c nowMs).2 ∧
      (g.check c nowMs).2.correlationGroupByTicker = g.correlationGroupByTicker := by
  obtain hSame | hPruned := g.check_gate c nowMs
  · rw [hSame]
    exact ⟨⟨rfl, rfl, rfl, rfl, rfl, rfl⟩, rfl⟩
  · rw [hPruned]
    exact ⟨⟨rfl, pruneBefore_eq_self _ h, rfl, rfl, rfl, rfl⟩, rfl⟩

/-- What the gate and the fleet agree on while nothing is reconciled. -/
structure Tracks (startMs : ℤ) (limits : RiskLimits) (groupFor : String → String) (fleet : Fleet)
    (gate : RiskGate) : Prop where
  riskGate : fleet.server.riskGate = some gate
  limits_eq : gate.limits = limits
  byTicker : gate.reconciledPositionByTicker = ∅
  byGroup : gate.reconciledPositionByGroup = ∅
  byEvent : gate.reconciledPositionByEvent = ∅
  atMs : gate.reconciledAtMs ≤ startMs
  recent : ∀ f ∈ gate.fills, startMs ≤ f.recordedAtMs
  grouped : ∀ f ∈ gate.fills, f.correlationGroup = groupFor f.ticker
  filled : ∀ on : String → Bool, total Fill.fillCount (gate.fills.filter fun f => on f.ticker) =
    total ReturnedFire.contracts (fleet.returned.filter fun x => on x.fire.message.marketTicker)
  learned : Learned groupFor (fun ticker => ∃ fire ∈ fleet.pending, fire.message.marketTicker = ticker)
    gate.correlationGroupByTicker
  gating : ∀ fire ∈ fleet.pending, fire.gatingRisk = true ∧ 0 ≤ fire.count
  room : ∀ (e : Exposure) (name : String), e.Capped name →
    fleet.filledOn (e.label groupFor) name + fleet.requestedOn (e.label groupFor) name ≤ e.cap limits

namespace Tracks

variable {startMs : ℤ} {limits : RiskLimits} {groupFor : String → String} {fleet : Fleet}
  {gate : RiskGate}

theorem unconfirmed_eq (h : Tracks startMs limits groupFor fleet gate) {nowMs : ℤ}
    (hNow : nowMs < startMs + dayMs) (on : Fill → Bool) :
    gate.unconfirmed on nowMs = total Fill.fillCount (gate.fills.filter on) := by
  apply congrArg (total Fill.fillCount)
  apply List.filter_congr
  intro f hf
  have hRecent := h.recent f hf
  have hAt := h.atMs
  have hWindow : max gate.reconciledAtMs (nowMs - dayMs) ≤ f.recordedAtMs := by omega
  simp [hWindow]

theorem position_eq (h : Tracks startMs limits groupFor fleet gate) {nowMs : ℤ}
    (hNow : nowMs < startMs + dayMs) (e : Exposure) (name : String) :
    e.position gate name nowMs = fleet.filledOn (e.label groupFor) name := by
  cases e with
  | ticker =>
    rw [Exposure.position, RiskGate.positionForTicker, h.byTicker, h.unconfirmed_eq hNow]
    exact (zero_add _).trans (h.filled fun t => t = name)
  | event =>
    rw [Exposure.position, RiskGate.positionForEvent, h.byEvent, h.unconfirmed_eq hNow]
    exact (zero_add _).trans (h.filled fun t => eventTickerOf t = name)
  | group =>
    rw [Exposure.position, RiskGate.positionForGroup, h.byGroup, h.unconfirmed_eq hNow]
    refine (zero_add _).trans (Eq.trans ?_ (h.filled fun t => groupFor t = name))
    apply congrArg (total Fill.fillCount)
    apply List.filter_congr
    intro f hf
    rw [h.grouped f hf]

/-- The ledger as it stands, under other attempts, slots and learned groups. -/
theorem of_sameLedger (h : Tracks startMs limits groupFor fleet gate) {gate' : RiskGate}
    (hSame : SameLedger gate gate') {server : ExecutorServer}
    (hGate : server.riskGate = some gate') {started : List PendingFire}
    (hGating : ∀ fire ∈ started, fire.gatingRisk = true ∧ 0 ≤ fire.count)
    (hLearned : Learned groupFor
      (fun ticker => ∃ fire ∈ fleet.pending ++ started, fire.message.marketTicker = ticker)
      gate'.correlationGroupByTicker)
    (hRoom : ∀ (e : Exposure) (name : String), e.Capped name →
      fleet.filledOn (e.label groupFor) name + (fleet.requestedOn (e.label groupFor) name +
        total PendingFire.contracts
          (started.filter fun fire => e.label groupFor fire.message.marketTicker = name)) ≤
        e.cap limits) :
    Tracks startMs limits groupFor { fleet with server, pending := fleet.pending ++ started }
      gate' where
  riskGate := hGate
  limits_eq := hSame.limits.trans h.limits_eq
  byTicker := hSame.byTicker.trans h.byTicker
  byGroup := hSame.byGroup.trans h.byGroup
  byEvent := hSame.byEvent.trans h.byEvent
  atMs := hSame.atMs.le.trans h.atMs
  recent f hf := h.recent f (hSame.fills ▸ hf)
  grouped f hf := h.grouped f (hSame.fills ▸ hf)
  filled on := by rw [hSame.fills]; exact h.filled on
  learned := hLearned
  gating fire hFire := (List.mem_append.mp hFire).elim (h.gating fire) (hGating fire)
  room e name hCapped := by
    rw [Fleet.requestedOn, List.filter_append, total_append]
    exact hRoom e name hCapped

end Tracks

theorem fits_alone {server : ExecutorServer} {m : WakeMessage} {r : FireReadings} {gate : RiskGate}
    {wirePrice : ℚ} {groupFor : String → String} (h : server.Admits m r gate wirePrice)
    (hGroup : m.correlationGroup = groupFor m.marketTicker) (e : Exposure)
    (hCapped : e.Capped (e.label groupFor m.marketTicker)) :
    e.position gate (e.label groupFor m.marketTicker) r.checkMs +
      orderCount server m r.balanceDollars ≤ e.cap gate.limits := by
  have hAdmits := (gate.check_eq_none_iff _ _).mp h.allowed
  cases e with
  | ticker => exact hAdmits.tickerPosition
  | event => exact hAdmits.eventPosition
  | group =>
    have hPosition := hAdmits.groupPosition
    rw [ExecutorServer.orderOf, candidateOf, hGroup] at hPosition
    exact hPosition hCapped

theorem sameLedger_gateAfter (server : ExecutorServer) (m : WakeMessage) {r : FireReadings}
    {gate : RiskGate} (wirePrice : ℚ) (h : ∀ f ∈ gate.fills, r.checkMs - dayMs ≤ f.recordedAtMs) :
    SameLedger gate (server.gateAfter m r gate wirePrice) ∧
      (server.gateAfter m r gate wirePrice).correlationGroupByTicker =
        RiskGate.learnGroup gate.correlationGroupByTicker m.marketTicker m.correlationGroup := by
  obtain ⟨⟨hLimits, hFills, hTicker, hGroup, hEvent, hAt⟩, hKnown⟩ :=
    sameLedger_check (server.orderOf m r wirePrice) h
  refine ⟨⟨hLimits, hFills, hTicker, hGroup, hEvent, hAt⟩, ?_⟩
  exact congrArg (RiskGate.learnGroup · m.marketTicker m.correlationGroup) hKnown

theorem finishFire_riskGate {server : ExecutorServer} {gate : RiskGate} {fire : PendingFire}
    (hGate : server.riskGate = some gate) (hGating : fire.gatingRisk = true)
    (items : List (String × PyValue)) (r : FinishReadings) :
    (finishFire server fire (.returned (.dict items)) r).2.riskGate =
      some (gate.recordFill fire.message.marketTicker (responseFillCount (.dict items))
        r.fillMs).endDispatch := by
  simp only [finishFire, closeDispatch, resolvedStatus, PyValue.get?, Option.map_some, hGating,
    if_true, ExecutorServer.withGate, hGate]

namespace Tracks

variable {startMs : ℤ} {limits : RiskLimits} {groupFor : String → String} {fleet : Fleet}
  {gate : RiskGate}

theorem requestedOn_eq_zero {label : String → String} {name : String}
    (h : ¬∃ fire ∈ fleet.pending, label fire.message.marketTicker = name) :
    fleet.requestedOn label name = 0 := by
  have hNone : (fleet.pending.filter fun fire => label fire.message.marketTicker = name) = [] := by
    rw [List.filter_eq_nil_iff]
    intro fire hFire hOn
    exact h ⟨fire, hFire, of_decide_eq_true hOn⟩
  rw [Fleet.requestedOn, hNone, total_nil]

/-- Nothing is started, whatever the gate has learned. -/
theorem of_unstarted (h : Tracks startMs limits groupFor fleet gate) {gate' : RiskGate}
    (hSame : SameLedger gate gate') {server : ExecutorServer}
    (hGate : server.riskGate = some gate')
    (hLearned : Learned groupFor
      (fun ticker => ∃ fire ∈ fleet.pending, fire.message.marketTicker = ticker)
      gate'.correlationGroupByTicker) :
    Tracks startMs limits groupFor { fleet with server, pending := fleet.pending ++ [] } gate' := by
  refine h.of_sameLedger hSame hGate (fun _ hFire => absurd hFire List.not_mem_nil) ?_ ?_
  · rwa [List.append_nil]
  · intro e name hCapped
    rw [List.filter_nil, total_nil, add_zero]
    exact h.room e name hCapped

/-- The gate keeps room for the order by itself, the condition beside others in flight. -/
theorem room_beside_sent (h : Tracks startMs limits groupFor fleet gate) {m : WakeMessage}
    {r : FireReadings} (hDay : r.checkMs < startMs + dayMs)
    (hFits : fleet.FitsBeside limits groupFor (.arrive m r)) {wirePrice : ℚ}
    (hAdmits : fleet.server.Admits m r gate wirePrice) (dispatch : Dispatch) (e : Exposure)
    (name : String) (hCapped : e.Capped name) :
    fleet.filledOn (e.label groupFor) name + (fleet.requestedOn (e.label groupFor) name +
      total PendingFire.contracts
        (([⟨m, orderCount fleet.server m r.balanceDollars, wirePrice, true, dispatch⟩] :
          List PendingFire).filter fun fire => e.label groupFor fire.message.marketTicker = name)) ≤
        e.cap limits := by
  obtain ⟨hGroup, hBeside⟩ := hFits
  rw [List.filter_singleton, Bool.cond_decide]
  split
  · next hName =>
    subst hName
    rw [total_singleton, ← add_assoc, ← h.position_eq hDay e]
    by_cases hOthers : ∃ fire ∈ fleet.pending,
        e.label groupFor fire.message.marketTicker = e.label groupFor m.marketTicker
    · exact hBeside gate wirePrice h.riskGate hAdmits e hCapped hOthers
    · rw [requestedOn_eq_zero hOthers, add_zero, ← h.limits_eq]
      exact fits_alone hAdmits hGroup e hCapped
  · rw [total_nil, add_zero]
    exact h.room e name hCapped

theorem arrive (h : Tracks startMs limits groupFor fleet gate) {m : WakeMessage} {r : FireReadings}
    (hScope : fleet.InScope startMs (.arrive m r))
    (hFits : fleet.FitsBeside limits groupFor (.arrive m r)) :
    ∃ gate', Tracks startMs limits groupFor (fleet.step (.arrive m r)) gate' := by
  obtain ⟨hReal, hDay⟩ := hScope
  have hGroup : m.correlationGroup = groupFor m.marketTicker := hFits.1
  have hRecent : ∀ f ∈ gate.fills, r.checkMs - dayMs ≤ f.recordedAtMs := by
    intro f hf
    have := h.recent f hf
    omega
  have hStarts := ExecutorServer.starts_of_startFire (r := r) h.riskGate hReal
  rw [Fleet.step]
  generalize fleet.server.startFire m r = started at hStarts ⊢
  obtain ⟨start, jobs, server⟩ := started
  simp only at hStarts ⊢
  generalize hAfter : server.riskGate = after at hStarts
  generalize start.tasks = tasks at hStarts ⊢
  cases hStarts with
  | unseen => exact ⟨gate, h.of_unstarted ⟨rfl, rfl, rfl, rfl, rfl, rfl⟩ hAfter h.learned⟩
  | refused c =>
    obtain ⟨hSame, hKnown⟩ := sameLedger_check c hRecent
    refine ⟨_, h.of_unstarted hSame hAfter ?_⟩
    rw [hKnown]
    exact h.learned
  | failed wirePrice hAdmits =>
    obtain ⟨hSame, hKnown⟩ := sameLedger_gateAfter fleet.server m wirePrice hRecent
    refine ⟨_, h.of_unstarted hSame.endDispatch hAfter ?_⟩
    have hLearned := h.learned.learnGroup m.marketTicker
    rw [← hGroup, ← hKnown] at hLearned
    exact hLearned.mono fun _ => .inl
  | sent wirePrice dispatch hAdmits =>
    obtain ⟨hSame, hKnown⟩ := sameLedger_gateAfter fleet.server m wirePrice hRecent
    refine ⟨_, h.of_sameLedger hSame hAfter ?_ ?_ ?_⟩
    · intro fire hFire
      rw [List.mem_singleton.mp hFire]
      exact ⟨rfl, zero_le_one.trans hAdmits.counted⟩
    · have hLearned := h.learned.learnGroup m.marketTicker
      rw [← hGroup, ← hKnown] at hLearned
      refine hLearned.mono ?_
      rintro ticker ⟨fire, hFire, rfl⟩
      obtain hFire | hFire := List.mem_append.mp hFire
      · exact .inl ⟨fire, hFire, rfl⟩
      · rw [List.mem_singleton.mp hFire]
        exact .inr rfl
    · exact h.room_beside_sent hDay hFits hAdmits dispatch

theorem resume (h : Tracks startMs limits groupFor fleet gate) {index : ℕ} {outcome : PostOutcome}
    {r : FinishReadings} (hScope : fleet.InScope startMs (.resume index outcome r)) :
    ∃ gate', Tracks startMs limits groupFor (fleet.step (.resume index outcome r)) gate' := by
  obtain ⟨hStart, hResponse⟩ := hScope
  rw [Fleet.step]
  cases hFire : fleet.pending[index]? with
  | none => exact ⟨gate, h⟩
  | some fire =>
    obtain ⟨items, rfl, hNonneg, hCount⟩ := hResponse fire hFire
    have hMem : fire ∈ fleet.pending := List.mem_of_getElem? hFire
    have hPerm := perm_eraseIdx hFire
    have hTicker : gate.groupOf fire.message.marketTicker = groupFor fire.message.marketTicker :=
      h.learned.groupOf_eq ⟨fire, hMem, rfl⟩
    have hGate := finishFire_riskGate h.riskGate (h.gating fire hMem).1 items r
    rw [RiskGate.recordFill_eq] at hGate
    refine ⟨_, hGate, h.limits_eq, h.byTicker, h.byGroup, h.byEvent, h.atMs, ?_, ?_, ?_, ?_, ?_, ?_⟩
    · intro f hf
      obtain hf | ⟨hTime, -, -⟩ := RiskGate.mem_recordFill hf
      · exact h.recent f hf
      · rw [hTime]
        exact hStart
    · intro f hf
      obtain hf | ⟨-, hSame, hGroup⟩ := RiskGate.mem_recordFill hf
      · exact h.grouped f hf
      · rw [hGroup, hSame]
        exact hTicker
    · intro on
      refine (gate.total_recordFill fire.message.marketTicker r.fillMs hNonneg
        (p := on fire.message.marketTicker) fun pos => by simp).trans ?_
      rw [h.filled on, List.filter_append, total_append, List.filter_singleton]
      cases on fire.message.marketTicker <;> simp [ReturnedFire.contracts]
    · refine h.learned.mono ?_
      rintro ticker ⟨other, hOther, rfl⟩
      exact ⟨other, List.mem_of_mem_eraseIdx hOther, rfl⟩
    · exact fun other hOther => h.gating other (List.mem_of_mem_eraseIdx hOther)
    · intro e name hCapped
      have hRoom := h.room e name hCapped
      rw [Fleet.requestedOn, total_perm _ (hPerm.filter _), List.filter_cons] at hRoom
      rw [Fleet.filledOn, List.filter_append, total_append, List.filter_singleton, Bool.cond_decide]
      simp only [decide_eq_true_eq] at hRoom
      refine le_trans ?_ hRoom
      rw [add_assoc]
      refine add_le_add_right ?_ _
      split
      · rw [total_singleton, total_cons]
        exact add_le_add_left hCount _
      · rw [total_nil, zero_add]
        exact le_rfl

end Tracks

/-- No fire is under way, and the gate holds no fills and no reconciled positions. -/
structure Opens (startMs : ℤ) (start : Fleet) (gate : RiskGate) : Prop where
  riskGate : start.server.riskGate = some gate
  pending : start.pending = []
  returned : start.returned = []
  fills : gate.fills = []
  byTicker : gate.reconciledPositionByTicker = ∅
  byGroup : gate.reconciledPositionByGroup = ∅
  byEvent : gate.reconciledPositionByEvent = ∅
  atMs : gate.reconciledAtMs ≤ startMs

variable {startMs : ℤ} {groupFor : String → String} {start : Fleet} {gate : RiskGate}

theorem Opens.tracks (h : Opens startMs start gate)
    (hKnown : ∀ ticker group, gate.correlationGroupByTicker.lookup ticker = some group →
      group = groupFor ticker)
    (hCaps : ∀ e : Exposure, 0 ≤ e.cap gate.limits) :
    Tracks startMs gate.limits groupFor start gate := by
  refine ⟨h.riskGate, rfl, h.byTicker, h.byGroup, h.byEvent, h.atMs, ?_, ?_, ?_, ⟨hKnown, ?_⟩, ?_, ?_⟩
  · intro f hf
    rw [h.fills] at hf
    cases hf
  · intro f hf
    rw [h.fills] at hf
    cases hf
  · intro on
    rw [h.fills, h.returned]
    rfl
  · rintro ticker ⟨fire, hFire, -⟩
    rw [h.pending] at hFire
    cases hFire
  · intro fire hFire
    rw [h.pending] at hFire
    cases hFire
  · intro e name _
    rw [Fleet.filledOn, Fleet.requestedOn, h.returned, h.pending]
    rw [List.filter_nil, List.filter_nil, total_nil, total_nil, add_zero]
    exact hCaps e

theorem tracks_run (h : Opens startMs start gate)
    (hKnown : ∀ ticker group, gate.correlationGroupByTicker.lookup ticker = some group →
      group = groupFor ticker)
    (hCaps : ∀ e : Exposure, 0 ≤ e.cap gate.limits) {events : List FireEvent}
    (hScope : Fleet.Throughout (Fleet.InScope startMs) start events)
    (hFits : Fleet.Throughout (Fleet.FitsBeside gate.limits groupFor) start events) :
    ∃ gate', Tracks startMs gate.limits groupFor (start.run events) gate' := by
  induction events using List.reverseRecOn with
  | nil => exact ⟨gate, h.tracks hKnown hCaps⟩
  | append_singleton events event ih =>
    obtain ⟨before, hBefore⟩ := ih hScope.before hFits.before
    rw [Fleet.run_snoc]
    cases event with
    | arrive m r => exact hBefore.arrive hScope.last hFits.last
    | resume index outcome r => exact hBefore.resume hScope.last

theorem filled_within_caps (h : Opens startMs start gate)
    (hKnown : ∀ ticker group, gate.correlationGroupByTicker.lookup ticker = some group →
      group = groupFor ticker)
    (hCaps : ∀ e : Exposure, 0 ≤ e.cap gate.limits) {events : List FireEvent}
    (hScope : Fleet.Throughout (Fleet.InScope startMs) start events)
    (hFits : Fleet.Throughout (Fleet.FitsBeside gate.limits groupFor) start events) :
    (start.run events).WithinCaps gate.limits groupFor := by
  obtain ⟨gate', hTracks⟩ := tracks_run h hKnown hCaps hScope hFits
  intro e name hCapped
  have hRequested : 0 ≤ (start.run events).requestedOn (e.label groupFor) name := by
    apply total_nonneg
    intro fire hFire
    exact Int.cast_nonneg (hTracks.gating fire (List.mem_of_mem_filter hFire)).2
  exact (le_add_of_nonneg_right hRequested).trans (hTracks.room e name hCapped)

def fullResponse (fire : PendingFire) : PostOutcome :=
  .returned (.dict [("fill_count", .int fire.count)])

theorem contracts_fullResponse (fire : PendingFire) :
    ReturnedFire.contracts ⟨fire, fullResponse fire⟩ = fire.contracts := by
  simp only [ReturnedFire.contracts, fullResponse, responseFillCount, PyValue.get?,
    List.lookup_cons_self, Option.getD_some, PyValue.truthy, PyValue.toFloat, PendingFire.contracts]
  by_cases hZero : fire.count = 0 <;> simp [hZero]

theorem returned_of_full_responses (pending : List PendingFire) (f : FinishReadings) (fleet : Fleet)
    (h : fleet.pending = pending) :
    (fleet.run (pending.map fun fire => .resume 0 (fullResponse fire) f)).returned =
      fleet.returned ++ pending.map fun fire => ⟨fire, fullResponse fire⟩ := by
  induction pending generalizing fleet with
  | nil => exact (List.append_nil _).symm
  | cons fire pending ih =>
    have hStep : fleet.step (.resume 0 (fullResponse fire) f) =
        { server := (finishFire fleet.server fire (fullResponse fire) f).2
          pending
          returned := fleet.returned ++ [⟨fire, fullResponse fire⟩] } := by
      rw [Fleet.step, h]
      rfl
    rw [List.map_cons, Fleet.run, List.foldl_cons, hStep]
    refine (ih _ rfl).trans ?_
    rw [List.append_assoc]
    rfl

/-- The condition cannot be done without: an order sent although it does not fit beside
what is in flight passes the cap as soon as everything in flight fills. -/
theorem cap_passed_of_unfit {limits : RiskLimits} {fleet : Fleet} (f : FinishReadings)
    (e : Exposure) (name : String)
    (hOver : e.cap limits < fleet.filledOn (e.label groupFor) name +
      fleet.requestedOn (e.label groupFor) name) (hCapped : e.Capped name) :
    ¬(fleet.run (fleet.pending.map fun fire => .resume 0 (fullResponse fire) f)).WithinCaps limits
      groupFor := by
  intro hWithin
  have hFilled := hWithin e name hCapped
  rw [Fleet.filledOn, returned_of_full_responses _ f fleet rfl, List.filter_append, total_append,
    List.filter_map] at hFilled
  have hRequested : total ReturnedFire.contracts ((fleet.pending.filter
      ((fun x => decide (e.label groupFor x.fire.message.marketTicker = name)) ∘
        fun fire => (⟨fire, fullResponse fire⟩ : ReturnedFire))).map
        fun fire => ⟨fire, fullResponse fire⟩) = fleet.requestedOn (e.label groupFor) name := by
    rw [total, List.map_map, Fleet.requestedOn, total]
    congr 1
    exact List.map_congr_left fun fire _ => contracts_fullResponse fire
  rw [hRequested] at hFilled
  exact absurd hOver (not_lt.mpr hFilled)

def ladderServer : ExecutorServer := { demoServer with fixedOrderContractCount := 5 }

def wakeOn (ticker : String) : WakeMessage :=
  { correlationId := "corr-1", marketTicker := ticker, direction := "yes", kalshiPrice := 1 / 2,
    edge := 0, wirePriceYesDollars := 1 / 2, exchangeIndex := 0 }

def fiveFilled : PostOutcome := .returned (.dict [("fill_count", .str "5.00")])

theorem opens_ladder : Opens 0 { server := ladderServer } { limits := { allowedExchangeIndexes := {0} } } :=
  ⟨rfl, rfl, rfl, rfl, rfl, rfl, rfl, le_rfl⟩

theorem inScope_fiveFilled {fleet : Fleet}
    (h : fleet.pending[0]?.map PendingFire.count = some 5) :
    fleet.InScope 0 (.resume 0 fiveFilled ⟨2000, 2000⟩) := by
  refine ⟨by decide, fun fire hFire => ⟨_, rfl, by decide +kernel, ?_⟩⟩
  rw [hFire] at h
  rw [Option.some.inj h]
  decide +kernel

/-! Two strikes of one event, both in flight at once, and small enough to fit together. -/

def pairServer : ExecutorServer := { demoServer with fixedOrderContractCount := 2 }

def twoFilled : PostOutcome := .returned (.dict [("fill_count", .str "2.00")])

theorem opens_pair : Opens 0 { server := pairServer } { limits := { allowedExchangeIndexes := {0} } } :=
  ⟨rfl, rfl, rfl, rfl, rfl, rfl, rfl, le_rfl⟩

theorem inScope_twoFilled {fleet : Fleet}
    (h : fleet.pending[0]?.map PendingFire.count = some 2) :
    fleet.InScope 0 (.resume 0 twoFilled ⟨2000, 2000⟩) := by
  refine ⟨by decide, fun fire hFire => ⟨_, rfl, by decide +kernel, ?_⟩⟩
  rw [hFire] at h
  rw [Option.some.inj h]
  decide +kernel

def besideFirst : Fleet :=
  Fleet.step { server := pairServer } (.arrive (wakeOn "KX-A-1") demoReadings)

theorem fitsBeside_pair :
    besideFirst.FitsBeside { allowedExchangeIndexes := {0} } (fun _ => "")
      (.arrive (wakeOn "KX-A-2") demoReadings) := by
  refine ⟨rfl, ?_⟩
  intro gate wirePrice hGate hAdmits e hCapped hOthers
  cases e with
  | ticker =>
    have hTickers : besideFirst.pending.map (·.message.marketTicker) = ["KX-A-1"] := by
      decide +kernel
    obtain ⟨fire, hFire, hSame⟩ := hOthers
    have hTicker := List.mem_map_of_mem (f := (·.message.marketTicker)) hFire
    rw [hTickers, List.mem_singleton] at hTicker
    exact absurd (hTicker.symm.trans hSame) (by decide)
  | event =>
    -- Nothing is filled yet: two requested, two more, and a cap of six.
    have hFits : besideFirst.server.riskGate.all (fun g =>
        Exposure.event.position g "KX-A" demoReadings.checkMs +
          besideFirst.requestedOn eventTickerOf "KX-A" +
          orderCount besideFirst.server (wakeOn "KX-A-2") demoReadings.balanceDollars ≤ 6) := by
      decide +kernel
    rw [hGate] at hFits
    exact of_decide_eq_true hFits
  | group => exact absurd rfl hCapped

theorem filled_within_caps_pair :
    (Fleet.run { server := pairServer } [.arrive (wakeOn "KX-A-1") demoReadings,
      .arrive (wakeOn "KX-A-2") demoReadings, .resume 0 twoFilled ⟨2000, 2000⟩,
      .resume 0 twoFilled ⟨2000, 2000⟩]).WithinCaps { allowedExchangeIndexes := {0} }
        fun _ => "" := by
  refine filled_within_caps opens_pair nofun ?_ ?_ ?_
  · rintro (_ | _ | _) <;> decide +kernel
  · refine .cons ⟨rfl, by decide⟩ (.cons ⟨rfl, by decide⟩ (.cons (inScope_twoFilled ?_)
      (.cons (inScope_twoFilled ?_) (Fleet.throughout_nil _ _)))) <;> decide +kernel
  · refine .cons ⟨rfl, ?_⟩ (.cons fitsBeside_pair
      (.cons trivial (.cons trivial (Fleet.throughout_nil _ _))))
    rintro gate wirePrice - - e - ⟨fire, hFire, -⟩
    cases hFire

/-- Two strikes of one event, both sent before either is answered. -/
theorem ladder_passes_event_cap :
    Opens 0 { server := ladderServer } { limits := { allowedExchangeIndexes := {0} } } ∧
      Fleet.Throughout (Fleet.InScope 0) { server := ladderServer }
        [.arrive (wakeOn "KX-A-1") demoReadings, .arrive (wakeOn "KX-A-2") demoReadings,
          .resume 0 fiveFilled ⟨2000, 2000⟩, .resume 0 fiveFilled ⟨2000, 2000⟩] ∧
      ¬(Fleet.run { server := ladderServer }
        [.arrive (wakeOn "KX-A-1") demoReadings, .arrive (wakeOn "KX-A-2") demoReadings,
          .resume 0 fiveFilled ⟨2000, 2000⟩, .resume 0 fiveFilled ⟨2000, 2000⟩]).WithinCaps
            { allowedExchangeIndexes := {0} } fun _ => "" := by
  refine ⟨opens_ladder, ?_, ?_⟩
  · refine .cons ⟨rfl, by decide⟩ (.cons ⟨rfl, by decide⟩ (.cons (inScope_fiveFilled ?_)
      (.cons (inScope_fiveFilled ?_) (Fleet.throughout_nil _ _)))) <;> decide +kernel
  · intro h
    have hEvent := h .event "KX-A" trivial
    revert hEvent
    decide +kernel

end KalshiBot.Ipc

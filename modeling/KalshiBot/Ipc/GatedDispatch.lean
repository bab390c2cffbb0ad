import KalshiBot.Ipc.FireTasks
import KalshiBot.Risk.Calls

/-! # No order past the gates

The calls a fire makes on the switch, the gate, the order guard and the client, in their
order, and the log of a run in which any number of fires interleave. Each request in the
log stands right behind the calls that let its order pass.
-/

namespace KalshiBot.Ipc

open PythonText Execution Risk KalshiBot.Runtime

set_option autoImplicit false

inductive Call where
  | isEngaged (answer : Bool)
  | check (c : Candidate) (nowMs : ℤ) (verdict : Option Rejection)
  | recordAttempt (a : WireAttempt)
  | beginDispatch
  | assertOrdersPermitted (answer : Bool)
  | post (dispatch : Dispatch)
  | recordFill (ticker : String) (fillCount : ℚ) (nowMs : ℤ)
  | endDispatch

def Call.applyTo (gate : RiskGate) : Call → RiskGate
  | check c nowMs _ => (gate.check c nowMs).2
  | recordAttempt a =>
    gate.recordAttempt a.ticker a.direction a.count a.priceDollars a.nowMs a.correlationGroup
  | beginDispatch => gate.beginDispatch
  | recordFill ticker fillCount nowMs => gate.recordFill ticker fillCount nowMs
  | endDispatch => gate.endDispatch
  | isEngaged _ | assertOrdersPermitted _ | post _ => gate

/-- The request and the pending row are for this order; the body has no field for the group. -/
structure Carries (c : Candidate) (d : Dispatch) : Prop where
  ticker : d.request.ticker = c.ticker
  direction : (c.direction = "yes" ∧ d.request.side = .bid) ∨ (c.direction = "no" ∧ d.request.side = .ask)
  exchangeIndex : d.request.exchangeIndex = c.exchangeIndex
  count : d.request.count = toString c.count ++ ".00"
  price : d.request.price = formatFixed 4 c.priceDollars
  correlationGroup : d.row.correlationGroup.getD "" = c.correlationGroup

def attemptOf (m : WakeMessage) (count : ℤ) (wirePrice : ℚ) (r : FireReadings) : WireAttempt :=
  ⟨m.marketTicker, m.direction, count, wirePrice, r.recordMs, m.correlationGroup⟩

namespace ExecutorServer

def sendCalls (server : ExecutorServer) (m : WakeMessage) (count : ℤ) (wirePrice : ℚ)
    (r : FireReadings) : List Call :=
  let gatingRisk := server.riskGate.isSome && !m.dryRun
  let begun := if gatingRisk then [Call.beginDispatch] else []
  let ended := if gatingRisk then [Call.endDispatch] else []
  match buildTemplate m.marketTicker m.direction with
  | none => begun ++ ended
  | some template =>
    let call : DispatchCall :=
      { template, count
        priceDollars := formatFixed 4 wirePrice
        timeInForce := server.orderTimeInForce
        selfTradePreventionType := server.orderSelfTradePreventionType
        exchangeIndex := m.exchangeIndex
        correlationId := m.correlationId
        correlationGroup := m.correlationGroup
        dryRun := m.dryRun }
    match openDispatch call r.dispatch with
    | none => begun ++ [.assertOrdersPermitted false] ++ ended
    | some (dispatch, _) => begun ++ [.assertOrdersPermitted true, .post dispatch]

def gateCalls (server : ExecutorServer) (m : WakeMessage) (count : ℤ) (wirePrice : ℚ)
    (r : FireReadings) : List Call :=
  match server.riskGate with
  | none => server.sendCalls m count wirePrice r
  | some gate =>
    let verdict := (gate.check (candidateOf m count wirePrice) r.checkMs).1
    .check (candidateOf m count wirePrice) r.checkMs verdict ::
      match verdict with
      | some _ => []
      | none => .recordAttempt (attemptOf m count wirePrice r) :: server.sendCalls m count wirePrice r

def guardCalls (server : ExecutorServer) (m : WakeMessage) (count : ℤ) (wirePrice : ℚ)
    (r : FireReadings) : List Call :=
  match server.killSwitch with
  | none => server.gateCalls m count wirePrice r
  | some switch =>
    let engaged := (switch.isEngaged r.switchExists r.switchNs).1
    .isEngaged engaged :: if engaged then [] else server.gateCalls m count wirePrice r

def startCalls (server : ExecutorServer) (m : WakeMessage) (r : FireReadings) : List Call :=
  if m.dryRun then
    match snapToGrid m.wirePriceYesDollars m.priceRanges with
    | none => []
    | some wirePrice => server.sendCalls m server.fixedOrderContractCount wirePrice r
  else if ¬(0 < m.wirePriceYesDollars ∧ m.wirePriceYesDollars < 1) then []
  else
    match snapToGrid m.wirePriceYesDollars m.priceRanges with
    | none => []
    | some wirePrice =>
      let count := orderCount server m r.balanceDollars
      if count < 1 then [] else server.guardCalls m count wirePrice r

end ExecutorServer

def finishCalls (fire : PendingFire) (outcome : PostOutcome) (r : FinishReadings) : List Call :=
  if fire.gatingRisk then
    match (closeDispatch fire.dispatch outcome r.acknowledgedMs).1 with
    | some response =>
      [.recordFill fire.message.marketTicker (responseFillCount response) r.fillMs, .endDispatch]
    | none => [.endDispatch]
  else []

namespace ExecutorServer

variable {server : ExecutorServer} {m : WakeMessage} {r : FireReadings}

/-- The calls are those that have led to the gate and the dispatch of a fire's start. -/
structure Traced (server : ExecutorServer) (handled : Handled) (calls : List Call) : Prop where
  gate : handled.2.2.riskGate = server.riskGate.map fun gate => calls.foldl Call.applyTo gate
  posts : ∀ d, .post d ∈ calls ↔ ∃ fire, handled.1 = .awaiting fire ∧ fire.dispatch = d

theorem traced_nothing {handled : Handled} (hStart : handled.1 = .finished ∨ handled.1 = .raised)
    (hGate : handled.2.2.riskGate = server.riskGate) : Traced server handled [] where
  gate := by rw [hGate]; exact Option.map_id'.symm
  posts d := by obtain hStart | hStart := hStart <;> simp [hStart]

theorem traced_sendFire (count : ℤ) (wirePrice : ℚ) :
    Traced server (server.sendFire m count wirePrice r) (server.sendCalls m count wirePrice r) := by
  unfold sendFire sendCalls withGate
  cases hTemplate : buildTemplate m.marketTicker m.direction with
  | none =>
    by_cases hGating : (server.riskGate.isSome && !m.dryRun) = true
    · simp only [hGating, if_true]
      exact ⟨by simp [Call.applyTo, Function.comp_def], by simp⟩
    · simp only [hGating, Bool.false_eq_true, if_false]
      exact ⟨by simp, by simp⟩
  | some template =>
    by_cases hGating : (server.riskGate.isSome && !m.dryRun) = true
    · simp only [hGating, if_true]
      generalize openDispatch _ r.dispatch = opened
      obtain _ | ⟨dispatch, jobs⟩ := opened
      · exact ⟨by simp [Call.applyTo, Function.comp_def], by simp⟩
      · exact ⟨by simp [Call.applyTo], fun d => by simp [eq_comm]⟩
    · simp only [hGating, Bool.false_eq_true, if_false]
      generalize openDispatch _ r.dispatch = opened
      obtain _ | ⟨dispatch, jobs⟩ := opened
      · exact ⟨by simp [Call.applyTo], by simp⟩
      · exact ⟨by simp [Call.applyTo], fun d => by simp [eq_comm]⟩

/-- The calls of a sending depend on whether there is a gate, not on which. -/
theorem sendCalls_of_gate (count : ℤ) (wirePrice : ℚ) {gate : RiskGate}
    (hGate : server.riskGate = some gate) (recorded : RiskGate) (switch : Option KillSwitch) :
    { server with riskGate := some recorded, killSwitch := switch }.sendCalls m count wirePrice r =
      server.sendCalls m count wirePrice r := by
  unfold sendCalls
  simp only [hGate, Option.isSome_some]

theorem Traced.cons {handled : Handled} {calls : List Call} {call : Call} {before : ExecutorServer}
    (h : Traced server handled calls) (hCall : ∀ d, call ≠ .post d)
    (hGate : server.riskGate = before.riskGate.map fun gate => call.applyTo gate) :
    Traced before handled (call :: calls) where
  gate := by
    rw [h.gate, hGate, Option.map_map]
    rfl
  posts d := by
    rw [List.mem_cons, or_iff_right (hCall d).symm, h.posts]

theorem traced_gateFire (count : ℤ) (wirePrice : ℚ) :
    Traced server (server.gateFire m count wirePrice r) (server.gateCalls m count wirePrice r) := by
  unfold gateFire gateCalls
  cases hGate : server.riskGate with
  | none => exact traced_sendFire count wirePrice
  | some gate =>
    cases hCheck : gate.check (candidateOf m count wirePrice) r.checkMs with
    | mk verdict checked =>
    have hChecked : ∀ verdict, some checked = server.riskGate.map fun gate =>
        Call.applyTo gate (.check (candidateOf m count wirePrice) r.checkMs verdict) := fun verdict => by
      rw [hGate, Option.map_some, Call.applyTo, hCheck]
    simp only [hCheck]
    cases verdict with
    | some rejection =>
      suffices h : Traced { server with riskGate := some checked } _ _ from
        h.cons (fun _ => Call.noConfusion) (hChecked _)
      exact traced_nothing (.inl rfl) rfl
    | none =>
      generalize hRecorded : checked.recordAttempt m.marketTicker m.direction count wirePrice r.recordMs
        m.correlationGroup = recorded
      have hSend : Traced { server with riskGate := some recorded }
          ({ server with riskGate := some recorded }.sendFire m count wirePrice r) _ :=
        traced_sendFire count wirePrice
      rw [sendCalls_of_gate count wirePrice hGate recorded server.killSwitch] at hSend
      suffices h : Traced { server with riskGate := some checked } _ _ from
        h.cons (fun _ => Call.noConfusion) (hChecked _)
      exact hSend.cons (fun _ => Call.noConfusion) (congrArg some hRecorded.symm)

theorem gateCalls_of_switch (count : ℤ) (wirePrice : ℚ) (switch : Option KillSwitch) :
    { server with killSwitch := switch }.gateCalls m count wirePrice r =
      server.gateCalls m count wirePrice r := rfl

theorem traced_guardFire (count : ℤ) (wirePrice : ℚ) :
    Traced server (server.guardFire m count wirePrice r) (server.guardCalls m count wirePrice r) := by
  unfold guardFire guardCalls
  cases hSwitch : server.killSwitch with
  | none => exact traced_gateFire count wirePrice
  | some switch =>
    simp only
    cases hConsult : switch.isEngaged r.switchExists r.switchNs with
    | mk engaged consulted =>
    have hSame : server.riskGate = server.riskGate.map fun gate =>
        Call.applyTo gate (.isEngaged engaged) := Option.map_id'.symm
    suffices h : Traced { server with killSwitch := some consulted } _ _ from
      h.cons (fun _ => Call.noConfusion) hSame
    cases engaged with
    | true =>
      simp only [if_true]
      split
      · exact traced_nothing (.inr rfl) rfl
      · exact traced_nothing (.inl rfl) rfl
    | false =>
      simp only [Bool.false_eq_true, if_false]
      rw [← gateCalls_of_switch count wirePrice (some consulted)]
      exact traced_gateFire count wirePrice

theorem traced_startFire (server : ExecutorServer) (m : WakeMessage) (r : FireReadings) :
    Traced server (server.startFire m r) (server.startCalls m r) := by
  unfold startFire startCalls
  split
  · cases snapToGrid m.wirePriceYesDollars m.priceRanges with
    | none => exact traced_nothing (.inr rfl) rfl
    | some wirePrice => exact traced_sendFire _ wirePrice
  · split
    · exact traced_nothing (.inl rfl) rfl
    · cases snapToGrid m.wirePriceYesDollars m.priceRanges with
      | none => exact traced_nothing (.inr rfl) rfl
      | some wirePrice =>
        dsimp only
        split
        · exact traced_nothing (.inl rfl) rfl
        · exact traced_guardFire _ wirePrice

def gatedCalls (server : ExecutorServer) (m : WakeMessage) (r : FireReadings) (wirePrice : ℚ)
    (d : Dispatch) : List Call :=
  [.isEngaged false, .check (server.orderOf m r wirePrice) r.checkMs none,
    .recordAttempt (attemptOf m (orderCount server m r.balanceDollars) wirePrice r), .beginDispatch,
    .assertOrdersPermitted true, .post d]

theorem carries_of_openDispatch {call : DispatchCall} {readings : DispatchReadings} {d : Dispatch}
    {jobs : List OrderJob} {c : Candidate} (h : openDispatch call readings = some (d, jobs))
    (hTemplate : buildTemplate c.ticker c.direction = some call.template)
    (hIndex : call.exchangeIndex = c.exchangeIndex) (hCount : call.count = c.count)
    (hPrice : call.priceDollars = formatFixed 4 c.priceDollars)
    (hGroup : call.correlationGroup = c.correlationGroup) :
    d.dryRun = call.dryRun ∧ Carries c d := by
  unfold buildTemplate at hTemplate
  split at hTemplate
  next hSide =>
    have hShape := Option.some.inj hTemplate
    unfold openDispatch at h
    split at h
    · cases h
      refine ⟨rfl, by rw [← hShape], ?_, hIndex, by rw [← hCount], hPrice, ?_⟩
      · simp only [List.mem_cons, List.not_mem_nil, or_false] at hSide
        obtain hYes | hNo := hSide
        · exact .inl ⟨hYes, by rw [← hShape]; exact if_pos hYes⟩
        · exact .inr ⟨hNo, by rw [← hShape, hNo]; rfl⟩
      · simp only [hGroup]
        split
        next hEmpty => exact hEmpty.symm
        next => rfl
    · cases h
  · cases hTemplate

theorem sendCalls_of_post {count : ℤ} {wirePrice : ℚ} {d : Dispatch}
    (h : .post d ∈ server.sendCalls m count wirePrice r) :
    d.dryRun = m.dryRun ∧ Carries (candidateOf m count wirePrice) d ∧
      server.sendCalls m count wirePrice r =
        (if server.riskGate.isSome && !m.dryRun then [.beginDispatch] else []) ++
          [.assertOrdersPermitted true, .post d] := by
  have hBegun : ∀ gating : Bool, .post d ∉ if gating then [Call.beginDispatch] else [] := by
    rintro (_ | _) <;> simp
  have hEnded : ∀ gating : Bool, .post d ∉ if gating then [Call.endDispatch] else [] := by
    rintro (_ | _) <;> simp
  unfold sendCalls at h ⊢
  cases hTemplate : buildTemplate m.marketTicker m.direction with
  | none =>
    simp only [hTemplate, List.mem_append] at h
    exact absurd h (not_or.mpr ⟨hBegun _, hEnded _⟩)
  | some template =>
    simp only [hTemplate] at h ⊢
    split at h
    · simp only [List.mem_append, List.mem_singleton, reduceCtorEq, or_false] at h
      exact absurd h (not_or.mpr ⟨hBegun _, hEnded _⟩)
    next dispatch jobs hOpen =>
      obtain rfl : d = dispatch := by
        simpa only [List.mem_append, List.mem_cons, List.not_mem_nil, or_false, Call.post.injEq,
          reduceCtorEq, false_or, hBegun] using h
      obtain ⟨hDry, hCarries⟩ := carries_of_openDispatch (c := candidateOf m count wirePrice) hOpen
        hTemplate rfl rfl rfl rfl
      exact ⟨hDry, hCarries, rfl⟩

theorem gateCalls_of_post {gate : RiskGate} {count : ℤ} {wirePrice : ℚ} {d : Dispatch}
    (hGate : server.riskGate = some gate) (hMessage : m.dryRun = false)
    (h : .post d ∈ server.gateCalls m count wirePrice r) :
    (gate.check (candidateOf m count wirePrice) r.checkMs).1 = none ∧
      Carries (candidateOf m count wirePrice) d ∧
      server.gateCalls m count wirePrice r =
        [.check (candidateOf m count wirePrice) r.checkMs none,
          .recordAttempt (attemptOf m count wirePrice r), .beginDispatch,
          .assertOrdersPermitted true, .post d] := by
  unfold gateCalls at h ⊢
  simp only [hGate, List.mem_cons, reduceCtorEq, false_or] at h ⊢
  cases hVerdict : (gate.check (candidateOf m count wirePrice) r.checkMs).1 with
  | some rejection =>
    simp only [hVerdict, List.not_mem_nil] at h
  | none =>
    simp only [hVerdict, List.mem_cons, reduceCtorEq, false_or] at h
    obtain ⟨-, hCarries, hCalls⟩ := sendCalls_of_post h
    refine ⟨rfl, hCarries, ?_⟩
    rw [hCalls, hGate, hMessage]
    rfl

theorem gatedCalls_of_post {gate : RiskGate} {d : Dispatch} (hGate : server.riskGate = some gate)
    (hSwitch : server.killSwitch.isSome) (h : .post d ∈ server.startCalls m r)
    (hReal : d.dryRun = false) :
    m.dryRun = false ∧ ∃ wirePrice, server.Admits m r gate wirePrice ∧
      Carries (server.orderOf m r wirePrice) d ∧
        server.startCalls m r = server.gatedCalls m r wirePrice d := by
  obtain ⟨switch, hSwitch⟩ := Option.isSome_iff_exists.mp hSwitch
  have hMessage : m.dryRun = false := by
    by_contra hDry
    simp only [startCalls, eq_true_of_ne_false hDry, if_true] at h
    split at h
    · cases h
    · exact hDry ((sendCalls_of_post h).1.symm.trans hReal)
  refine ⟨hMessage, ?_⟩
  simp only [startCalls, hMessage, Bool.false_eq_true, if_false] at h ⊢
  split at h
  · cases h
  next hTradeable =>
  rw [if_neg hTradeable]
  cases hSnap : snapToGrid m.wirePriceYesDollars m.priceRanges with
  | none =>
    simp only [hSnap, List.not_mem_nil] at h
  | some wirePrice =>
    simp only [hSnap] at h ⊢
    split at h
    · cases h
    next hCount =>
    rw [if_neg hCount]
    simp only [guardCalls, hSwitch, List.mem_cons, reduceCtorEq, false_or] at h ⊢
    split at h
    · cases h
    next hReleased =>
    obtain ⟨hAllowed, hCarries, hCalls⟩ := gateCalls_of_post hGate hMessage h
    have hAnswer : (switch.isEngaged r.switchExists r.switchNs).1 = false :=
      Bool.eq_false_iff.mpr hReleased
    refine ⟨wirePrice, ⟨not_not.mp hTradeable, hSnap, not_lt.mp hCount, ?_, hAllowed⟩, hCarries, ?_⟩
    · simp only [switchEngaged, hSwitch, hAnswer]
    · rw [hAnswer, hCalls]
      rfl

def Guarded (server : ExecutorServer) : Prop := server.killSwitch.isSome ∧ server.riskGate.isSome

theorem sendFire_killSwitch (count : ℤ) (wirePrice : ℚ) :
    (server.sendFire m count wirePrice r).2.2.killSwitch = server.killSwitch := by
  unfold sendFire withGate
  split
  · simp only
    split <;> rfl
  · simp only
    split
    · simp only
      split <;> rfl
    · simp only
      split <;> rfl

theorem gateFire_killSwitch (count : ℤ) (wirePrice : ℚ) :
    (server.gateFire m count wirePrice r).2.2.killSwitch = server.killSwitch := by
  unfold gateFire
  split
  · exact sendFire_killSwitch count wirePrice
  · simp only
    split
    · rfl
    · exact sendFire_killSwitch count wirePrice

theorem guardFire_killSwitch (count : ℤ) (wirePrice : ℚ) :
    (server.guardFire m count wirePrice r).2.2.killSwitch.isSome = server.killSwitch.isSome := by
  unfold guardFire
  split
  · rw [gateFire_killSwitch]
  next switch hSwitch =>
    rw [hSwitch]
    simp only
    split
    · split <;> rfl
    · rw [gateFire_killSwitch]
      rfl

theorem startFire_killSwitch (server : ExecutorServer) (m : WakeMessage) (r : FireReadings) :
    (server.startFire m r).2.2.killSwitch.isSome = server.killSwitch.isSome := by
  unfold startFire
  split
  · split
    · rfl
    · rw [sendFire_killSwitch]
  · split
    · rfl
    · split
      · rfl
      · simp only
        split
        · rfl
        · exact guardFire_killSwitch _ _

theorem Guarded.startFire {server : ExecutorServer} (h : server.Guarded) (m : WakeMessage)
    (r : FireReadings) : (server.startFire m r).2.2.Guarded := by
  refine ⟨(startFire_killSwitch server m r).trans h.1, ?_⟩
  rw [(traced_startFire server m r).gate, Option.isSome_map]
  exact h.2

theorem Guarded.finishFire {server : ExecutorServer} (h : server.Guarded) (fire : PendingFire)
    (outcome : PostOutcome) (f : FinishReadings) : (finishFire server fire outcome f).2.Guarded := by
  unfold Ipc.finishFire
  simp only
  split
  · split
    · exact ⟨h.1, by simpa only [withGate, Option.isSome_map] using h.2⟩
    · exact ⟨h.1, by simpa only [withGate, Option.isSome_map] using h.2⟩
  · exact h

end ExecutorServer

/-- A step of a fire, or whatever the other tasks make of the gate and the switch. -/
inductive ProcessEvent where
  | fire (event : FireEvent)
  | elsewhere (gate : RiskGate) (switch : KillSwitch)

namespace Fleet

def happen (fleet : Fleet) : ProcessEvent → Fleet
  | .fire event => fleet.step event
  | .elsewhere gate switch =>
    { fleet with server := { fleet.server with riskGate := some gate, killSwitch := some switch } }

def reached (fleet : Fleet) (events : List ProcessEvent) : Fleet := events.foldl happen fleet

def calls (fleet : Fleet) : ProcessEvent → List Call
  | .fire (.arrive m r) => fleet.server.startCalls m r
  | .fire (.resume index outcome r) =>
    match fleet.pending[index]? with
    | none => []
    | some fire => finishCalls fire outcome r
  | .elsewhere _ _ => []

/-- The calls of a run in their order, each with the number of its event. -/
def log (fleet : Fleet) (number : ℕ) : List ProcessEvent → List (ℕ × Call)
  | [] => []
  | event :: events =>
    (fleet.calls event).map (number, ·) ++ (fleet.happen event).log (number + 1) events

theorem guarded_happen {fleet : Fleet} (h : fleet.server.Guarded) (event : ProcessEvent) :
    (fleet.happen event).server.Guarded := by
  cases event with
  | elsewhere gate switch => exact ⟨rfl, rfl⟩
  | fire event =>
    cases event with
    | arrive m r => exact h.startFire m r
    | resume index outcome r =>
      rw [happen, step]
      split
      · exact h
      · exact h.finishFire _ outcome r

theorem le_of_mem_log {fleet : Fleet} {number : ℕ} {events : List ProcessEvent} {entry : ℕ × Call}
    (h : entry ∈ fleet.log number events) : number ≤ entry.1 := by
  induction events generalizing fleet number with
  | nil => cases h
  | cons event events ih =>
    obtain hHere | hLater := List.mem_append.mp h
    · obtain ⟨call, -, rfl⟩ := List.mem_map.mp hHere
      exact le_rfl
    · exact (Nat.le_succ number).trans (ih hLater)

theorem post_not_mem_finishCalls (fire : PendingFire) (outcome : PostOutcome) (r : FinishReadings)
    (d : Dispatch) : .post d ∉ finishCalls fire outcome r := by
  unfold finishCalls
  split
  · split <;> simp
  · exact List.not_mem_nil

theorem arrive_of_post {fleet : Fleet} {event : ProcessEvent} {d : Dispatch}
    (h : .post d ∈ fleet.calls event) :
    ∃ m r, event = .fire (.arrive m r) ∧ .post d ∈ fleet.server.startCalls m r := by
  cases event with
  | elsewhere => cases h
  | fire event =>
    cases event with
    | arrive m r => exact ⟨m, r, rfl, h⟩
    | resume index outcome r =>
      rw [calls] at h
      split at h
      · cases h
      · exact absurd h (post_not_mem_finishCalls _ outcome r d)

theorem split_append_cons {α : Type} {first second before after : List α} {x : α}
    (h : first ++ second = before ++ x :: after) :
    (∃ rest, first = before ++ x :: rest ∧ after = rest ++ second) ∨
      ∃ front, before = first ++ front ∧ second = front ++ x :: after := by
  obtain ⟨front, hBefore, hSecond⟩ | ⟨rest, hFirst, hRest⟩ := List.append_eq_append_iff.mp h
  · exact .inr ⟨front, hBefore, hSecond⟩
  · cases rest with
    | nil => exact .inr ⟨[], by simpa using hFirst.symm, by simpa using hRest.symm⟩
    | cons y rest =>
      obtain ⟨rfl, hAfter⟩ := List.cons.inj hRest
      exact .inl ⟨rest, hFirst, hAfter⟩

theorem before_eq_of_last {α : Type} {front before rest : List α} {x : α} (hNot : x ∉ front)
    (h : front ++ [x] = before ++ x :: rest) : before = front ∧ rest = [] := by
  obtain ⟨rest', hFront, -⟩ | ⟨gap, hBefore, hLast⟩ := split_append_cons h
  · exact absurd (hFront ▸ List.mem_append_right _ List.mem_cons_self) hNot
  · obtain ⟨rfl, hRest⟩ | ⟨y, gap, rfl⟩ : (gap = [] ∧ rest = []) ∨ ∃ y gap', gap = y :: gap' := by
      cases gap with
      | nil => exact .inl ⟨rfl, (List.cons.inj hLast).2.symm⟩
      | cons y gap => exact .inr ⟨y, gap, rfl⟩
    · exact ⟨by simpa using hBefore, hRest⟩
    · simp at hLast

/-- The fire of a request: the order it was let through for, and the gate it left. -/
structure Passed (server : ExecutorServer) (m : WakeMessage) (r : FireReadings) (gate : RiskGate)
    (wirePrice : ℚ) (d : Dispatch) (later : ExecutorServer) : Prop where
  real : m.dryRun = false
  gated : server.riskGate = some gate
  admits : server.Admits m r gate wirePrice
  carries : Carries (server.orderOf m r wirePrice) d
  counted : later.riskGate = some (server.gateAfter m r gate wirePrice)

theorem passed_of_post {fleet : Fleet} (hGuarded : fleet.server.Guarded) {event : ProcessEvent}
    {d : Dispatch} (h : .post d ∈ fleet.calls event) (hReal : d.dryRun = false) :
    ∃ m r gate wirePrice, event = .fire (.arrive m r) ∧
      Passed fleet.server m r gate wirePrice d (fleet.happen event).server ∧
        fleet.calls event = fleet.server.gatedCalls m r wirePrice d := by
  obtain ⟨m, r, rfl, hPost⟩ := arrive_of_post h
  obtain ⟨gate, hGate⟩ := Option.isSome_iff_exists.mp hGuarded.2
  obtain ⟨hMessage, wirePrice, hAdmits, hCarries, hCalls⟩ :=
    ExecutorServer.gatedCalls_of_post hGate hGuarded.1 hPost hReal
  refine ⟨m, r, gate, wirePrice, rfl, ⟨hMessage, hGate, hAdmits, hCarries, ?_⟩, hCalls⟩
  have hTraced := (ExecutorServer.traced_startFire fleet.server m r).gate
  rw [hCalls, hGate] at hTraced
  exact hTraced

/-- Behind every real request in the log of a run: its wake's own calls that let the order pass,
without a call of another fire among them, and no other request of that wake. -/
structure Gated (fleet : Fleet) (events : List ProcessEvent) (number index : ℕ)
    (before after : List (ℕ × Call)) (d : Dispatch) : Prop where
  passed : ∃ m r gate wirePrice, events[index]? = some (.fire (.arrive m r)) ∧
    Passed (fleet.reached (events.take index)).server m r gate wirePrice d
      (fleet.reached (events.take (index + 1))).server ∧
    ∃ earlier, before = earlier ++ ((fleet.reached (events.take index)).server.gatedCalls m r
      wirePrice d).dropLast.map (number, ·)
  once : ∀ entry ∈ before ++ after, entry.1 = number → ∀ other, entry.2 ≠ .post other

theorem gated_of_log {fleet : Fleet} (hGuarded : fleet.server.Guarded) {events : List ProcessEvent}
    {start number : ℕ} {before after : List (ℕ × Call)} {d : Dispatch}
    (hLog : fleet.log start events = before ++ (number, .post d) :: after)
    (hReal : d.dryRun = false) :
    ∃ index, number = start + index ∧ Gated fleet events number index before after d := by
  induction events generalizing fleet start before with
  | nil => simp [log] at hLog
  | cons event events ih =>
    obtain ⟨rest, hHere, rfl⟩ | ⟨front, rfl, hLater⟩ := split_append_cons hLog
    · have hMem : (number, Call.post d) ∈ (fleet.calls event).map (start, ·) := by
        rw [hHere]
        exact List.mem_append_right _ List.mem_cons_self
      obtain ⟨call, hCall, hEntry⟩ := List.mem_map.mp hMem
      obtain ⟨rfl, rfl⟩ := Prod.mk.inj hEntry
      obtain ⟨m, r, gate, wirePrice, rfl, hPassed, hCalls⟩ := passed_of_post hGuarded hCall hReal
      have hNot : ∀ other, .post other ∉ (fleet.server.gatedCalls m r wirePrice d).dropLast := by
        intro other
        simp [ExecutorServer.gatedCalls]
      rw [hCalls, show fleet.server.gatedCalls m r wirePrice d =
        (fleet.server.gatedCalls m r wirePrice d).dropLast ++ [.post d] from rfl, List.map_append]
        at hHere
      have hEntry : (start, Call.post d) ∉
          (fleet.server.gatedCalls m r wirePrice d).dropLast.map (start, ·) := by
        intro hMem
        obtain ⟨call, hCall, hSame⟩ := List.mem_map.mp hMem
        cases hSame
        exact hNot d hCall
      obtain ⟨rfl, rfl⟩ := before_eq_of_last hEntry hHere
      refine ⟨0, rfl, ⟨m, r, gate, wirePrice, rfl, hPassed, [], rfl⟩, ?_⟩
      intro entry hMem hNumber other hPost
      obtain hBefore | hAfter := List.mem_append.mp hMem
      · obtain ⟨call, hCall, rfl⟩ := List.mem_map.mp hBefore
        exact hNot other (hPost ▸ hCall)
      · have := le_of_mem_log hAfter
        omega
    · obtain ⟨index, rfl, hGated⟩ := ih (guarded_happen hGuarded event) hLater
      refine ⟨index + 1, by omega, ?_, ?_⟩
      · obtain ⟨m, r, gate, wirePrice, hEvent, hPassed, earlier, rfl⟩ := hGated.passed
        exact ⟨m, r, gate, wirePrice, hEvent, hPassed, (fleet.calls event).map (start, ·) ++ earlier,
          (List.append_assoc _ _ _).symm⟩
      · intro entry hMem hNumber other
        rw [List.append_assoc] at hMem
        obtain hHere | hRest := List.mem_append.mp hMem
        · obtain ⟨call, -, rfl⟩ := List.mem_map.mp hHere
          simp only at hNumber
          omega
        · exact hGated.once entry hRest hNumber other

/-- Every real request that a run hands to the client, whatever fires interleave in it. -/
theorem real_request_gated {fleet : Fleet} (hGuarded : fleet.server.Guarded)
    {events : List ProcessEvent} {before after : List (ℕ × Call)} {number : ℕ} {d : Dispatch}
    (hLog : fleet.log 0 events = before ++ (number, .post d) :: after) (hReal : d.dryRun = false) :
    Gated fleet events number number before after d := by
  obtain ⟨index, hNumber, hGated⟩ := gated_of_log hGuarded hLog hReal
  rw [Nat.zero_add] at hNumber
  rwa [← hNumber] at hGated

end Fleet

def demoWake : WakeMessage :=
  { correlationId := "corr-1", marketTicker := "KX-A-1", direction := "yes", kalshiPrice := 1 / 2,
    edge := 0, wirePriceYesDollars := 1 / 2, exchangeIndex := 0 }

theorem demoWake_request_gated : ∃ before after d, d.dryRun = false ∧
    Fleet.Gated { server := demoServer } [.fire (.arrive demoWake demoReadings)] 0 0 before after d := by
  have hSent : (demoServer.startFire demoWake demoReadings).1.tasks.map
      (fun fire => fire.dispatch.dryRun) = [false] := by decide +kernel
  cases hFire : (demoServer.startFire demoWake demoReadings).1 with
  | awaiting fire =>
    rw [hFire] at hSent
    have hReal : fire.dispatch.dryRun = false := (List.cons.inj hSent).1
    have hPost := ((ExecutorServer.traced_startFire demoServer demoWake demoReadings).posts
      fire.dispatch).mpr ⟨fire, hFire, rfl⟩
    obtain ⟨before, after, hLog⟩ := List.append_of_mem
      (List.mem_map_of_mem (f := ((0 : ℕ), ·)) hPost)
    exact ⟨before, after, fire.dispatch, hReal,
      Fleet.real_request_gated ⟨rfl, rfl⟩ ((List.append_nil _).trans hLog) hReal⟩
  | finished | raised =>
    rw [hFire] at hSent
    cases hSent

end KalshiBot.Ipc

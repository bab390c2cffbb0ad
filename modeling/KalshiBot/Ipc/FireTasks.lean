import KalshiBot.Ipc.ExecutorServer

/-! # Concurrent fires

Each wake becomes a task of its own, and tasks interleave only where one waits for its
response. A run is therefore a list of arrivals and resumptions, and the run of a
prefix is a state that the process passes through.
-/

namespace KalshiBot.Ipc

open PythonText Execution Risk KalshiBot.Runtime

set_option autoImplicit false

structure ReturnedFire where
  fire : PendingFire
  outcome : PostOutcome

structure Fleet where
  server : ExecutorServer
  pending : List PendingFire := []
  returned : List ReturnedFire := []

inductive FireEvent where
  | arrive (m : WakeMessage) (r : FireReadings)
  | resume (index : ℕ) (outcome : PostOutcome) (r : FinishReadings)

def FireStart.tasks : FireStart → List PendingFire
  | .awaiting fire => [fire]
  | .finished | .raised => []

def Fleet.step (fleet : Fleet) : FireEvent → Fleet
  | .arrive m r =>
    let started := fleet.server.startFire m r
    { fleet with server := started.2.2, pending := fleet.pending ++ started.1.tasks }
  | .resume index outcome r =>
    match fleet.pending[index]? with
    | none => fleet
    | some fire =>
      { server := (finishFire fleet.server fire outcome r).2
        pending := fleet.pending.eraseIdx index
        returned := fleet.returned ++ [⟨fire, outcome⟩] }

def Fleet.run (fleet : Fleet) (events : List FireEvent) : Fleet := events.foldl Fleet.step fleet

@[simp] theorem Fleet.run_snoc (fleet : Fleet) (events : List FireEvent) (event : FireEvent) :
    fleet.run (events ++ [event]) = (fleet.run events).step event := by
  simp [Fleet.run]

namespace ExecutorServer

/-- What a real fire has passed when its dispatch begins. -/
structure Admits (server : ExecutorServer) (m : WakeMessage) (r : FireReadings) (gate : RiskGate)
    (wirePrice : ℚ) : Prop where
  tradeable : 0 < m.wirePriceYesDollars ∧ m.wirePriceYesDollars < 1
  snapped : snapToGrid m.wirePriceYesDollars m.priceRanges = some wirePrice
  counted : 1 ≤ orderCount server m r.balanceDollars
  released : server.switchEngaged r = false
  allowed : (gate.check (server.orderOf m r wirePrice) r.checkMs).1 = none

/-- The gate once an admitted fire has recorded its attempt and taken its slot. -/
def gateAfter (server : ExecutorServer) (m : WakeMessage) (r : FireReadings) (gate : RiskGate)
    (wirePrice : ℚ) : RiskGate :=
  ((gate.check (server.orderOf m r wirePrice) r.checkMs).2.recordAttempt m.marketTicker m.direction
    (orderCount server m r.balanceDollars) wirePrice r.recordMs m.correlationGroup).beginDispatch

/-- How the start of a real fire can leave a gated server. -/
inductive Starts (server : ExecutorServer) (m : WakeMessage) (r : FireReadings) (gate : RiskGate) :
    List PendingFire → Option RiskGate → Prop
  | unseen : Starts server m r gate [] (some gate)
  | refused (c : Candidate) : Starts server m r gate [] (some (gate.check c r.checkMs).2)
  | failed (wirePrice : ℚ) (h : server.Admits m r gate wirePrice) :
      Starts server m r gate [] (some (server.gateAfter m r gate wirePrice).endDispatch)
  | sent (wirePrice : ℚ) (dispatch : Dispatch) (h : server.Admits m r gate wirePrice) :
      Starts server m r gate [⟨m, orderCount server m r.balanceDollars, wirePrice, true, dispatch⟩]
        (some (server.gateAfter m r gate wirePrice))

theorem starts_of_sendFire {server sender : ExecutorServer} {m : WakeMessage} {r : FireReadings}
    {gate recorded : RiskGate} {count : ℤ} {wirePrice : ℚ} (hGate : sender.riskGate = some recorded)
    (hReal : m.dryRun = false)
    (hFailed : Starts server m r gate [] (some recorded.beginDispatch.endDispatch))
    (hSent : ∀ dispatch, Starts server m r gate [⟨m, count, wirePrice, true, dispatch⟩]
      (some recorded.beginDispatch)) :
    Starts server m r gate (sender.sendFire m count wirePrice r).1.tasks
      (sender.sendFire m count wirePrice r).2.2.riskGate := by
  simp only [sendFire, hGate, hReal, Option.isSome_some, Bool.not_false, Bool.and_self, if_true,
    withGate, Option.map_some]
  split
  · exact hFailed
  · split
    · exact hFailed
    · exact hSent _

theorem starts_of_gateFire {server : ExecutorServer} {m : WakeMessage} {r : FireReadings}
    {gate : RiskGate} {wirePrice : ℚ} (hGate : server.riskGate = some gate)
    (hReal : m.dryRun = false)
    (hTradeable : 0 < m.wirePriceYesDollars ∧ m.wirePriceYesDollars < 1)
    (hSnapped : snapToGrid m.wirePriceYesDollars m.priceRanges = some wirePrice)
    (hCounted : 1 ≤ orderCount server m r.balanceDollars)
    (hReleased : server.switchEngaged r = false) (switch : Option KillSwitch) :
    Starts server m r gate
      ({ server with killSwitch := switch }.gateFire m (orderCount server m r.balanceDollars)
        wirePrice r).1.tasks
      ({ server with killSwitch := switch }.gateFire m (orderCount server m r.balanceDollars)
        wirePrice r).2.2.riskGate := by
  cases hVerdict : (gate.check (server.orderOf m r wirePrice) r.checkMs).1 with
  | some rejection =>
    rw [orderOf] at hVerdict
    simp only [gateFire, hGate, hVerdict]
    exact .refused _
  | none =>
    have hAdmits : server.Admits m r gate wirePrice :=
      ⟨hTradeable, hSnapped, hCounted, hReleased, hVerdict⟩
    rw [orderOf] at hVerdict
    simp only [gateFire, hGate, hVerdict]
    exact starts_of_sendFire rfl hReal (.failed wirePrice hAdmits) (.sent wirePrice · hAdmits)

theorem starts_of_startFire {server : ExecutorServer} {m : WakeMessage} {r : FireReadings}
    {gate : RiskGate} (hGate : server.riskGate = some gate) (hReal : m.dryRun = false) :
    Starts server m r gate (server.startFire m r).1.tasks (server.startFire m r).2.2.riskGate := by
  simp only [startFire, hReal, Bool.false_eq_true, if_false]
  split
  · rw [hGate]
    exact .unseen
  next hPrice =>
  cases hSnap : snapToGrid m.wirePriceYesDollars m.priceRanges with
  | none =>
    rw [hGate]
    exact .unseen
  | some wirePrice =>
    simp only
    split
    · rw [hGate]
      exact .unseen
    next hCount =>
    have hFire := starts_of_gateFire hGate hReal (not_not.mp hPrice) hSnap (not_lt.mp hCount)
    cases hSwitch : server.killSwitch with
    | none =>
      have hReleased : server.switchEngaged r = false := by
        simp only [switchEngaged, hSwitch]
      simp only [guardFire, hSwitch]
      have hSame := hFire hReleased none
      rwa [← hSwitch] at hSame
    | some switch =>
      simp only [guardFire, hSwitch]
      split
      · split
        · rw [hGate]
          exact .unseen
        · rw [hGate]
          exact .unseen
      next hFree =>
      have hReleased : server.switchEngaged r = false := by
        simpa only [switchEngaged, hSwitch, Bool.not_eq_true] using hFree
      exact hFire hReleased _

end ExecutorServer

theorem perm_eraseIdx {α : Type} {entries : List α} {index : ℕ} {entry : α}
    (h : entries[index]? = some entry) : entries.Perm (entry :: entries.eraseIdx index) := by
  obtain ⟨hIndex, rfl⟩ := List.getElem?_eq_some_iff.mp h
  exact (List.getElem_cons_eraseIdx_perm hIndex).symm

end KalshiBot.Ipc

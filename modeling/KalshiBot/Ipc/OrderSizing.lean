import KalshiBot.Ipc.GatedDispatch

/-! # The size of an order

The count that a fire submits to the risk gate, against the caps of its configuration and the
liquidity of its wake.
-/

namespace KalshiBot.Ipc

open PythonText Execution Risk

set_option autoImplicit false

namespace ExecutorServer

variable {server : ExecutorServer} {m : WakeMessage} {r : FireReadings} {candidate : Candidate}
  {nowMs : ℤ} {verdict : Option Rejection}

theorem not_mem_sendCalls_of_check (count : ℤ) (wirePrice : ℚ) :
    .check candidate nowMs verdict ∉ server.sendCalls m count wirePrice r := by
  have hSlot : ∀ (gating : Bool) (call : Call), call ≠ .check candidate nowMs verdict →
      .check candidate nowMs verdict ∉ if gating then [call] else [] := by
    rintro (_ | _) call hCall
    · exact List.not_mem_nil
    · exact fun hMem => hCall (List.mem_singleton.mp hMem).symm
  have hBegun := hSlot (server.riskGate.isSome && !m.dryRun) .beginDispatch Call.noConfusion
  have hEnded := hSlot (server.riskGate.isSome && !m.dryRun) .endDispatch Call.noConfusion
  unfold sendCalls
  cases hTemplate : buildTemplate m.marketTicker m.direction with
  | none =>
    simp only [List.mem_append]
    exact not_or.mpr ⟨hBegun, hEnded⟩
  | some template =>
    dsimp only
    generalize openDispatch _ r.dispatch = opened
    cases opened with
    | none => simp
    | some opened => simp

theorem eq_of_mem_gateCalls {count : ℤ} {wirePrice : ℚ}
    (h : .check candidate nowMs verdict ∈ server.gateCalls m count wirePrice r) :
    candidate = candidateOf m count wirePrice := by
  cases hGate : server.riskGate with
  | none =>
    simp only [gateCalls, hGate] at h
    exact absurd h (not_mem_sendCalls_of_check count wirePrice)
  | some gate =>
    simp only [gateCalls, hGate] at h
    obtain hHead | hTail := List.mem_cons.mp h
    · exact (Call.check.inj hHead).1
    · cases hVerdict : (gate.check (candidateOf m count wirePrice) r.checkMs).1 with
      | some rejection =>
        rw [hVerdict] at hTail
        cases hTail
      | none =>
        rw [hVerdict] at hTail
        obtain hRecord | hSend := List.mem_cons.mp hTail
        · cases hRecord
        · exact absurd hSend (not_mem_sendCalls_of_check count wirePrice)

theorem eq_of_mem_guardCalls {count : ℤ} {wirePrice : ℚ}
    (h : .check candidate nowMs verdict ∈ server.guardCalls m count wirePrice r) :
    candidate = candidateOf m count wirePrice := by
  cases hSwitch : server.killSwitch with
  | none =>
    simp only [guardCalls, hSwitch] at h
    exact eq_of_mem_gateCalls h
  | some switch =>
    simp only [guardCalls, hSwitch] at h
    obtain hEngaged | hTail := List.mem_cons.mp h
    · cases hEngaged
    · split at hTail
      · cases hTail
      · exact eq_of_mem_gateCalls hTail

/-- Only a real fire whose count can be ordered gets as far as the gate. -/
theorem count_of_mem_startCalls (h : .check candidate nowMs verdict ∈ server.startCalls m r) :
    m.dryRun = false ∧ candidate.count = orderCount server m r.balanceDollars ∧
      1 ≤ candidate.count := by
  unfold startCalls at h
  split at h
  · split at h
    · cases h
    · exact absurd h (not_mem_sendCalls_of_check _ _)
  next hReal =>
  split at h
  · cases h
  split at h
  · cases h
  dsimp only at h
  split at h
  · cases h
  next hCount =>
  rw [eq_of_mem_guardCalls h]
  exact ⟨Bool.not_eq_true _ ▸ hReal, rfl, not_lt.mp hCount⟩

theorem check_mem_startCalls {gate : RiskGate} {wirePrice : ℚ} (hGate : server.riskGate = some gate)
    (hReal : m.dryRun = false)
    (hTradeable : 0 < m.wirePriceYesDollars ∧ m.wirePriceYesDollars < 1)
    (hSnapped : snapToGrid m.wirePriceYesDollars m.priceRanges = some wirePrice)
    (hCounted : 1 ≤ orderCount server m r.balanceDollars)
    (hReleased : server.switchEngaged r = false) :
    .check (server.orderOf m r wirePrice) r.checkMs
      (gate.check (server.orderOf m r wirePrice) r.checkMs).1 ∈ server.startCalls m r := by
  simp only [startCalls, hReal, Bool.false_eq_true, if_false, hTradeable, and_self, not_true_eq_false,
    hSnapped, if_neg (not_lt.mpr hCounted)]
  cases hSwitch : server.killSwitch with
  | none =>
    simp only [guardCalls, hSwitch, gateCalls, hGate]
    exact List.mem_cons_self
  | some switch =>
    rw [switchEngaged, hSwitch] at hReleased
    simp only [guardCalls, hSwitch, hReleased, Bool.false_eq_true, if_false, gateCalls, hGate]
    exact List.mem_cons_of_mem _ List.mem_cons_self

theorem orderCount_le_available (server : ExecutorServer) (balanceDollars : Option ℚ)
    (hRests : 0 < m.availableSizeContracts) :
    orderCount server m balanceDollars ≤ ⌊m.availableSizeContracts⌋ := by
  rw [orderCount, if_pos hRests, truncate_of_nonneg hRests.le]
  exact min_le_right _ _

theorem orderCount_le_sized (server : ExecutorServer) (m : WakeMessage)
    (balanceDollars : Option ℚ) :
    orderCount server m balanceDollars ≤ sizePosition m.edge m.kalshiPrice
      (balanceDollars.getD 0) server.kellyFraction server.maxPositionPctOfBalance
      server.fixedOrderContractCount := by
  unfold orderCount
  dsimp only
  split
  · exact min_le_left _ _
  · exact le_rfl

end ExecutorServer

theorem order_sized :
    (∀ (server : ExecutorServer) (m : WakeMessage) (r : FireReadings) (candidate : Candidate)
      (nowMs : ℤ) (verdict : Option Rejection), 0 ≤ server.maxPositionPctOfBalance →
      .check candidate nowMs verdict ∈ server.startCalls m r →
      1 ≤ candidate.count ∧
      (0 < m.availableSizeContracts → candidate.count ≤ ⌊m.availableSizeContracts⌋) ∧
      (candidate.count ≤ server.fixedOrderContractCount ∨
        candidate.count * m.kalshiPrice ≤ r.balanceDollars.getD 0 *
          min server.maxPositionPctOfBalance
            (max 0 server.kellyFraction * max 0 m.edge / (1 - m.kalshiPrice)))) ∧
    (∀ (edge kalshiPrice balance kelly cap : ℚ) (least : ℤ),
      least ≤ sizePosition edge kalshiPrice balance kelly cap least ∧
      Monotone (fun edge => sizePosition edge kalshiPrice balance kelly cap least) ∧
      (0 ≤ cap → Monotone fun balance => sizePosition edge kalshiPrice balance kelly cap least) ∧
      Monotone (fun kelly => sizePosition edge kalshiPrice balance kelly cap least) ∧
      Monotone fun cap => sizePosition edge kalshiPrice balance kelly cap least) := by
  constructor
  · intro server m r candidate nowMs verdict hCap hMem
    obtain ⟨-, hCount, hOne⟩ := ExecutorServer.count_of_mem_startCalls hMem
    rw [hCount] at hOne ⊢
    exact ⟨hOne, ExecutorServer.orderCount_le_available server r.balanceDollars,
      le_or_mul_le_of_le_sizePosition hCap
        (ExecutorServer.orderCount_le_sized server m r.balanceDollars)⟩
  · intro edge kalshiPrice balance kelly cap least
    refine ⟨le_sizePosition _ _ _ _ _ _, ?_, ?_, ?_, ?_⟩
    · intro edge edge' hEdge
      exact sizePosition_mono hEdge le_rfl le_rfl least
    · intro hCap balance balance' hBalance
      exact sizePosition_mono_balance hCap hBalance least
    · intro kelly kelly' hKelly
      exact sizePosition_mono le_rfl hKelly le_rfl least
    · intro cap cap' hCap
      exact sizePosition_mono le_rfl le_rfl hCap least

/-- Three contracts rest where the stake would buy four. -/
def thinWake : WakeMessage where
  correlationId := "corr-1"
  marketTicker := "KX-A-1"
  direction := "yes"
  kalshiPrice := 1 / 2
  edge := 1 / 10
  wirePriceYesDollars := 1 / 2
  exchangeIndex := 0
  availableSizeContracts := 3

theorem order_sized_thinWake :
    1 ≤ orderCount demoServer thinWake (some 100) ∧
      orderCount demoServer thinWake (some 100) ≤ ⌊(3 : ℚ)⌋ := by
  have hReal : thinWake.dryRun = false := rfl
  have hTradeable : 0 < thinWake.wirePriceYesDollars ∧ thinWake.wirePriceYesDollars < 1 := by
    decide +kernel
  have hSnapped : snapToGrid thinWake.wirePriceYesDollars thinWake.priceRanges = some (1 / 2) := by
    decide +kernel
  have hCounted : 1 ≤ orderCount demoServer thinWake demoReadings.balanceDollars := by
    decide +kernel
  have hChecked := demoServer.check_mem_startCalls (r := demoReadings) rfl hReal
    hTradeable hSnapped hCounted rfl
  obtain ⟨hOne, hRests, -⟩ := order_sized.1 demoServer thinWake demoReadings _ _ _
    (by decide +kernel) hChecked
  exact ⟨hOne, hRests (by decide +kernel)⟩

end KalshiBot.Ipc

import KalshiBot.Risk.Gate

/-! # What an admitted order has passed

`Admits` lists the twelve conditions behind the verdict `none`. Pruning only drops
entries that no window of the same or a later moment can see, so the position
conditions are about the gate as it stood before the check.
-/

namespace KalshiBot.Risk

open RollingWindow

set_option autoImplicit false

namespace RiskGate

@[simp] theorem prune_limits (g : RiskGate) (nowMs : ℤ) : (g.prune nowMs).limits = g.limits := rfl

@[simp] theorem prune_lastAttemptMs (g : RiskGate) (nowMs : ℤ) :
    (g.prune nowMs).lastAttemptMs = g.lastAttemptMs := rfl

theorem unconfirmed_prune (g : RiskGate) (on : Fill → Bool) {pruneMs nowMs : ℤ}
    (h : pruneMs ≤ nowMs) : (g.prune pruneMs).unconfirmed on nowMs = g.unconfirmed on nowMs := by
  apply congrArg (total Fill.fillCount)
  apply filter_pruneBefore
  intro f hf
  simp only [Bool.decide_and, Bool.decide_eq_true, Bool.and_eq_false_iff, decide_eq_false_iff_not,
    sup_le_iff, not_le]
  omega

theorem positionForTicker_prune (g : RiskGate) (ticker : String) {pruneMs nowMs : ℤ}
    (h : pruneMs ≤ nowMs) :
    (g.prune pruneMs).positionForTicker ticker nowMs = g.positionForTicker ticker nowMs :=
  congrArg _ (g.unconfirmed_prune _ h)

theorem positionForEvent_prune (g : RiskGate) (eventTicker : String) {pruneMs nowMs : ℤ}
    (h : pruneMs ≤ nowMs) :
    (g.prune pruneMs).positionForEvent eventTicker nowMs = g.positionForEvent eventTicker nowMs :=
  congrArg _ (g.unconfirmed_prune _ h)

theorem positionForGroup_prune (g : RiskGate) (group : String) {pruneMs nowMs : ℤ}
    (h : pruneMs ≤ nowMs) :
    (g.prune pruneMs).positionForGroup group nowMs = g.positionForGroup group nowMs :=
  congrArg _ (g.unconfirmed_prune _ h)

structure Admits (g : RiskGate) (c : Candidate) (nowMs : ℤ) : Prop where
  shard : c.exchangeIndex ∈ g.limits.allowedExchangeIndexes
  slot : g.inFlight < g.limits.maxConcurrentDispatches
  cooled : ∀ last, g.lastAttemptMs.lookup c.key = some last →
    g.limits.refireCooldownSeconds * 1000 ≤ ((nowMs - last : ℤ) : ℚ)
  perHour : ((since Attempt.requestedAtMs (nowMs - hourMs) (g.prune nowMs).attempts).length : ℤ) <
    g.limits.maxAttemptsPerHour
  perDay : ((g.prune nowMs).attempts.length : ℤ) < g.limits.maxAttemptsPerDay
  perTicker : (((g.prune nowMs).attempts.filter fun a => a.ticker = c.ticker).length : ℤ) <
    g.limits.maxAttemptsPerTickerPerDay
  perEvent : (((g.prune nowMs).attempts.filter fun a =>
    eventTickerOf a.ticker = eventTickerOf c.ticker).length : ℤ) < g.limits.maxAttemptsPerEventPerDay
  perGroup : c.correlationGroup ≠ "" → (((g.prune nowMs).attempts.filter fun a =>
    a.correlationGroup = c.correlationGroup).length : ℤ) <
      g.limits.maxAttemptsPerCorrelationGroupPerDay
  notional : total Attempt.notionalDollars (g.prune nowMs).attempts + c.notional ≤
    g.limits.maxNotionalPerDayDollars
  tickerPosition : g.positionForTicker c.ticker nowMs + c.count ≤
    g.limits.maxPositionContractsPerTicker
  eventPosition : g.positionForEvent (eventTickerOf c.ticker) nowMs + c.count ≤
    g.limits.maxPositionContractsPerEvent
  groupPosition : c.correlationGroup ≠ "" → g.positionForGroup c.correlationGroup nowMs + c.count ≤
    g.limits.maxPositionContractsPerCorrelationGroup

theorem checkEarly_eq_none_iff (g : RiskGate) (c : Candidate) (nowMs : ℤ) :
    g.checkEarly c nowMs = none ↔ c.exchangeIndex ∈ g.limits.allowedExchangeIndexes ∧
      g.inFlight < g.limits.maxConcurrentDispatches ∧
      ∀ last, g.lastAttemptMs.lookup c.key = some last →
        g.limits.refireCooldownSeconds * 1000 ≤ ((nowMs - last : ℤ) : ℚ) := by
  simp only [checkEarly, firstRejection_eq_none, List.forall_mem_cons, List.not_mem_nil,
    refuseIf_eq_none, Option.bind_eq_none_iff, not_not, not_le, not_lt, false_implies,
    implies_true, and_true]

theorem check_eq_none_iff (g : RiskGate) (c : Candidate) (nowMs : ℤ) :
    (g.check c nowMs).1 = none ↔ g.Admits c nowMs := by
  unfold check
  cases hEarly : g.checkEarly c nowMs with
  | some rejection =>
    simp only [reduceCtorEq, false_iff]
    intro h
    have := (g.checkEarly_eq_none_iff c nowMs).mpr ⟨h.shard, h.slot, h.cooled⟩
    rw [hEarly] at this
    cases this
  | none =>
    obtain ⟨hShard, hSlot, hCooled⟩ := (g.checkEarly_eq_none_iff c nowMs).mp hEarly
    simp only [checkAttempts, checkExposure, firstRejection_eq_none, List.forall_mem_cons,
      List.not_mem_nil, refuseIf_eq_none, false_implies, implies_true, and_true]
    simp only [not_le, not_lt, not_and, prune_limits, g.positionForTicker_prune _ le_rfl,
      g.positionForEvent_prune _ le_rfl, g.positionForGroup_prune _ le_rfl]
    constructor
    · rintro ⟨⟨hHour, hDay, hTicker, hEvent, hGroup⟩, hNotional, hTickerPos, hEventPos, hGroupPos⟩
      exact ⟨hShard, hSlot, hCooled, hHour, hDay, hTicker, hEvent, hGroup, hNotional, hTickerPos,
        hEventPos, hGroupPos⟩
    · intro h
      exact ⟨⟨h.perHour, h.perDay, h.perTicker, h.perEvent, h.perGroup⟩, h.notional,
        h.tickerPosition, h.eventPosition, h.groupPosition⟩

/-- A check changes nothing but the deques, and those only by pruning. -/
theorem check_gate (g : RiskGate) (c : Candidate) (nowMs : ℤ) :
    (g.check c nowMs).2 = g ∨ (g.check c nowMs).2 = g.prune nowMs := by
  unfold check
  split
  · exact .inl rfl
  · exact .inr rfl

end RiskGate

end KalshiBot.Risk

import KalshiBot.Risk.Calls

/-! # The gate never latches shut

Whatever accumulates in the gate drains: a day after the last record the next check
prunes both deques empty, an empty reconciliation clears the baselines, and a slot
is held only by a dispatch that has not ended.
-/

namespace KalshiBot.Risk

open PythonText RollingWindow

set_option autoImplicit false

namespace GateCall

def isBegin : GateCall → Bool
  | beginDispatch => true
  | _ => false

def isEnd : GateCall → Bool
  | endDispatch => true
  | _ => false

def reconciled? : GateCall → Option (Dict String ℚ)
  | reconcileOpenPositions openPositions _ => some openPositions
  | _ => none

/-- What the call records, if anything, is more than a day old and past its cooldown. -/
def OldAt (limits : RiskLimits) (nowMs : ℤ) : GateCall → Prop
  | recordAttempt a => a.nowMs + dayMs < nowMs ∧
      limits.refireCooldownSeconds * 1000 ≤ ((nowMs - a.nowMs : ℤ) : ℚ)
  | recordFill _ fillCount t => 0 < fillCount → t + dayMs < nowMs
  | _ => True

end GateCall

/-- Each begun dispatch is matched by a later end: no tail of the run begins more
dispatches than it ends. -/
def AllEnded (calls : List GateCall) : Prop :=
  ∀ tail, tail <:+ calls → tail.countP GateCall.isBegin ≤ tail.countP GateCall.isEnd

def latestReconciliation (calls : List GateCall) : Option (Dict String ℚ) :=
  (calls.filterMap GateCall.reconciled?).getLast?

/-- The slots held are the dispatches some tail of the run begins beyond those it ends. -/
theorem inFlight_eq_tail (start : RiskGate) (h : start.inFlight = 0) (calls : List GateCall) :
    0 ≤ (runCalls start calls).inFlight ∧ ∃ tail, tail <:+ calls ∧ (runCalls start calls).inFlight =
      (tail.countP GateCall.isBegin : ℤ) - tail.countP GateCall.isEnd := by
  induction calls using List.reverseRecOn with
  | nil => exact ⟨h.ge, [], List.suffix_rfl, by simp [h]⟩
  | append_singleton calls call ih =>
    obtain ⟨hNonneg, tail, hTail, hCount⟩ := ih
    have hSnoc : tail ++ [call] <:+ calls ++ [call] := by
      obtain ⟨before, rfl⟩ := hTail
      exact ⟨before, by rw [List.append_assoc]⟩
    rw [runCalls_snoc]
    cases call with
    | beginDispatch =>
      refine ⟨by simp only [GateCall.apply, RiskGate.beginDispatch]; omega, _, hSnoc, ?_⟩
      simp only [GateCall.apply, RiskGate.beginDispatch, List.countP_append, List.countP_singleton,
        GateCall.isBegin, GateCall.isEnd, if_true, Bool.false_eq_true, if_false]
      omega
    | endDispatch =>
      refine ⟨le_max_left _ _, ?_⟩
      by_cases hHeld : 0 < (runCalls start calls).inFlight
      · refine ⟨_, hSnoc, ?_⟩
        simp only [GateCall.apply, RiskGate.endDispatch, List.countP_append, List.countP_singleton,
          GateCall.isBegin, GateCall.isEnd, if_true, Bool.false_eq_true, if_false]
        omega
      · refine ⟨[], List.nil_suffix, ?_⟩
        simp only [GateCall.apply, RiskGate.endDispatch, List.countP_nil]
        omega
    | check c nowMs =>
      have hSame : ((runCalls start calls).check c nowMs).2.inFlight =
          (runCalls start calls).inFlight := by
        rcases (runCalls start calls).check_gate c nowMs with h | h <;> rw [h]
        rfl
      refine ⟨by rw [GateCall.apply, hSame]; exact hNonneg, _, hSnoc, ?_⟩
      rw [GateCall.apply, hSame, hCount]
      simp [GateCall.isBegin, GateCall.isEnd]
    | recordFill ticker fillCount nowMs =>
      refine ⟨by rw [GateCall.apply, RiskGate.recordFill_eq]; exact hNonneg, _, hSnoc, ?_⟩
      rw [GateCall.apply, RiskGate.recordFill_eq, hCount]
      simp [GateCall.isBegin, GateCall.isEnd]
    | recordAttempt | reconcileOpenPositions =>
      refine ⟨hNonneg, _, hSnoc, hCount.trans ?_⟩
      simp [GateCall.isBegin, GateCall.isEnd]

theorem inFlight_of_allEnded (start : RiskGate) (h : start.inFlight = 0) {calls : List GateCall}
    (hEnded : AllEnded calls) : (runCalls start calls).inFlight = 0 := by
  obtain ⟨hNonneg, tail, hTail, hCount⟩ := inFlight_eq_tail start h calls
  have := hEnded tail hTail
  omega

/-- The three baselines are those of one reconciliation. -/
def BaselineOf (openPositions : Dict String ℚ) (g : RiskGate) : Prop :=
  g.reconciledPositionByTicker = openPositions ∧
    (∃ known, g.reconciledPositionByGroup = RiskGate.aggregate known true openPositions) ∧
    g.reconciledPositionByEvent = RiskGate.aggregate eventTickerOf false openPositions

theorem latestReconciliation_snoc (calls : List GateCall) (call : GateCall) :
    latestReconciliation (calls ++ [call]) = call.reconciled?.or (latestReconciliation calls) := by
  rw [latestReconciliation, List.filterMap_append, List.getLast?_append, latestReconciliation]
  cases call <;> rfl

theorem baseline_run (start : RiskGate) (h : BaselineOf ∅ start) (calls : List GateCall) :
    BaselineOf ((latestReconciliation calls).getD ∅) (runCalls start calls) := by
  induction calls using List.reverseRecOn with
  | nil => exact h
  | append_singleton calls call ih =>
    rw [runCalls_snoc, latestReconciliation_snoc]
    cases call with
    | reconcileOpenPositions openPositions snapshotAtMs => exact ⟨rfl, ⟨_, rfl⟩, rfl⟩
    | check c nowMs =>
      rcases (runCalls start calls).check_gate c nowMs with h | h <;> rw [GateCall.apply, h] <;>
        exact ih
    | recordFill ticker fillCount nowMs =>
      rw [GateCall.apply, RiskGate.recordFill_eq]
      exact ih
    | recordAttempt | beginDispatch | endDispatch => exact ih

structure Stale (nowMs : ℤ) (g : RiskGate) : Prop where
  attempts : ∀ a ∈ g.attempts, a.requestedAtMs < nowMs - dayMs
  fills : ∀ f ∈ g.fills, f.recordedAtMs < nowMs - dayMs
  cooled : ∀ key last, g.lastAttemptMs.lookup key = some last →
    g.limits.refireCooldownSeconds * 1000 ≤ ((nowMs - last : ℤ) : ℚ)

theorem Stale.step {nowMs : ℤ} {g : RiskGate} {call : GateCall} (h : Stale nowMs g)
    (hOld : call.OldAt g.limits nowMs) : Stale nowMs (call.apply g) := by
  cases call with
  | check c t =>
    rw [GateCall.apply]
    rcases g.check_gate c t with hGate | hGate <;> rw [hGate]
    · exact h
    · exact ⟨fun a ha => h.attempts a ((pruneBefore_suffix _ _ _).subset ha),
        fun f hf => h.fills f ((pruneBefore_suffix _ _ _).subset hf), h.cooled⟩
  | recordAttempt a =>
    obtain ⟨hDay, hCooled⟩ := hOld
    refine ⟨?_, h.fills, ?_⟩
    · intro b hb
      rcases List.mem_append.mp hb with hb | hb
      · exact h.attempts b hb
      · rw [List.mem_singleton.mp hb]
        show a.nowMs < nowMs - dayMs
        omega
    · intro key last hLast
      by_cases hKey : key = (a.ticker, a.direction)
      · subst hKey
        obtain rfl : a.nowMs = last := Option.some.inj ((AList.lookup_insert _).symm.trans hLast)
        exact hCooled
      · exact h.cooled key last ((AList.lookup_insert_ne hKey).symm.trans hLast)
  | recordFill ticker fillCount t =>
    rcases lt_or_ge 0 fillCount with hPos | hPos
    · rw [GateCall.apply, g.recordFill_of_pos _ _ hPos]
      refine ⟨h.attempts, ?_, h.cooled⟩
      intro f hf
      rcases List.mem_append.mp hf with hf | hf
      · exact h.fills f hf
      · have := hOld hPos
        rw [List.mem_singleton.mp hf]
        show t < nowMs - dayMs
        omega
    · rw [GateCall.apply, g.recordFill_of_nonpos _ _ hPos]
      exact h
  | reconcileOpenPositions | beginDispatch | endDispatch =>
    exact ⟨h.attempts, h.fills, h.cooled⟩

theorem stale_run {nowMs : ℤ} {start : RiskGate} (h : Stale nowMs start) {calls : List GateCall}
    (hOld : ∀ call ∈ calls, call.OldAt start.limits nowMs) : Stale nowMs (runCalls start calls) := by
  induction calls using List.reverseRecOn with
  | nil => exact h
  | append_singleton calls call ih =>
    rw [runCalls_snoc]
    apply (ih fun x hx => hOld x (List.mem_append_left _ hx)).step
    rw [runCalls_limits]
    exact hOld call (List.mem_append_right _ List.mem_cons_self)

theorem warmStart_snoc (limits : RiskLimits) (rows : List RiskGate.FetchedOrder)
    (row : RiskGate.FetchedOrder) : RiskGate.warmStart limits (rows ++ [row]) =
      (RiskGate.warmStart limits rows).warmStartRow row := by
  simp [RiskGate.warmStart]

theorem warmStart_fresh (limits : RiskLimits) (rows : List RiskGate.FetchedOrder) :
    (RiskGate.warmStart limits rows).limits = limits ∧
      (RiskGate.warmStart limits rows).inFlight = 0 ∧
      (RiskGate.warmStart limits rows).reconciledAtMs = 0 ∧
      BaselineOf ∅ (RiskGate.warmStart limits rows) := by
  induction rows using List.reverseRecOn with
  | nil => exact ⟨rfl, rfl, rfl, rfl, ⟨fun _ => "", rfl⟩, rfl⟩
  | append_singleton rows row ih =>
    rw [warmStart_snoc]
    exact ih

theorem mem_warmStartFill {row : RiskGate.FetchedOrder} {f : Fill}
    (h : f ∈ RiskGate.warmStartFill row) : f.recordedAtMs = row.requestedAtMs := by
  unfold RiskGate.warmStartFill at h
  split at h
  · cases h
  · split at h
    · rw [List.mem_singleton.mp h]
    · cases h

theorem warmStart_stale {limits : RiskLimits} {rows : List RiskGate.FetchedOrder} {nowMs : ℤ}
    (hOld : ∀ row ∈ rows, 0 ≤ row.requestedAtMs ∧ row.requestedAtMs + dayMs < nowMs ∧
      limits.refireCooldownSeconds * 1000 ≤ ((nowMs - row.requestedAtMs : ℤ) : ℚ)) :
    Stale nowMs (RiskGate.warmStart limits rows) := by
  induction rows using List.reverseRecOn with
  | nil => exact ⟨nofun, nofun, nofun⟩
  | append_singleton rows row ih =>
    obtain ⟨hEpoch, hDay, hCooled⟩ := hOld row (List.mem_append_right _ List.mem_cons_self)
    have h := ih fun r hr => hOld r (List.mem_append_left _ hr)
    have hLimits := (warmStart_fresh limits rows).1
    rw [warmStart_snoc]
    refine ⟨?_, ?_, ?_⟩
    · intro a ha
      rcases List.mem_append.mp ha with ha | ha
      · exact h.attempts a ha
      · rw [List.mem_singleton.mp ha]
        show row.requestedAtMs < nowMs - dayMs
        omega
    · intro f hf
      rcases List.mem_append.mp hf with hf | hf
      · exact h.fills f hf
      · rw [mem_warmStartFill hf]
        omega
    · intro key last hLast
      show (RiskGate.warmStart limits rows).limits.refireCooldownSeconds * 1000 ≤ _
      by_cases hKey : key = (row.ticker, row.outcomeSide)
      · subst hKey
        have hMax := Option.some.inj ((AList.lookup_insert _).symm.trans hLast)
        cases hBefore : (RiskGate.warmStart limits rows).lastAttemptMs.lookup
            (row.ticker, row.outcomeSide) with
        | none =>
          rw [hBefore, Option.getD_none, max_eq_right hEpoch] at hMax
          rw [← hMax, hLimits]
          exact hCooled
        | some before =>
          rw [hBefore, Option.getD_some] at hMax
          rcases max_choice before row.requestedAtMs with hChoice | hChoice <;>
            rw [← hMax, hChoice]
          · exact h.cooled _ _ hBefore
          · rw [hLimits]
            exact hCooled
      · exact h.cooled key last ((AList.lookup_insert_ne hKey).symm.trans hLast)

structure FitsAlone (limits : RiskLimits) (c : Candidate) : Prop where
  shard : c.exchangeIndex ∈ limits.allowedExchangeIndexes
  slots : 1 ≤ limits.maxConcurrentDispatches
  perHour : 1 ≤ limits.maxAttemptsPerHour
  perDay : 1 ≤ limits.maxAttemptsPerDay
  perTicker : 1 ≤ limits.maxAttemptsPerTickerPerDay
  perEvent : 1 ≤ limits.maxAttemptsPerEventPerDay
  perGroup : 1 ≤ limits.maxAttemptsPerCorrelationGroupPerDay
  notional : c.notional ≤ limits.maxNotionalPerDayDollars
  tickerPosition : (c.count : ℚ) ≤ limits.maxPositionContractsPerTicker
  eventPosition : (c.count : ℚ) ≤ limits.maxPositionContractsPerEvent
  groupPosition : (c.count : ℚ) ≤ limits.maxPositionContractsPerCorrelationGroup

theorem Stale.unconfirmed {nowMs : ℤ} {g : RiskGate} (h : Stale nowMs g) (on : Fill → Bool) :
    g.unconfirmed on nowMs = 0 := by
  have hNone : (g.fills.filter fun f =>
      on f ∧ max g.reconciledAtMs (nowMs - dayMs) ≤ f.recordedAtMs) = [] := by
    rw [List.filter_eq_nil_iff]
    intro f hf hIn
    have hOld := h.fills f hf
    have hLate := (of_decide_eq_true hIn).2
    omega
  rw [RiskGate.unconfirmed, hNone, total_nil]

theorem Stale.admits {nowMs : ℤ} {g : RiskGate} {c : Candidate} (h : Stale nowMs g)
    (hSlots : g.inFlight = 0) (hBaseline : BaselineOf ∅ g) (hFits : FitsAlone g.limits c) :
    g.Admits c nowMs := by
  obtain ⟨hTicker, ⟨known, hGroup⟩, hEvent⟩ := hBaseline
  have hAttempts : (g.prune nowMs).attempts = [] := pruneBefore_eq_nil _ h.attempts
  have hNoTicker : g.positionForTicker c.ticker nowMs = 0 := by
    rw [RiskGate.positionForTicker, h.unconfirmed, hTicker, add_zero]
    rfl
  have hNoEvent : g.positionForEvent (eventTickerOf c.ticker) nowMs = 0 := by
    rw [RiskGate.positionForEvent, h.unconfirmed, hEvent, add_zero]
    rfl
  have hNoGroup : g.positionForGroup c.correlationGroup nowMs = 0 := by
    rw [RiskGate.positionForGroup, h.unconfirmed, hGroup, add_zero]
    rfl
  refine ⟨hFits.shard, ?_, fun last hLast => h.cooled _ _ hLast, ?_, ?_, ?_, ?_, ?_, ?_, ?_, ?_, ?_⟩
  · have := hFits.slots
    omega
  · rw [hAttempts]
    exact hFits.perHour
  · rw [hAttempts]
    exact hFits.perDay
  · rw [hAttempts]
    exact hFits.perTicker
  · rw [hAttempts]
    exact hFits.perEvent
  · intro _
    rw [hAttempts]
    exact hFits.perGroup
  · rw [hAttempts, total_nil, zero_add]
    exact hFits.notional
  · rw [hNoTicker, zero_add]
    exact hFits.tickerPosition
  · rw [hNoEvent, zero_add]
    exact hFits.eventPosition
  · intro _
    rw [hNoGroup, zero_add]
    exact hFits.groupPosition

/-- From a gate built empty (no rows) or warm-started from any rows, after any calls
at all: once everything recorded is old, nothing is in flight and the latest
reconciliation was empty, every order that fits the limits on its own is admitted. -/
theorem gate_reopens (limits : RiskLimits) (rows : List RiskGate.FetchedOrder)
    (calls : List GateCall) (c : Candidate) (nowMs : ℤ) (hEnded : AllEnded calls)
    (hReconciled : ∀ openPositions, latestReconciliation calls = some openPositions →
      openPositions = ∅)
    (hRows : ∀ row ∈ rows, 0 ≤ row.requestedAtMs ∧ row.requestedAtMs + dayMs < nowMs ∧
      limits.refireCooldownSeconds * 1000 ≤ ((nowMs - row.requestedAtMs : ℤ) : ℚ))
    (hCalls : ∀ call ∈ calls, call.OldAt limits nowMs) (hFits : FitsAlone limits c) :
    ((runCalls (RiskGate.warmStart limits rows) calls).check c nowMs).1 = none := by
  obtain ⟨hLimits, hSlots, _, hBaseline⟩ := warmStart_fresh limits rows
  rw [RiskGate.check_eq_none_iff]
  have hLatest : (latestReconciliation calls).getD ∅ = (∅ : Dict String ℚ) := by
    cases hLast : latestReconciliation calls with
    | none => rfl
    | some openPositions => exact hReconciled openPositions hLast
  apply (stale_run (warmStart_stale hRows) (by rwa [hLimits])).admits
  · exact inFlight_of_allEnded _ hSlots hEnded
  · exact hLatest ▸ baseline_run _ hBaseline calls
  · rwa [runCalls_limits, hLimits]

/-- The lock-up of the incident on one ticker: five contracts filled, then nothing for a day. -/
theorem gate_reopens_after_full_ladder :
    ((runCalls (RiskGate.warmStart { allowedExchangeIndexes := {0} } [])
      [.recordAttempt ⟨"KX-A-1", "yes", 5, 1 / 2, 1000, "majors"⟩, .beginDispatch,
        .recordFill "KX-A-1" 5 2000, .endDispatch]).check
      ⟨"KX-A-1", "yes", 0, 5, 1 / 2, "majors"⟩ 86402001).1 = none := by
  apply gate_reopens
  · intro tail hTail
    have hMem := (List.mem_tails _ _).mpr hTail
    clear hTail
    revert tail
    decide
  · nofun
  · nofun
  · simp only [List.forall_mem_cons, GateCall.OldAt, dayMs]
    refine ⟨?_, trivial, ?_, trivial, nofun⟩ <;> norm_num
  · constructor <;> decide +kernel

end KalshiBot.Risk

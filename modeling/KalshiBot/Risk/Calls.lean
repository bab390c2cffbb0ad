import KalshiBot.Risk.Admission

/-! # Sequences of calls on the gate

One call is one method of the source with its arguments. A sequence is in order
when the clock readings handed to the gate never decrease; the snapshot time of a
reconciliation is not a clock reading and stays free.
-/

namespace KalshiBot.Risk

open PythonText RollingWindow

set_option autoImplicit false

structure WireAttempt where
  ticker : String
  direction : String
  count : ℤ
  priceDollars : ℚ
  nowMs : ℤ
  correlationGroup : String
  deriving DecidableEq

namespace WireAttempt

def notional (a : WireAttempt) : ℚ := a.count * a.priceDollars

def entry (a : WireAttempt) : Attempt := ⟨a.nowMs, a.ticker, a.correlationGroup, a.notional⟩

def Matches (a : WireAttempt) (c : Candidate) : Prop :=
  a.ticker = c.ticker ∧ a.direction = c.direction ∧ a.count = c.count ∧
    a.priceDollars = c.priceDollars ∧ a.correlationGroup = c.correlationGroup

end WireAttempt

inductive GateCall where
  | check (c : Candidate) (nowMs : ℤ)
  | recordAttempt (a : WireAttempt)
  | recordFill (ticker : String) (fillCount : ℚ) (nowMs : ℤ)
  | reconcileOpenPositions (openPositions : Dict String ℚ) (snapshotAtMs : ℤ)
  | beginDispatch
  | endDispatch

namespace GateCall

def nowMs? : GateCall → Option ℤ
  | check _ nowMs => some nowMs
  | recordAttempt a => some a.nowMs
  | recordFill _ _ nowMs => some nowMs
  | reconcileOpenPositions _ _ | beginDispatch | endDispatch => none

def attempt? : GateCall → Option WireAttempt
  | recordAttempt a => some a
  | _ => none

def apply (g : RiskGate) : GateCall → RiskGate
  | check c nowMs => (g.check c nowMs).2
  | recordAttempt a =>
    g.recordAttempt a.ticker a.direction a.count a.priceDollars a.nowMs a.correlationGroup
  | recordFill ticker fillCount nowMs => g.recordFill ticker fillCount nowMs
  | reconcileOpenPositions openPositions snapshotAtMs =>
    g.reconcileOpenPositions openPositions snapshotAtMs
  | beginDispatch => g.beginDispatch
  | endDispatch => g.endDispatch

end GateCall

def runCalls (g : RiskGate) (calls : List GateCall) : RiskGate := calls.foldl GateCall.apply g

def attemptsOf (calls : List GateCall) : List WireAttempt := calls.filterMap GateCall.attempt?

def timesOf (calls : List GateCall) : List ℤ := calls.filterMap GateCall.nowMs?

def InOrder (calls : List GateCall) : Prop := (timesOf calls).Pairwise (· ≤ ·)

@[simp] theorem runCalls_nil (g : RiskGate) : runCalls g [] = g := rfl

@[simp] theorem runCalls_snoc (g : RiskGate) (calls : List GateCall) (call : GateCall) :
    runCalls g (calls ++ [call]) = call.apply (runCalls g calls) := by
  simp [runCalls]

theorem attemptsOf_snoc (calls : List GateCall) (call : GateCall) :
    attemptsOf (calls ++ [call]) = attemptsOf calls ++ call.attempt?.toList := by
  rw [attemptsOf, List.filterMap_append, List.filterMap_cons, List.filterMap_nil, attemptsOf]
  cases call.attempt? <;> rfl

theorem timesOf_snoc (calls : List GateCall) (call : GateCall) :
    timesOf (calls ++ [call]) = timesOf calls ++ call.nowMs?.toList := by
  rw [timesOf, List.filterMap_append, List.filterMap_cons, List.filterMap_nil, timesOf]
  cases call.nowMs? <;> rfl

theorem InOrder.before {calls : List GateCall} {call : GateCall} (h : InOrder (calls ++ [call])) :
    InOrder calls := by
  rw [InOrder, timesOf_snoc] at h
  exact (List.pairwise_append.mp h).1

theorem InOrder.le_last {calls : List GateCall} {call : GateCall} {nowMs t : ℤ}
    (h : InOrder (calls ++ [call])) (hNow : call.nowMs? = some nowMs) (ht : t ∈ timesOf calls) :
    t ≤ nowMs := by
  rw [InOrder, timesOf_snoc, hNow] at h
  exact (List.pairwise_append.mp h).2.2 t ht nowMs (by simp)

theorem time_of_attempt {calls : List GateCall} {a : WireAttempt} (h : a ∈ attemptsOf calls) :
    a.nowMs ∈ timesOf calls := by
  obtain ⟨call, hCall, ha⟩ := List.mem_filterMap.mp h
  cases call <;> cases ha
  exact List.mem_filterMap.mpr ⟨_, hCall, rfl⟩

theorem apply_limits (g : RiskGate) (call : GateCall) : (call.apply g).limits = g.limits := by
  cases call with
  | check c nowMs =>
    rcases g.check_gate c nowMs with h | h <;> simp only [GateCall.apply, h, RiskGate.prune_limits]
  | recordFill ticker fillCount nowMs => rw [GateCall.apply, RiskGate.recordFill_eq]
  | recordAttempt | reconcileOpenPositions | beginDispatch | endDispatch => rfl

theorem runCalls_limits (g : RiskGate) (calls : List GateCall) :
    (runCalls g calls).limits = g.limits := by
  induction calls using List.reverseRecOn with
  | nil => rfl
  | append_singleton calls call ih => rw [runCalls_snoc, apply_limits, ih]

/-- Every call either only prunes the attempts, at its own time, or records one. -/
theorem apply_attempts (g : RiskGate) (call : GateCall) :
    (∃ a, call = .recordAttempt a ∧ (call.apply g).attempts = g.attempts ++ [a.entry] ∧
      (call.apply g).lastAttemptMs = g.lastAttemptMs.insert (a.ticker, a.direction) a.nowMs) ∨
    (call.attempt? = none ∧ (call.apply g).lastAttemptMs = g.lastAttemptMs ∧
      ((call.apply g).attempts = g.attempts ∨ ∃ nowMs, call.nowMs? = some nowMs ∧
        (call.apply g).attempts = pruneBefore Attempt.requestedAtMs (nowMs - dayMs) g.attempts)) := by
  cases call with
  | check c nowMs =>
    right
    rcases g.check_gate c nowMs with h | h
    · exact ⟨rfl, by rw [GateCall.apply, h], .inl (by rw [GateCall.apply, h])⟩
    · exact ⟨rfl, by rw [GateCall.apply, h, RiskGate.prune_lastAttemptMs],
        .inr ⟨nowMs, rfl, by rw [GateCall.apply, h]; rfl⟩⟩
  | recordAttempt a =>
    exact .inl ⟨a, rfl, rfl, rfl⟩
  | recordFill ticker fillCount nowMs =>
    right
    refine ⟨rfl, ?_, .inl ?_⟩ <;> rw [GateCall.apply, RiskGate.recordFill_eq]
  | reconcileOpenPositions | beginDispatch | endDispatch => exact .inr ⟨rfl, rfl, .inl rfl⟩

end KalshiBot.Risk

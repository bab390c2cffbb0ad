import KalshiBot.Library.Runs
import KalshiBot.Risk.Calls

/-! # Checks leave no trace

A run in which positions are read between the calls, and the run without some of its
checks. A check drops old entries at the front of the two deques and nothing else, so
what is left out of the run was never seen by anything after it.
-/

namespace KalshiBot.Risk

open PythonText RollingWindow Runs

set_option autoImplicit false

inductive GateOperation where
  | call (call : GateCall)
  | positionForTicker (ticker : String) (nowMs : ℤ)
  | positionForEvent (eventTicker : String) (nowMs : ℤ)
  | positionForGroup (correlationGroup : String) (nowMs : ℤ)

inductive GateAnswer where
  | done
  | verdict (verdict : Option Rejection)
  | contracts (contracts : ℚ)

namespace GateOperation

def IsCheck : GateOperation → Prop
  | call (.check _ _) => True
  | _ => False

def nowMs? : GateOperation → Option ℤ
  | call gateCall => gateCall.nowMs?
  | positionForTicker _ nowMs | positionForEvent _ nowMs | positionForGroup _ nowMs => some nowMs

def apply (g : RiskGate) : GateOperation → RiskGate
  | call gateCall => gateCall.apply g
  | positionForTicker _ _ | positionForEvent _ _ | positionForGroup _ _ => g

def answer (g : RiskGate) : GateOperation → GateAnswer
  | call (.check c nowMs) => .verdict (g.check c nowMs).1
  | call _ => .done
  | positionForTicker ticker nowMs => .contracts (g.positionForTicker ticker nowMs)
  | positionForEvent eventTicker nowMs => .contracts (g.positionForEvent eventTicker nowMs)
  | positionForGroup correlationGroup nowMs =>
    .contracts (g.positionForGroup correlationGroup nowMs)

end GateOperation

namespace RiskGate

/-- Nothing that looks at the gates from this moment on can tell them apart. -/
structure SameSince (nowMs : ℤ) (g h : RiskGate) : Prop where
  limits : g.limits = h.limits
  attempts : SameFrom Attempt.requestedAtMs (nowMs - dayMs) g.attempts h.attempts
  lastAttemptMs : g.lastAttemptMs = h.lastAttemptMs
  fills : SameFrom Fill.recordedAtMs (nowMs - dayMs) g.fills h.fills
  correlationGroupByTicker : g.correlationGroupByTicker = h.correlationGroupByTicker
  reconciledPositionByTicker : g.reconciledPositionByTicker = h.reconciledPositionByTicker
  reconciledPositionByGroup : g.reconciledPositionByGroup = h.reconciledPositionByGroup
  reconciledPositionByEvent : g.reconciledPositionByEvent = h.reconciledPositionByEvent
  reconciledAtMs : g.reconciledAtMs = h.reconciledAtMs
  inFlight : g.inFlight = h.inFlight

namespace SameSince

variable {nowMs : ℤ} {g h : RiskGate}

theorem refl (nowMs : ℤ) (g : RiskGate) : SameSince nowMs g g :=
  ⟨rfl, .refl _ _, rfl, .refl _ _, rfl, rfl, rfl, rfl, rfl, rfl⟩

theorem mono (hSame : SameSince nowMs g h) {laterMs : ℤ} (hLater : nowMs ≤ laterMs) :
    SameSince laterMs g h :=
  { hSame with
    attempts := hSame.attempts.mono (by omega)
    fills := hSame.fills.mono (by omega) }

theorem prune_left (hSame : SameSince nowMs g h) : SameSince nowMs (g.prune nowMs) h :=
  { hSame with
    attempts := hSame.attempts.prune_left
    fills := hSame.fills.prune_left }

theorem prune_eq (hSame : SameSince nowMs g h) : g.prune nowMs = h.prune nowMs := by
  have hAttempts := hSame.attempts _ le_rfl
  have hFills := hSame.fills _ le_rfl
  obtain ⟨⟩ := g
  obtain ⟨⟩ := h
  obtain ⟨rfl, -, rfl, -, rfl, rfl, rfl, rfl, rfl, rfl⟩ := hSame
  simp only [prune, hAttempts, hFills]

theorem unconfirmed_eq (hSame : SameSince nowMs g h) (on : Fill → Bool) :
    g.unconfirmed on nowMs = h.unconfirmed on nowMs := by
  rw [unconfirmed, unconfirmed, hSame.reconciledAtMs]
  refine congrArg (total Fill.fillCount) (hSame.fills.filter_eq ?_)
  intro f hf
  simp only [Bool.decide_and, Bool.decide_eq_true, Bool.and_eq_false_iff, decide_eq_false_iff_not,
    sup_le_iff, not_le]
  omega

theorem groupOf_eq (hSame : SameSince nowMs g h) : g.groupOf = h.groupOf := by
  funext ticker
  rw [groupOf, groupOf, hSame.correlationGroupByTicker]

theorem checkEarly_eq (hSame : SameSince nowMs g h) (c : Candidate) (atMs : ℤ) :
    g.checkEarly c atMs = h.checkEarly c atMs := by
  rw [checkEarly, checkEarly, hSame.limits, hSame.inFlight, hSame.lastAttemptMs]

theorem check_verdict (hSame : SameSince nowMs g h) (c : Candidate) :
    (g.check c nowMs).1 = (h.check c nowMs).1 := by
  rw [check, check, hSame.checkEarly_eq, hSame.prune_eq]
  cases h.checkEarly c nowMs <;> rfl

theorem check_left (hSame : SameSince nowMs g h) (c : Candidate) :
    SameSince nowMs (g.check c nowMs).2 h := by
  obtain hKept | hPruned := g.check_gate c nowMs
  · rwa [hKept]
  · rw [hPruned]
    exact hSame.prune_left

theorem check (hSame : SameSince nowMs g h) (c : Candidate) :
    SameSince nowMs (g.check c nowMs).2 (h.check c nowMs).2 := by
  rw [RiskGate.check, RiskGate.check, hSame.checkEarly_eq, hSame.prune_eq]
  cases h.checkEarly c nowMs with
  | some rejection => exact hSame
  | none => exact .refl _ _

theorem recordFill (hSame : SameSince nowMs g h) (ticker : String) (fillCount : ℚ) (atMs : ℤ) :
    SameSince nowMs (g.recordFill ticker fillCount atMs) (h.recordFill ticker fillCount atMs) := by
  obtain hPos | hNot := lt_or_ge 0 fillCount
  · rw [g.recordFill_of_pos _ _ hPos, h.recordFill_of_pos _ _ hPos, hSame.groupOf_eq]
    exact { hSame with fills := hSame.fills.append _ }
  · rwa [g.recordFill_of_nonpos _ _ hNot, h.recordFill_of_nonpos _ _ hNot]

theorem recordAttempt (hSame : SameSince nowMs g h) (ticker direction : String) (count : ℤ)
    (priceDollars : ℚ) (atMs : ℤ) (correlationGroup : String) :
    SameSince nowMs (g.recordAttempt ticker direction count priceDollars atMs correlationGroup)
      (h.recordAttempt ticker direction count priceDollars atMs correlationGroup) :=
  { hSame with
    attempts := hSame.attempts.append _
    lastAttemptMs := congrArg (AList.insert _ _) hSame.lastAttemptMs
    correlationGroupByTicker :=
      congrArg (learnGroup · ticker correlationGroup) hSame.correlationGroupByTicker }

theorem reconcileOpenPositions (hSame : SameSince nowMs g h) (openPositions : Dict String ℚ)
    (snapshotAtMs : ℤ) : SameSince nowMs (g.reconcileOpenPositions openPositions snapshotAtMs)
      (h.reconcileOpenPositions openPositions snapshotAtMs) :=
  { hSame with
    reconciledPositionByTicker := rfl
    reconciledPositionByGroup := congrArg (aggregate · true openPositions) hSame.groupOf_eq
    reconciledPositionByEvent := rfl
    reconciledAtMs := rfl }

theorem apply (hSame : SameSince nowMs g h) (op : GateOperation)
    (hNow : ∀ moment ∈ op.nowMs?, moment = nowMs) : SameSince nowMs (op.apply g) (op.apply h) := by
  cases op with
  | call gateCall =>
    cases gateCall with
    | check c atMs =>
      obtain rfl : atMs = nowMs := hNow atMs rfl
      exact hSame.check c
    | recordAttempt a => exact hSame.recordAttempt _ _ _ _ _ _
    | recordFill ticker fillCount atMs => exact hSame.recordFill ticker fillCount atMs
    | reconcileOpenPositions positions atMs => exact hSame.reconcileOpenPositions positions atMs
    | beginDispatch => exact { hSame with inFlight := congrArg (· + 1) hSame.inFlight }
    | endDispatch => exact { hSame with inFlight := congrArg (max 0 <| · - 1) hSame.inFlight }
  | positionForTicker | positionForEvent | positionForGroup => exact hSame

theorem answer_eq (hSame : SameSince nowMs g h) (op : GateOperation)
    (hNow : ∀ moment ∈ op.nowMs?, moment = nowMs) : op.answer g = op.answer h := by
  cases op with
  | call gateCall =>
    cases gateCall with
    | check c atMs =>
      obtain rfl : atMs = nowMs := hNow atMs rfl
      exact congrArg GateAnswer.verdict (hSame.check_verdict c)
    | _ => rfl
  | positionForTicker ticker atMs =>
    obtain rfl : atMs = nowMs := hNow atMs rfl
    refine congrArg GateAnswer.contracts ?_
    rw [positionForTicker, positionForTicker, hSame.reconciledPositionByTicker,
      hSame.unconfirmed_eq]
  | positionForEvent eventTicker atMs =>
    obtain rfl : atMs = nowMs := hNow atMs rfl
    refine congrArg GateAnswer.contracts ?_
    rw [positionForEvent, positionForEvent, hSame.reconciledPositionByEvent, hSame.unconfirmed_eq]
  | positionForGroup correlationGroup atMs =>
    obtain rfl : atMs = nowMs := hNow atMs rfl
    refine congrArg GateAnswer.contracts ?_
    rw [positionForGroup, positionForGroup, hSame.reconciledPositionByGroup, hSame.unconfirmed_eq]

end SameSince

end RiskGate

/-- The answers to a run, and those of the same run without the checks marked in it. -/
theorem removed_checks_leave_no_trace (g : RiskGate) {run : List (GateOperation × Bool)}
    (hChecks : ∀ op, (op, true) ∈ run → op.IsCheck)
    (hOrder : Chronological GateOperation.nowMs? (run.map Prod.fst)) :
    unmarked ((answers GateOperation.apply GateOperation.answer g (run.map Prod.fst)).zip
        (run.map Prod.snd)) =
      answers GateOperation.apply GateOperation.answer g (unmarked run) := by
  have hLater : ∀ nowMs laterMs g h, nowMs ≤ laterMs → RiskGate.SameSince nowMs g h →
      RiskGate.SameSince laterMs g h := fun _ _ _ _ hLater hSame => hSame.mono hLater
  refine answers_unmarked hLater ?_ ?_ ?_ hChecks hOrder (.refl · g)
  · intro nowMs g h op hNow hSame
    exact hSame.answer_eq op hNow
  · intro nowMs g h op hNow hSame
    exact hSame.apply op hNow
  · intro nowMs g h op hCheck hNow hSame
    cases op with
    | call gateCall =>
      cases gateCall with
      | check c atMs =>
        obtain rfl : atMs = nowMs := hNow atMs rfl
        exact hSame.check_left c
      | _ => cases hCheck
    | _ => cases hCheck

/-- Two checks, the first of them a day later than the attempt it prunes, between two readings. -/
def checkedTwice : List (GateOperation × Bool) :=
  [(.call (.recordAttempt ⟨"KX-A-1", "yes", 1, 1 / 2, 1000, ""⟩), false),
    (.call (.check ⟨"KX-A-1", "yes", 0, 1, 1 / 2, ""⟩ 90000000), true),
    (.positionForTicker "KX-A-1" 90000000, false),
    (.call (.check ⟨"KX-A-1", "yes", 0, 1, 1 / 2, ""⟩ 90000001), false)]

theorem checkedTwice_leaves_no_trace :
    unmarked ((answers GateOperation.apply GateOperation.answer
        { limits := { allowedExchangeIndexes := {0} } } (checkedTwice.map Prod.fst)).zip
          (checkedTwice.map Prod.snd)) =
      answers GateOperation.apply GateOperation.answer
        { limits := { allowedExchangeIndexes := {0} } } (unmarked checkedTwice) := by
  refine removed_checks_leave_no_trace _ ?_ (by decide)
  intro op hOp
  simp only [checkedTwice, List.mem_cons, Prod.mk.injEq, Bool.true_eq_false, and_false,
    and_true, List.not_mem_nil, or_false, false_or] at hOp
  rw [hOp]
  trivial

end KalshiBot.Risk

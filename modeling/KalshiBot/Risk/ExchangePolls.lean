import Mathlib.Algebra.Order.Group.Unbundled.Abs
import Mathlib.Algebra.Order.Ring.Rat
import Mathlib.Data.Rat.Cast.Order
import KalshiBot.Library.Runs
import KalshiBot.Risk.Calls

/-! # The position ledger against the exchange

Orders execute on the exchange, their responses reach `record_fill` later, and a poll
of the positions is issued, served and processed at three further moments. Whatever
the order of these, the ledger accounts for all that the exchange holds apart from
executions whose response is still under way.
-/

namespace KalshiBot.Risk

open PythonText RollingWindow Runs Relation

set_option autoImplicit false

/-- An executed order. Contracts on the two sides of a ticker change its net position
in opposite directions. -/
structure Execution where
  ticker : String
  change : ℚ

def Execution.contracts (e : Execution) : ℚ := |e.change|

inductive Poll where
  | idle
  | issued (snapshotAtMs : ℤ)
  | served (snapshotAtMs : ℤ) (openPositions : Dict String ℚ)

structure World where
  clock : ℤ
  net : String → ℚ
  awaiting : List Execution
  poll : Poll
  lastSnapshotAtMs : Option ℤ
  gate : RiskGate

/-- What `/portfolio/positions` lists: absolute net positions, zero ones left out. -/
def Reports (openPositions : Dict String ℚ) (net : String → ℚ) : Prop :=
  ∀ ticker, openPositions.lookup ticker = if net ticker = 0 then none else some |net ticker|

inductive World.Step : World → World → Prop
  | tick (w : World) (nowMs : ℤ) (hNow : w.clock ≤ nowMs) : Step w { w with clock := nowMs }
  | execute (w : World) (e : Execution) :
      Step w { w with
        net := Function.update w.net e.ticker (w.net e.ticker + e.change)
        awaiting := w.awaiting ++ [e] }
  | respond (w : World) (before after : List Execution) (e : Execution)
      (hAwaiting : w.awaiting = before ++ e :: after) :
      Step w { w with
        awaiting := before ++ after
        gate := w.gate.recordFill e.ticker e.contracts w.clock }
  | settle (w : World) (ticker : String) (left : ℚ) (hLeft : |left| ≤ |w.net ticker|) :
      Step w { w with net := Function.update w.net ticker left }
  | issue (w : World) (hIdle : w.poll = .idle) : Step w { w with poll := .issued w.clock }
  | serve (w : World) (snapshotAtMs : ℤ) (openPositions : Dict String ℚ)
      (hIssued : w.poll = .issued snapshotAtMs) (hReports : Reports openPositions w.net) :
      Step w { w with poll := .served snapshotAtMs openPositions }
  | process (w : World) (snapshotAtMs : ℤ) (openPositions : Dict String ℚ)
      (hServed : w.poll = .served snapshotAtMs openPositions) :
      Step w { w with
        poll := .idle
        lastSnapshotAtMs := some snapshotAtMs
        gate := w.gate.reconcileOpenPositions openPositions snapshotAtMs }
  | fail (w : World) : Step w { w with poll := .idle }
  | check (w : World) (c : Candidate) : Step w { w with gate := (w.gate.check c w.clock).2 }
  | recordAttempt (w : World) (ticker direction : String) (count : ℤ) (priceDollars : ℚ)
      (correlationGroup : String) :
      Step w { w with gate :=
        w.gate.recordAttempt ticker direction count priceDollars w.clock correlationGroup }
  | beginDispatch (w : World) : Step w { w with gate := w.gate.beginDispatch }
  | endDispatch (w : World) : Step w { w with gate := w.gate.endDispatch }

namespace World

/-- Before its first poll the bot may hold anything and have anything under way. -/
def Starts (w : World) : Prop := w.poll = .idle ∧ w.lastSnapshotAtMs = none

def awaited (w : World) (ticker : String) : ℚ :=
  total Execution.contracts (w.awaiting.filter fun e => e.ticker = ticker)

def layered (w : World) (snapshotAtMs : ℤ) (ticker : String) : ℚ :=
  total Fill.fillCount
    (w.gate.fills.filter fun f => f.ticker = ticker ∧ snapshotAtMs ≤ f.recordedAtMs)

/-- What neither the fills layered on a snapshot nor the executions still awaited
account for. -/
def unaccounted (w : World) (snapshotAtMs : ℤ) (ticker : String) : ℚ :=
  |w.net ticker| - w.layered snapshotAtMs ticker - w.awaited ticker

/-- As long as the snapshot is at most a day old, it makes up for all that is missing. -/
def Covers (w : World) (snapshotAtMs : ℤ) (openPositions : Dict String ℚ) : Prop :=
  w.clock - dayMs ≤ snapshotAtMs →
    ∀ ticker, w.unaccounted snapshotAtMs ticker ≤ (openPositions.lookup ticker).getD 0

theorem awaited_execute (w : World) (e : Execution) (ticker : String) :
    total Execution.contracts ((w.awaiting ++ [e]).filter fun x => x.ticker = ticker) =
      w.awaited ticker + if e.ticker = ticker then e.contracts else 0 := by
  rw [List.filter_append, total_append, List.filter_singleton, Bool.cond_decide]
  split <;> simp [awaited]

theorem awaited_respond {w : World} {before after : List Execution} {e : Execution}
    (h : w.awaiting = before ++ e :: after) (ticker : String) :
    w.awaited ticker =
      total Execution.contracts ((before ++ after).filter fun x => x.ticker = ticker) +
        if e.ticker = ticker then e.contracts else 0 := by
  have hPerm : w.awaiting.Perm ((before ++ after) ++ [e]) := by
    rw [h]
    exact List.perm_middle.trans (List.perm_append_singleton _ _).symm
  rw [awaited, total_perm _ (hPerm.filter _), List.filter_append, total_append,
    List.filter_singleton, Bool.cond_decide]
  split <;> simp

theorem layered_respond (w : World) (e : Execution) {snapshotAtMs : ℤ} (h : snapshotAtMs ≤ w.clock)
    (ticker : String) :
    total Fill.fillCount ((w.gate.recordFill e.ticker e.contracts w.clock).fills.filter fun f =>
        f.ticker = ticker ∧ snapshotAtMs ≤ f.recordedAtMs) =
      w.layered snapshotAtMs ticker + if e.ticker = ticker then e.contracts else 0 := by
  refine w.gate.total_recordFill e.ticker w.clock (abs_nonneg e.change) fun pos => ?_
  simp only [h, and_true]

theorem layered_check (w : World) (c : Candidate) {snapshotAtMs : ℤ}
    (h : w.clock - dayMs ≤ snapshotAtMs) (ticker : String) :
    total Fill.fillCount ((w.gate.check c w.clock).2.fills.filter fun f =>
        f.ticker = ticker ∧ snapshotAtMs ≤ f.recordedAtMs) = w.layered snapshotAtMs ticker := by
  obtain hSame | hPruned := w.gate.check_gate c w.clock
  · rw [hSame]
    rfl
  · rw [hPruned]
    apply congrArg (total Fill.fillCount)
    apply filter_pruneBefore
    intro f hf
    refine decide_eq_false ?_
    omega

/-- No step, in either direction, takes from what the ledger accounts for. -/
theorem unaccounted_step {w w' : World} (hStep : Step w w') {snapshotAtMs : ℤ}
    (hIssued : snapshotAtMs ≤ w.clock) (hRecent : w'.clock - dayMs ≤ snapshotAtMs)
    (ticker : String) : w'.unaccounted snapshotAtMs ticker ≤ w.unaccounted snapshotAtMs ticker := by
  cases hStep with
  | execute e =>
    have hAwaited := w.awaited_execute e ticker
    have hNet : |Function.update w.net e.ticker (w.net e.ticker + e.change) ticker| ≤
        |w.net ticker| + if e.ticker = ticker then e.contracts else 0 := by
      by_cases hTicker : ticker = e.ticker
      · subst hTicker
        rw [Function.update_self, if_pos rfl]
        exact abs_add_le _ _
      · rw [Function.update_of_ne hTicker, if_neg (Ne.symm hTicker), add_zero]
    calc |Function.update w.net e.ticker (w.net e.ticker + e.change) ticker|
          - w.layered snapshotAtMs ticker
          - total Execution.contracts ((w.awaiting ++ [e]).filter fun x => x.ticker = ticker)
        ≤ |w.net ticker| + (if e.ticker = ticker then e.contracts else 0)
          - w.layered snapshotAtMs ticker
          - (w.awaited ticker + if e.ticker = ticker then e.contracts else 0) := by
          rw [hAwaited]
          linarith
      _ = w.unaccounted snapshotAtMs ticker := by
          rw [unaccounted]
          ring
  | respond before after e hAwaiting =>
    have hAwaited := awaited_respond hAwaiting ticker
    have hLayered := w.layered_respond e hIssued ticker
    calc |w.net ticker|
          - total Fill.fillCount ((w.gate.recordFill e.ticker e.contracts w.clock).fills.filter
              fun f => f.ticker = ticker ∧ snapshotAtMs ≤ f.recordedAtMs)
          - total Execution.contracts ((before ++ after).filter fun x => x.ticker = ticker)
        = w.unaccounted snapshotAtMs ticker := by
          rw [unaccounted, hLayered, hAwaited]
          ring
      _ ≤ w.unaccounted snapshotAtMs ticker := le_rfl
  | settle settled left hLeft =>
    have hNet : |Function.update w.net settled left ticker| ≤ |w.net ticker| := by
      by_cases hTicker : ticker = settled
      · subst hTicker
        rwa [Function.update_self]
      · rw [Function.update_of_ne hTicker]
    exact sub_le_sub_right (sub_le_sub_right hNet _) _
  | check c =>
    have hLayered := w.layered_check c hRecent ticker
    exact (congrArg (fun x => |w.net ticker| - x - w.awaited ticker) hLayered).le
  | tick | issue | serve | process | fail | recordAttempt | beginDispatch | endDispatch =>
    exact le_rfl

theorem clock_step {w w' : World} (hStep : Step w w') : w.clock ≤ w'.clock := by
  cases hStep with
  | tick nowMs hNow => exact hNow
  | _ => exact le_rfl

theorem Covers.step {w w' : World} {snapshotAtMs : ℤ} {openPositions : Dict String ℚ}
    (h : w.Covers snapshotAtMs openPositions) (hIssued : snapshotAtMs ≤ w.clock)
    (hStep : Step w w') : w'.Covers snapshotAtMs openPositions := by
  intro hRecent ticker
  have hClock := clock_step hStep
  exact (unaccounted_step hStep hIssued hRecent ticker).trans (h (by omega) ticker)

theorem covers_of_reports {w : World} {openPositions : Dict String ℚ}
    (h : Reports openPositions w.net) (snapshotAtMs : ℤ) : w.Covers snapshotAtMs openPositions := by
  intro _ ticker
  have hLayered : 0 ≤ w.layered snapshotAtMs ticker :=
    total_nonneg _ fun f _ => f.pos.le
  have hAwaited : 0 ≤ w.awaited ticker := total_nonneg _ fun e _ => abs_nonneg e.change
  have hListed : (openPositions.lookup ticker).getD 0 = |w.net ticker| := by
    rw [h ticker]
    split
    · next hZero => rw [hZero, abs_zero]; rfl
    · rfl
  rw [hListed, unaccounted]
  linarith

structure Inv (w : World) : Prop where
  issued : ∀ s, w.poll = .issued s → s ≤ w.clock
  served : ∀ s positions, w.poll = .served s positions → s ≤ w.clock ∧ w.Covers s positions
  processed : ∀ s, w.lastSnapshotAtMs = some s → s ≤ w.clock ∧ w.gate.reconciledAtMs = s ∧
    w.Covers s w.gate.reconciledPositionByTicker

/-- A step that leaves the polls alone keeps the invariant. -/
theorem Inv.of_quiet {w w' : World} (h : w.Inv) (hStep : Step w w')
    (hPoll : w'.poll = w.poll ∨ w'.poll = .idle) (hLast : w'.lastSnapshotAtMs = w.lastSnapshotAtMs)
    (hAt : w'.gate.reconciledAtMs = w.gate.reconciledAtMs)
    (hBaseline : w'.gate.reconciledPositionByTicker = w.gate.reconciledPositionByTicker) :
    w'.Inv := by
  have hClock := clock_step hStep
  refine ⟨?_, ?_, ?_⟩
  · intro s hs
    obtain hSame | hIdle := hPoll
    · exact (h.issued s (hSame ▸ hs)).trans hClock
    · cases hIdle.symm.trans hs
  · intro s positions hs
    obtain hSame | hIdle := hPoll
    · obtain ⟨hIssued, hCovers⟩ := h.served s positions (hSame ▸ hs)
      exact ⟨hIssued.trans hClock, hCovers.step hIssued hStep⟩
    · cases hIdle.symm.trans hs
  · intro s hs
    obtain ⟨hIssued, hReconciled, hCovers⟩ := h.processed s (hLast ▸ hs)
    exact ⟨hIssued.trans hClock, hAt.trans hReconciled,
      hBaseline ▸ hCovers.step hIssued hStep⟩

theorem inv_step : Preserves Step Inv := by
  intro w w' hStep h
  cases hStep with
  | issue hIdle =>
    refine ⟨?_, nofun, h.processed⟩
    rintro s ⟨⟩
    exact le_rfl
  | serve s openPositions hIssued hReports =>
    refine ⟨nofun, ?_, h.processed⟩
    rintro s' positions ⟨⟩
    exact ⟨h.issued s hIssued, covers_of_reports hReports s⟩
  | process s openPositions hServed =>
    obtain ⟨hIssued, hCovers⟩ := h.served s openPositions hServed
    refine ⟨nofun, nofun, ?_⟩
    rintro s' ⟨⟩
    exact ⟨hIssued, rfl, hCovers⟩
  | respond before after e hAwaiting =>
    apply h.of_quiet (.respond w before after e hAwaiting) (.inl rfl) rfl <;>
      rw [RiskGate.recordFill_eq]
  | check c =>
    obtain hSame | hPruned := w.gate.check_gate c w.clock
    · exact h.of_quiet (.check w c) (.inl rfl) rfl (by rw [hSame]) (by rw [hSame])
    · exact h.of_quiet (.check w c) (.inl rfl) rfl (by rw [hPruned]; rfl) (by rw [hPruned]; rfl)
  | tick nowMs hNow => exact h.of_quiet (.tick w nowMs hNow) (.inl rfl) rfl rfl rfl
  | execute e => exact h.of_quiet (.execute w e) (.inl rfl) rfl rfl rfl
  | settle ticker left hLeft => exact h.of_quiet (.settle w ticker left hLeft) (.inl rfl) rfl rfl rfl
  | fail => exact h.of_quiet (.fail w) (.inr rfl) rfl rfl rfl
  | recordAttempt ticker direction count priceDollars group =>
    exact h.of_quiet (.recordAttempt w ticker direction count priceDollars group) (.inl rfl)
      rfl rfl rfl
  | beginDispatch => exact h.of_quiet (.beginDispatch w) (.inl rfl) rfl rfl rfl
  | endDispatch => exact h.of_quiet (.endDispatch w) (.inl rfl) rfl rfl rfl

theorem Starts.inv {w : World} (h : w.Starts) : w.Inv := by
  obtain ⟨hPoll, hLast⟩ := h
  refine ⟨?_, ?_, ?_⟩
  · intro s hs
    cases hPoll.symm.trans hs
  · intro s positions hs
    cases hPoll.symm.trans hs
  · intro s hs
    cases hLast.symm.trans hs

end World

def quietWorld : World :=
  { clock := 1000, net := fun _ => 0, awaiting := [], poll := .idle, lastSnapshotAtMs := none,
    gate := { limits := { allowedExchangeIndexes := {0} } } }

def lateExecution : Execution := ⟨"KX-A-1", 3⟩

/-- A poll is issued and served, an order executes, the poll is processed, and last
the response arrives. -/
def filledBehindSnapshot : World :=
  { clock := 1500, awaiting := [], poll := .idle, lastSnapshotAtMs := some 1000,
    net := Function.update (fun _ => 0) "KX-A-1" (0 + 3),
    gate := (quietWorld.gate.reconcileOpenPositions ∅ 1000).recordFill "KX-A-1"
      lateExecution.contracts 1500 }

end KalshiBot.Risk

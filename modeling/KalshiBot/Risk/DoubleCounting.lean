import KalshiBot.Library.GroupedTotals
import KalshiBot.Risk.ExchangePolls

/-! # Contracts counted twice

The exchange and the ledger with their history: executions are numbered, and each served
poll remembers how many came before it. A fill is left out of the live count by comparing
the time of its response with the time the poll was issued, which says nothing about
whether its order executed before or after the poll was served.
-/

namespace KalshiBot.Risk

open PythonText RollingWindow Runs Relation

set_option autoImplicit false

/-- An execution with its place among those of the run; none has the number zero. -/
structure Numbered where
  number : ℕ
  execution : Execution

structure Response where
  order : Numbered
  processedAtMs : ℤ

def Response.contracts (r : Response) : ℚ := r.order.execution.contracts

/-- A poll that was served, with what it was served from. -/
structure Serving where
  snapshotAtMs : ℤ
  executedBefore : ℕ
  net : String → ℚ

structure History where
  world : World
  executed : List Numbered := []
  awaiting : List Numbered
  answered : List Response
  served : Option Serving := none
  processed : Option Serving := none

/-- The steps that neither execute, answer nor bring a poll further than its issue. -/
inductive World.Quiet : World → World → Prop
  | tick (w : World) (nowMs : ℤ) (hNow : w.clock ≤ nowMs) : Quiet w { w with clock := nowMs }
  | issue (w : World) (hIdle : w.poll = .idle) : Quiet w { w with poll := .issued w.clock }
  | fail (w : World) : Quiet w { w with poll := .idle }
  | check (w : World) (c : Candidate) : Quiet w { w with gate := (w.gate.check c w.clock).2 }
  | recordAttempt (w : World) (ticker direction : String) (count : ℤ) (priceDollars : ℚ)
      (correlationGroup : String) :
      Quiet w { w with gate :=
        w.gate.recordAttempt ticker direction count priceDollars w.clock correlationGroup }
  | beginDispatch (w : World) : Quiet w { w with gate := w.gate.beginDispatch }
  | endDispatch (w : World) : Quiet w { w with gate := w.gate.endDispatch }

inductive Happening where
  | quiet
  | execute (e : Execution)
  | respond (order : Numbered)
  | serve
  | process

namespace History

/-- Orders that executed before the run have the number zero. -/
def start (w : World) : History where
  world := w
  awaiting := w.awaiting.map (⟨0, ·⟩)
  answered := w.gate.fills.map fun f => ⟨⟨0, f.ticker, f.fillCount⟩, f.recordedAtMs⟩

inductive Step : History → Happening → History → Prop
  | quiet (h : History) (w : World) (hQuiet : h.world.Quiet w) : Step h .quiet { h with world := w }
  | execute (h : History) (e : Execution) :
      Step h (.execute e) { h with
        world :=
          { h.world with
            net := Function.update h.world.net e.ticker (h.world.net e.ticker + e.change)
            awaiting := h.world.awaiting ++ [e] }
        executed := h.executed ++ [⟨h.executed.length + 1, e⟩]
        awaiting := h.awaiting ++ [⟨h.executed.length + 1, e⟩] }
  | respond (h : History) (before after : List Numbered) (order : Numbered)
      (hAwaiting : h.awaiting = before ++ order :: after) :
      Step h (.respond order) { h with
        world :=
          { h.world with
            awaiting := (before ++ after).map Numbered.execution
            gate := h.world.gate.recordFill order.execution.ticker order.execution.contracts
              h.world.clock }
        awaiting := before ++ after
        answered := h.answered ++ [⟨order, h.world.clock⟩] }
  | serve (h : History) (snapshotAtMs : ℤ) (openPositions : Dict String ℚ)
      (hIssued : h.world.poll = .issued snapshotAtMs)
      (hReports : Reports openPositions h.world.net) :
      Step h .serve { h with
        world := { h.world with poll := .served snapshotAtMs openPositions }
        served := some ⟨snapshotAtMs, h.executed.length, h.world.net⟩ }
  | process (h : History) (snapshotAtMs : ℤ) (openPositions : Dict String ℚ)
      (hServed : h.world.poll = .served snapshotAtMs openPositions) :
      Step h .process { h with
        world :=
          { h.world with
            poll := .idle
            lastSnapshotAtMs := some snapshotAtMs
            gate := h.world.gate.reconcileOpenPositions openPositions snapshotAtMs }
        processed := h.served }

/-- The contracts on a ticker that executed after the poll was served. -/
def executedAfter (h : History) (s : Serving) (ticker : String) : ℚ :=
  total (fun o => o.execution.contracts)
    (h.executed.filter fun o => s.executedBefore < o.number ∧ o.execution.ticker = ticker)

/-- No contract counts both in the baseline and in the fill layer. -/
def CountedOnce (h : History) : Prop :=
  ∀ s, h.processed = some s → ∀ ticker,
    h.world.gate.positionForTicker ticker h.world.clock ≤
      |s.net ticker| + h.executedAfter s ticker

/-- No response that is processed after a poll was issued is of an order that the poll reports:
neither one that comes once the poll is processed, nor one that came before. -/
def Disjoint (h : History) : Happening → Prop
  | .respond order => ∀ s, h.processed = some s → s.executedBefore < order.number
  | .process => ∀ s, h.served = some s → ∀ r ∈ h.answered,
    s.snapshotAtMs ≤ r.processedAtMs → s.executedBefore < r.order.number
  | .quiet | .execute _ | .serve => True

/-- The awaited executions of the world are those of the history. -/
def Linked (h : History) : Prop := h.world.awaiting = h.awaiting.map Numbered.execution

theorem World.Quiet.step {w w' : World} (h : w.Quiet w') : World.Step w w' := by
  cases h with
  | tick nowMs hNow => exact .tick w nowMs hNow
  | issue hIdle => exact .issue w hIdle
  | fail => exact .fail w
  | check c => exact .check w c
  | recordAttempt ticker direction count priceDollars group =>
    exact .recordAttempt w ticker direction count priceDollars group
  | beginDispatch => exact .beginDispatch w
  | endDispatch => exact .endDispatch w

theorem World.Quiet.awaiting {w w' : World} (h : w.Quiet w') : w'.awaiting = w.awaiting := by
  cases h <;> rfl

/-- The history is one of the world: its steps are steps of the world, without any settling. -/
theorem Step.world {h h' : History} {happening : Happening} (hStep : h.Step happening h')
    (hLinked : h.Linked) : World.Step h.world h'.world ∧ h'.Linked := by
  cases hStep with
  | quiet w hQuiet => exact ⟨World.Quiet.step hQuiet, (World.Quiet.awaiting hQuiet).trans hLinked⟩
  | execute e =>
    refine ⟨.execute h.world e, ?_⟩
    rw [Linked, List.map_append, ← hLinked]
    rfl
  | respond before after order hAwaiting =>
    have hSplit : h.world.awaiting = before.map Numbered.execution ++
        order.execution :: after.map Numbered.execution := by
      rw [hLinked, hAwaiting, List.map_append, List.map_cons]
    refine ⟨?_, rfl⟩
    rw [List.map_append]
    exact .respond h.world _ _ order.execution hSplit
  | serve snapshotAtMs openPositions hIssued hReports =>
    exact ⟨.serve h.world snapshotAtMs openPositions hIssued hReports, hLinked⟩
  | process snapshotAtMs openPositions hServed =>
    exact ⟨.process h.world snapshotAtMs openPositions hServed, hLinked⟩

structure Inv (h : History) : Prop where
  /-- Every execution of the run is either awaited or answered. -/
  resolved : ∀ p : Numbered → Bool, (∀ o, o.number = 0 → p o = false) →
    total Response.contracts (h.answered.filter fun r => p r.order) +
      total (fun o => o.execution.contracts) (h.awaiting.filter p) =
        total (fun o => o.execution.contracts) (h.executed.filter p)
  fills : ∀ p : String → ℤ → Bool,
    total Fill.fillCount (h.world.gate.fills.filter fun f => p f.ticker f.recordedAtMs) ≤
      total Response.contracts
        (h.answered.filter fun r => p r.order.execution.ticker r.processedAtMs)
  served : ∀ snapshotAtMs openPositions, h.world.poll = .served snapshotAtMs openPositions →
    ∃ s, h.served = some s ∧ s.snapshotAtMs = snapshotAtMs ∧ Reports openPositions s.net
  processed : ∀ s, h.processed = some s → h.world.gate.reconciledAtMs = s.snapshotAtMs ∧
    Reports h.world.gate.reconciledPositionByTicker s.net ∧
      ∀ r ∈ h.answered, s.snapshotAtMs ≤ r.processedAtMs → s.executedBefore < r.order.number

theorem inv_start {w : World} (hStart : w.Starts) : (start w).Inv where
  resolved p hp := by
    have hAnswered : (start w).answered.filter (fun r => p r.order) = [] := by
      simp [start, List.filter_eq_nil_iff, hp]
    have hAwaiting : (start w).awaiting.filter p = [] := by
      simp [start, List.filter_eq_nil_iff, hp]
    rw [hAnswered, hAwaiting]
    exact add_zero 0
  fills p := by
    have hFill : ∀ f : Fill, |f.fillCount| = f.fillCount := fun f => abs_of_pos f.pos
    simp only [start, List.filter_map, total, List.map_map]
    refine (congrArg List.sum (List.map_congr_left fun f _ => ?_)).le
    exact (hFill f).symm
  served snapshotAtMs openPositions hServed := by
    cases hStart.1.symm.trans hServed
  processed := nofun

theorem fills_prune {h : History} (hInv : h.Inv) (c : Candidate) (p : String → ℤ → Bool) :
    total Fill.fillCount ((h.world.gate.check c h.world.clock).2.fills.filter fun f =>
        p f.ticker f.recordedAtMs) ≤
      total Response.contracts
        (h.answered.filter fun r => p r.order.execution.ticker r.processedAtMs) := by
  obtain hSame | hPruned := h.world.gate.check_gate c h.world.clock
  · rw [hSame]
    exact hInv.fills p
  · rw [hPruned]
    refine le_trans ?_ (hInv.fills p)
    exact total_sublist_le _ (fun f _ => f.pos.le) ((pruneBefore_suffix _ _ _).sublist.filter _)

theorem Inv.quiet {h : History} (hInv : h.Inv) {w : World} (hQuiet : h.world.Quiet w) :
    Inv { h with world := w } := by
  cases hQuiet with
  | tick nowMs hNow => exact ⟨hInv.resolved, hInv.fills, hInv.served, hInv.processed⟩
  | issue hIdle => exact ⟨hInv.resolved, hInv.fills, nofun, hInv.processed⟩
  | fail => exact ⟨hInv.resolved, hInv.fills, nofun, hInv.processed⟩
  | check c =>
    refine ⟨hInv.resolved, fills_prune hInv c, hInv.served, fun s hs => ?_⟩
    obtain hSame | hPruned := h.world.gate.check_gate c h.world.clock
    · rw [hSame]
      exact hInv.processed s hs
    · rw [hPruned]
      exact hInv.processed s hs
  | recordAttempt | beginDispatch | endDispatch =>
    exact ⟨hInv.resolved, hInv.fills, hInv.served, hInv.processed⟩

theorem Inv.respond {h : History} (hInv : h.Inv) {before after : List Numbered} {order : Numbered}
    (hAwaiting : h.awaiting = before ++ order :: after) (hDisjoint : h.Disjoint (.respond order)) :
    Inv { h with
      world :=
        { h.world with
          awaiting := (before ++ after).map Numbered.execution
          gate := h.world.gate.recordFill order.execution.ticker order.execution.contracts
            h.world.clock }
      awaiting := before ++ after
      answered := h.answered ++ [⟨order, h.world.clock⟩] } where
  resolved p hp := by
    have hBefore := hInv.resolved p hp
    rw [hAwaiting, List.filter_append, total_append, total_filter_cons] at hBefore
    simp only [List.filter_append, total_append, total_filter_cons, List.filter_nil, total_nil,
      Response.contracts] at hBefore ⊢
    linarith
  fills p := by
    have hFill : total Fill.fillCount ((h.world.gate.recordFill order.execution.ticker
        order.execution.contracts h.world.clock).fills.filter fun f => p f.ticker f.recordedAtMs) =
          total Fill.fillCount (h.world.gate.fills.filter fun f => p f.ticker f.recordedAtMs) +
            if p order.execution.ticker h.world.clock = true then order.execution.contracts else 0 :=
      h.world.gate.total_recordFill _ _ (abs_nonneg _) fun _ => by simp
    refine hFill.le.trans ?_
    rw [List.filter_append, total_append, total_filter_cons, List.filter_nil, total_nil, add_zero]
    exact add_le_add (hInv.fills p) le_rfl
  served := hInv.served
  processed s hs := by
    obtain ⟨hAt, hReports, hLate⟩ := hInv.processed s hs
    refine ⟨?_, ?_, fun r hr hTime => ?_⟩
    · rw [RiskGate.recordFill_eq]
      exact hAt
    · rw [RiskGate.recordFill_eq]
      exact hReports
    · obtain hOld | hNew := List.mem_append.mp hr
      · exact hLate r hOld hTime
      · rw [List.mem_singleton.mp hNew]
        exact hDisjoint s hs

theorem Inv.step {h h' : History} {happening : Happening} (hInv : h.Inv)
    (hStep : h.Step happening h') (hDisjoint : h.Disjoint happening) : h'.Inv := by
  cases hStep with
  | quiet w hQuiet => exact hInv.quiet hQuiet
  | execute e =>
    refine ⟨fun p hp => ?_, hInv.fills, hInv.served, hInv.processed⟩
    have hBefore := hInv.resolved p hp
    simp only [List.filter_append, total_append]
    linarith
  | respond before after order hAwaiting => exact hInv.respond hAwaiting hDisjoint
  | serve snapshotAtMs openPositions hIssued hReports =>
    refine ⟨hInv.resolved, hInv.fills, ?_, hInv.processed⟩
    rintro atMs positions ⟨⟩
    exact ⟨_, rfl, rfl, hReports⟩
  | process snapshotAtMs openPositions hServed =>
    refine ⟨hInv.resolved, hInv.fills, nofun, fun s hs => ?_⟩
    obtain ⟨s', hSome, hAt, hReports⟩ := hInv.served snapshotAtMs openPositions hServed
    obtain rfl : s' = s := Option.some.inj (hSome.symm.trans hs)
    exact ⟨hAt.symm, hReports, hDisjoint s' hSome⟩

theorem Inv.countedOnce {h : History} (hInv : h.Inv) : h.CountedOnce := by
  intro s hs ticker
  obtain ⟨hAt, hReports, hLate⟩ := hInv.processed s hs
  have hBaseline : (h.world.gate.reconciledPositionByTicker.lookup ticker).getD 0 = |s.net ticker| := by
    rw [hReports ticker]
    split
    · next hZero => rw [hZero, abs_zero]; rfl
    · rfl
  have hContracts : ∀ r ∈ h.answered, 0 ≤ r.contracts := fun r _ => abs_nonneg _
  rw [RiskGate.positionForTicker, hBaseline]
  refine add_le_add le_rfl ?_
  calc h.world.gate.unconfirmed (fun f => f.ticker = ticker) h.world.clock
      ≤ total Fill.fillCount (h.world.gate.fills.filter fun f =>
          f.ticker = ticker ∧ s.snapshotAtMs ≤ f.recordedAtMs) := by
        refine total_filter_le _ (fun f _ => f.pos.le) fun f _ hf => ?_
        simp only [hAt, decide_eq_true_eq, sup_le_iff] at hf ⊢
        exact ⟨hf.1, hf.2.1⟩
    _ ≤ total Response.contracts (h.answered.filter fun r =>
          r.order.execution.ticker = ticker ∧ s.snapshotAtMs ≤ r.processedAtMs) :=
        hInv.fills fun t atMs => t = ticker ∧ s.snapshotAtMs ≤ atMs
    _ ≤ total Response.contracts (h.answered.filter fun r =>
          s.executedBefore < r.order.number ∧ r.order.execution.ticker = ticker) := by
        refine total_filter_le _ hContracts fun r hr hf => ?_
        simp only [decide_eq_true_eq] at hf ⊢
        exact ⟨hLate r hr hf.2, hf.1⟩
    _ ≤ h.executedAfter s ticker := by
        have hResolved := hInv.resolved
          (fun o => s.executedBefore < o.number ∧ o.execution.ticker = ticker) (by simp_all)
        have hAwaited : 0 ≤ total (fun o => o.execution.contracts) (h.awaiting.filter fun o =>
            s.executedBefore < o.number ∧ o.execution.ticker = ticker) :=
          total_nonneg _ fun o _ => abs_nonneg _
        rw [executedAfter, ← hResolved]
        linarith

end History

def netThree : String → ℚ := Function.update quietWorld.net "KX-A-1" (0 + 3)

theorem netThree_reported : Reports (AList.singleton "KX-A-1" 3) netThree := by
  intro ticker
  obtain rfl | hTicker := eq_or_ne ticker "KX-A-1"
  · rw [netThree, Function.update_self]
    decide +kernel
  · have hAbsent : ticker ∉ (AList.singleton "KX-A-1" 3 : Dict String ℚ) := by
      rw [AList.mem_keys]
      simpa using hTicker
    rw [netThree, Function.update_of_ne hTicker, AList.lookup_eq_none.mpr hAbsent]
    rfl

/-- Three contracts executed and answered behind the serving of a poll. -/
def answeredBehindServe : History where
  world := { filledBehindSnapshot with net := netThree }
  executed := [⟨1, lateExecution⟩]
  awaiting := []
  answered := [⟨⟨1, lateExecution⟩, 1500⟩]
  served := some ⟨1000, 0, quietWorld.net⟩
  processed := some ⟨1000, 0, quietWorld.net⟩

/-- Of three contracts executed and answered between the issue and the serving of a poll. -/
def answeredBehindIssue : History where
  world :=
    { clock := 1500, net := netThree, awaiting := [], poll := .idle, lastSnapshotAtMs := some 1000,
      gate := (quietWorld.gate.recordFill "KX-A-1" lateExecution.contracts 1100).reconcileOpenPositions
        (AList.singleton "KX-A-1" 3) 1000 }
  executed := [⟨1, lateExecution⟩]
  awaiting := []
  answered := [⟨⟨1, lateExecution⟩, 1100⟩]
  served := some ⟨1000, 1, netThree⟩
  processed := some ⟨1000, 1, netThree⟩

end KalshiBot.Risk

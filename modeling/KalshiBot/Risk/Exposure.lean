import KalshiBot.Library.GroupedTotals
import KalshiBot.Risk.Drain

/-! # Exposure by ticker, by event and by group

The gate keeps three baselines and sums the fills three ways. Each of the wider totals
is compared with the sum of the tickers' own.
-/

namespace KalshiBot.Risk

open PythonText RollingWindow

set_option autoImplicit false

namespace RiskGate

theorem lookup_aggregate (label : String → String) (skipEmpty : Bool)
    (openPositions : Dict String ℚ) (key : String) :
    ((aggregate label skipEmpty openPositions).lookup key).getD 0 =
      total Sigma.snd (openPositions.entries.filter fun entry =>
        label entry.1 = key ∧ ¬(skipEmpty ∧ label entry.1 = "")) := by
  have hSums := lookup_foldl_sumInto (fun entry : Σ _ : String, ℚ => label entry.1) Sigma.snd
    (fun entry => skipEmpty ∧ label entry.1 = "") openPositions.entries ∅ key
  rw [AList.lookup_empty, Option.getD_none, zero_add] at hSums
  exact hSums

/-- What the baseline holds on the tickers that count. -/
def baselineOn (g : RiskGate) (on : String → Bool) : ℚ :=
  total Sigma.snd (g.reconciledPositionByTicker.entries.filter fun entry => on entry.1)

theorem sum_unconfirmed (g : RiskGate) (tickers : Finset String) {on : String → Bool}
    (hFills : ∀ f ∈ g.fills, on f.ticker = true → f.ticker ∈ tickers) (nowMs : ℤ) :
    ∑ ticker ∈ tickers with on ticker, g.unconfirmed (fun f => f.ticker = ticker) nowMs =
      g.unconfirmed (fun f => on f.ticker) nowMs := by
  have hSum := sum_total_filter Fill.ticker Fill.fillCount
    (tickers.filter fun ticker => on ticker = true)
    (fun f => on f.ticker ∧ max g.reconciledAtMs (nowMs - dayMs) ≤ f.recordedAtMs)
    (fun f (hf : f ∈ g.fills) hCounts => ?_)
  · refine Eq.trans (Finset.sum_congr rfl fun ticker hTicker => ?_) hSum
    refine congrArg (total Fill.fillCount) (List.filter_congr fun f _ => ?_)
    have hOn := (Finset.mem_filter.mp hTicker).2
    obtain hSame | hOther := eq_or_ne f.ticker ticker
    · simp [hSame, hOn]
    · simp [hOther]
  · have hOn : on f.ticker = true := (of_decide_eq_true hCounts).1
    exact Finset.mem_filter.mpr ⟨hFills f hf hOn, hOn⟩

/-- The positions on some tickers add up, provided that none that counts is left out. -/
theorem sum_positionForTicker (g : RiskGate) (tickers : Finset String) (on : String → Bool)
    (hBaseline : ∀ ticker ∈ g.reconciledPositionByTicker, on ticker = true → ticker ∈ tickers)
    (hFills : ∀ f ∈ g.fills, on f.ticker = true → f.ticker ∈ tickers) (nowMs : ℤ) :
    ∑ ticker ∈ tickers with on ticker, g.positionForTicker ticker nowMs =
      g.baselineOn on + g.unconfirmed (fun f => on f.ticker) nowMs := by
  simp only [positionForTicker, Finset.sum_add_distrib]
  rw [sum_lookup_getD g.reconciledPositionByTicker tickers hBaseline,
    g.sum_unconfirmed tickers hFills]
  rfl

/-- The distinct tickers of the reconciled baseline and of the fills. -/
def tickers (g : RiskGate) : Finset String :=
  g.reconciledPositionByTicker.keys.toFinset ∪ (g.fills.map Fill.ticker).toFinset

end RiskGate

/-- Without rows the warm start is the empty gate. -/
theorem event_exposure (limits : RiskLimits) (rows : List RiskGate.FetchedOrder)
    (calls : List GateCall) (eventTicker : String) (nowMs : ℤ) :
    (runCalls (.warmStart limits rows) calls).positionForEvent eventTicker nowMs =
      ∑ ticker ∈ (runCalls (.warmStart limits rows) calls).tickers with
        eventTickerOf ticker = eventTicker,
          (runCalls (.warmStart limits rows) calls).positionForTicker ticker nowMs := by
  obtain ⟨hTicker, -, hEvent⟩ :=
    baseline_run (.warmStart limits rows) (warmStart_fresh limits rows).2.2.2 calls
  generalize runCalls (.warmStart limits rows) calls = g at hTicker hEvent ⊢
  have hSum := g.sum_positionForTicker g.tickers (fun ticker => eventTickerOf ticker = eventTicker)
    (fun ticker hMem _ => Finset.mem_union_left _ (List.mem_toFinset.mpr (AList.mem_keys.mp hMem)))
    (fun f hf _ => Finset.mem_union_right _ (List.mem_toFinset.mpr (List.mem_map_of_mem hf))) nowMs
  simp only [decide_eq_true_eq] at hSum
  rw [hSum, RiskGate.positionForEvent, hEvent, RiskGate.lookup_aggregate, RiskGate.baselineOn, hTicker]
  simp

end KalshiBot.Risk

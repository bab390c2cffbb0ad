import KalshiBot.Ipc.FireJobs
import KalshiBot.Library.DecimalText

/-! # The price that goes out

A fire is refused on the raw wire price, while what is sent, checked and written is that
price snapped to the grid and formatted. Both ends of the range can be reached on the way:
a fire's prices are tradeable exactly if the raw price is far enough from them for its step.
-/

namespace KalshiBot.Ipc

open PythonText Execution Risk KalshiBot.Runtime

set_option autoImplicit false

def gridStep (price : ℚ) : List (List ℚ) → Option ℚ
  | [] => some (1 / 100)
  | [start, stop, step] :: ranges =>
    if 0 < step ∧ start ≤ price ∧ price ≤ stop then some step else gridStep price ranges
  | _ :: _ => none

theorem snapToGrid_eq (price : ℚ) (ranges : List (List ℚ)) :
    snapToGrid price ranges = (gridStep price ranges).map (toStep price) := by
  fun_induction gridStep price ranges with
  | case1 => rfl
  | case2 start stop step ranges hHere => rw [snapToGrid, if_pos hHere, Option.map_some]
  | case3 start stop step ranges hElsewhere ih => rw [snapToGrid, if_neg hElsewhere, ih]
  | case4 range ranges hShape =>
    rw [snapToGrid, Option.map_none]
    exact hShape

theorem gridStep_pos {price step : ℚ} {ranges : List (List ℚ)}
    (h : gridStep price ranges = some step) : 0 < step := by
  fun_induction gridStep price ranges with
  | case1 =>
    cases h
    norm_num
  | case2 start stop step' ranges hHere =>
    cases h
    exact hHere.1
  | case3 start stop step' ranges hElsewhere ih => exact ih h
  | case4 => cases h

/-- The text passes the `CHECK` on `price_dollars`. -/
def Tradeable (text : String) : Prop := ∃ price, parseFloat text = some price ∧ 0 < price ∧ price < 1

theorem tradeable_formatFixed_iff (q : ℚ) :
    Tradeable (formatFixed 4 q) ↔ 1 / 20000 < q ∧ q < 19999 / 20000 := by
  rw [Tradeable, parseFloat_formatFixed (by decide)]
  simp only [Option.some.injEq, exists_eq_left']
  split
  next hNegative =>
    refine iff_of_false ?_ fun h => ?_
    · rintro ⟨hPos, -⟩
      have : (0 : ℚ) ≤ (roundHalfEven (|q| * 10 ^ 4)).toNat / 10 ^ 4 := by positivity
      rw [mul_div_assoc] at hPos
      linarith
    · linarith [h.1]
  next hNonneg =>
    rw [abs_of_nonneg (not_lt.mp hNonneg), one_mul]
    have hNearest := nearest_roundHalfEven (q * 10 ^ 4)
    have hPos : (0 : ℚ) < ((roundHalfEven (q * 10 ^ 4)).toNat : ℚ) / 10 ^ 4 ↔
        1 ≤ roundHalfEven (q * 10 ^ 4) := by
      rw [div_pos_iff_of_pos_right (by norm_num), Nat.cast_pos]
      omega
    have hLess : ((roundHalfEven (q * 10 ^ 4)).toNat : ℚ) / 10 ^ 4 < 1 ↔
        roundHalfEven (q * 10 ^ 4) ≤ 9999 := by
      rw [div_lt_one (by norm_num), show (10 : ℚ) ^ 4 = (10000 : ℕ) by norm_num, Nat.cast_lt]
      omega
    rw [hPos, hLess, hNearest.le_iff, hNearest.ge_iff, RoundsFrom, RoundsTo]
    have hOdd : ¬ Even (1 : ℤ) := by decide
    have hOdd' : ¬ Even (9999 : ℤ) := by decide
    simp only [hOdd, hOdd', and_false, or_false]
    push_cast
    constructor
    · rintro ⟨hLow, hHigh⟩
      exact ⟨by linarith, by linarith⟩
    · rintro ⟨hLow, hHigh⟩
      exact ⟨by linarith, by linarith⟩

/-- The least multiple of a step that is not formatted as `0.0000`. -/
def leastMultiple (step : ℚ) : ℤ := ⌊1 / 20000 / step⌋ + 1

/-- The greatest multiple of a step that is not formatted as `1.0000`. -/
def greatestMultiple (step : ℚ) : ℤ := ⌈19999 / 20000 / step⌉ - 1

/-- In steps, the price rounds to a multiple between these two. -/
def SnapsInside (price step : ℚ) : Prop :=
  RoundsFrom (leastMultiple step) (price / step) ∧ RoundsTo (greatestMultiple step) (price / step)

instance (price step : ℚ) : Decidable (SnapsInside price step) :=
  inferInstanceAs (Decidable (_ ∧ _))

theorem tradeable_toStep_iff {price step : ℚ} (hStep : 0 < step) :
    Tradeable (formatFixed 4 (toStep price step)) ↔ SnapsInside price step := by
  have hNearest := nearest_roundHalfEven (price / step)
  rw [tradeable_formatFixed_iff, SnapsInside, ← hNearest.le_iff, ← hNearest.ge_iff, toStep,
    leastMultiple, greatestMultiple, Int.add_one_le_iff, Int.floor_lt, Int.le_sub_one_iff,
    Int.lt_ceil, div_lt_iff₀ hStep, lt_div_iff₀ hStep]

/-- The price texts of a fire: those of the rows it hands to telemetry and that of its request. -/
def Handled.prices (handled : Handled) (later : ExecutorServer) (outcome : PostOutcome)
    (f : FinishReadings) : List String :=
  (handled.jobs later outcome f).map (fun job => job.row.priceDollars) ++
    match handled.1 with
    | .awaiting fire => [fire.dispatch.request.price]
    | .finished | .raised => []

/-- There is no price, or there are some and they are all this one. -/
def Shows (text : String) (silent : Prop) (prices : List String) : Prop :=
  (silent → prices = []) ∧ (¬silent → prices ≠ [] ∧ ∀ price ∈ prices, price = text)

theorem Shows.forall_iff {text : String} {silent : Prop} {prices : List String}
    (h : Shows text silent prices) (p : String → Prop) :
    (∀ price ∈ prices, p price) ↔ silent ∨ p text := by
  by_cases hSilent : silent
  · rw [h.1 hSilent]
    exact iff_of_true (List.forall_mem_nil p) (.inl hSilent)
  · obtain ⟨hNe, hAll⟩ := h.2 hSilent
    rw [or_iff_right hSilent]
    constructor
    · intro hEvery
      obtain ⟨price, hMem⟩ := List.exists_mem_of_ne_nil _ hNe
      rw [← hAll price hMem]
      exact hEvery price hMem
    · intro hText price hMem
      rw [hAll price hMem]
      exact hText

theorem closeDispatch_priceDollars {d : Dispatch} {outcome : PostOutcome} {nowMs : ℤ}
    {job : OrderJob} (h : job ∈ (closeDispatch d outcome nowMs).2) :
    job.row.priceDollars = d.row.priceDollars := by
  obtain ⟨-, _, _, _, hRow⟩ := row_of_closeDispatch h
  exact (kept_of_resolutionRow hRow).2

section Stages

variable (server later : ExecutorServer) (m : WakeMessage) (r : FireReadings)
  (outcome : PostOutcome) (f : FinishReadings)

/-- A dispatch that fails before its request: the side is none, or the order guard refuses. -/
def FailsUnsent : Prop := ¬(m.direction = "yes" ∨ m.direction = "no") ∨ r.dispatch.permitted = false

theorem sendFire_shows (count : ℤ) (wirePrice : ℚ) (hReal : m.dryRun = false) :
    Shows (formatFixed 4 wirePrice) (FailsUnsent m r)
      ((server.sendFire m count wirePrice r).prices later outcome f) := by
  by_cases hDirection : m.direction = "yes" ∨ m.direction = "no"
  · have hTemplate : buildTemplate m.marketTicker m.direction =
        some ⟨m.marketTicker, m.direction⟩ := by
      rw [buildTemplate, if_pos]
      simpa using hDirection
    cases hPermitted : r.dispatch.permitted with
    | false =>
      have hEmpty : (server.sendFire m count wirePrice r).prices later outcome f = [] := by
        simp only [ExecutorServer.sendFire, hTemplate, openDispatch, hPermitted, Bool.false_eq_true,
          if_false, Handled.prices, Handled.jobs, List.map_nil, List.append_nil]
      exact ⟨fun _ => hEmpty, fun hSends => absurd (.inr hPermitted) hSends⟩
    | true =>
      refine ⟨?_, fun _ => ?_⟩
      · rintro (hNone | hRefused)
        · exact absurd hDirection hNone
        · cases hPermitted.symm.trans hRefused
      · simp only [ExecutorServer.sendFire, hTemplate, openDispatch, hPermitted, hReal, if_true,
          Bool.false_eq_true, if_false, Handled.prices, Handled.jobs, finishFire_jobs]
        refine ⟨by simp, fun price hMem => ?_⟩
        obtain hRow | hRequest := List.mem_append.mp hMem
        · obtain ⟨job, hJob, rfl⟩ := List.mem_map.mp hRow
          obtain hPending | hResolution := List.mem_append.mp hJob
          · rw [List.mem_singleton.mp hPending]
            rfl
          · exact closeDispatch_priceDollars hResolution
        · exact List.mem_singleton.mp hRequest
  · have hTemplate : buildTemplate m.marketTicker m.direction = none := by
      rw [buildTemplate, if_neg]
      simpa using hDirection
    have hEmpty : (server.sendFire m count wirePrice r).prices later outcome f = [] := by
      simp only [ExecutorServer.sendFire, hTemplate, Handled.prices, Handled.jobs, List.map_nil,
        List.append_nil]
    exact ⟨fun _ => hEmpty, fun hSends => absurd (.inl hDirection) hSends⟩

theorem shows_rejected {handled : Handled} {count : ℤ} {wirePrice : ℚ} {reason : String}
    {silent : Prop} (hStart : handled.1 = .finished)
    (hJobs : handled.2.1 = [recordRejected server m count wirePrice reason r]) (hLoud : ¬silent) :
    Shows (formatFixed 4 wirePrice) silent (handled.prices later outcome f) := by
  refine ⟨fun hSilent => absurd hSilent hLoud, fun _ => ?_⟩
  simp only [Handled.prices, Handled.jobs, hStart, hJobs]
  exact ⟨List.cons_ne_nil _ _, fun price hMem => List.mem_singleton.mp hMem⟩

theorem shows_nothing {handled : Handled} {text : String} {silent : Prop}
    (hStart : handled.1 = .finished ∨ handled.1 = .raised) (hJobs : handled.2.1 = [])
    (hSilent : silent) : Shows text silent (handled.prices later outcome f) := by
  refine ⟨fun _ => ?_, fun hLoud => absurd hSilent hLoud⟩
  obtain hStart | hStart := hStart <;> simp only [Handled.prices, Handled.jobs, hStart, hJobs] <;> rfl

theorem gateFire_shows (count : ℤ) (wirePrice : ℚ) (hReal : m.dryRun = false) :
    Shows (formatFixed 4 wirePrice)
      (¬server.Refuses (candidateOf m count wirePrice) r.checkMs ∧ FailsUnsent m r)
      ((server.gateFire m count wirePrice r).prices later outcome f) := by
  cases hGate : server.riskGate with
  | none =>
    have hAdmits : ¬server.Refuses (candidateOf m count wirePrice) r.checkMs := by
      rintro ⟨gate, hSome, -⟩
      cases hGate.symm.trans hSome
    simp only [ExecutorServer.gateFire, hGate, and_iff_right hAdmits]
    exact sendFire_shows server later m r outcome f count wirePrice hReal
  | some gate =>
    cases hVerdict : (gate.check (candidateOf m count wirePrice) r.checkMs).1 with
    | some rejection =>
      have hRefuses : server.Refuses (candidateOf m count wirePrice) r.checkMs :=
        ⟨gate, hGate, by rw [hVerdict]; exact Option.some_ne_none _⟩
      simp only [ExecutorServer.gateFire, hGate, hVerdict]
      exact shows_rejected server later m r outcome f rfl rfl fun hSilent => hSilent.1 hRefuses
    | none =>
      have hAdmits : ¬server.Refuses (candidateOf m count wirePrice) r.checkMs := by
        rintro ⟨gate', hSome, hNe⟩
        cases hGate.symm.trans hSome
        exact hNe hVerdict
      simp only [ExecutorServer.gateFire, hGate, hVerdict, and_iff_right hAdmits]
      exact sendFire_shows _ later m r outcome f count wirePrice hReal

/-- A switch that is engaged without a readable reason, or a fire that the gate admits and that
fails before its request. -/
def ExecutorServer.GuardSilent (count : ℤ) (wirePrice : ℚ) : Prop :=
  if server.switchEngaged r then r.switchText = .undecodable
  else ¬server.Refuses (candidateOf m count wirePrice) r.checkMs ∧ FailsUnsent m r

theorem guardFire_shows (count : ℤ) (wirePrice : ℚ) (hReal : m.dryRun = false) :
    Shows (formatFixed 4 wirePrice) (server.GuardSilent m r count wirePrice)
      ((server.guardFire m count wirePrice r).prices later outcome f) := by
  cases hSwitch : server.killSwitch with
  | none =>
    simp only [ExecutorServer.guardFire, ExecutorServer.GuardSilent, ExecutorServer.switchEngaged,
      hSwitch]
    exact gateFire_shows server later m r outcome f count wirePrice hReal
  | some switch =>
    simp only [ExecutorServer.guardFire, ExecutorServer.GuardSilent, ExecutorServer.switchEngaged,
      hSwitch]
    split
    · cases hText : r.switchText with
      | undecodable => exact shows_nothing later outcome f (.inr rfl) rfl rfl
      | text contents => exact shows_rejected _ later m r outcome f rfl rfl ReadText.noConfusion
      | osError => exact shows_rejected _ later m r outcome f rfl rfl ReadText.noConfusion
    · let consulted : ExecutorServer :=
        { server with killSwitch := some (switch.isEngaged r.switchExists r.switchNs).2 }
      exact gateFire_shows consulted later m r outcome f count wirePrice hReal

/-- The fire ends without an order and without a row: the raw price is no tradeable one, the
grid cannot be read, or the order is big enough and the guards end the fire silently. -/
def ExecutorServer.Silent : Prop :=
  ¬(0 < m.wirePriceYesDollars ∧ m.wirePriceYesDollars < 1) ∨
    match snapToGrid m.wirePriceYesDollars m.priceRanges with
    | none => True
    | some wirePrice => 1 ≤ orderCount server m r.balanceDollars ∧
        server.GuardSilent m r (orderCount server m r.balanceDollars) wirePrice

theorem startFire_tradeable_iff (hReal : m.dryRun = false) :
    (∀ price ∈ (server.startFire m r).prices later outcome f, Tradeable price) ↔
      server.Silent m r ∨
        ∃ step, gridStep m.wirePriceYesDollars m.priceRanges = some step ∧
          SnapsInside m.wirePriceYesDollars step := by
  unfold ExecutorServer.Silent
  simp only [ExecutorServer.startFire, hReal, Bool.false_eq_true, if_false]
  by_cases hPrice : 0 < m.wirePriceYesDollars ∧ m.wirePriceYesDollars < 1
  · rw [if_neg (not_not.mpr hPrice), or_iff_right (not_not.mpr hPrice), snapToGrid_eq]
    cases hStep : gridStep m.wirePriceYesDollars m.priceRanges with
    | none => exact iff_of_true (List.forall_mem_nil _) (.inl trivial)
    | some step =>
      simp only [Option.map_some, Option.some.injEq, exists_eq_left']
      rw [← tradeable_toStep_iff (gridStep_pos hStep)]
      by_cases hCount : orderCount server m r.balanceDollars < 1
      · rw [if_pos hCount]
        refine Shows.forall_iff (shows_rejected server later m r outcome f rfl rfl ?_) Tradeable
        exact fun hSilent => absurd hCount (not_lt.mpr hSilent.1)
      · rw [if_neg hCount, and_iff_right (not_lt.mp hCount)]
        exact (guardFire_shows server later m r outcome f _ _ hReal).forall_iff Tradeable
  · rw [if_pos hPrice]
    exact iff_of_true (List.forall_mem_nil _) (.inl (.inl hPrice))

end Stages

def midWake : WakeMessage :=
  { correlationId := "corr-1", marketTicker := "KX-A-1", direction := "yes", kalshiPrice := 1 / 2,
    edge := 0, wirePriceYesDollars := 1 / 2, exchangeIndex := 0, priceRanges := [[0, 1, 1 / 100]] }

theorem startFire_tradeable_midWake : midWake.dryRun = false ∧
    ∀ price ∈ (demoServer.startFire midWake demoReadings).prices demoServer .cancelled ⟨2000, 2000⟩,
      Tradeable price :=
  ⟨rfl, (startFire_tradeable_iff demoServer demoServer midWake demoReadings .cancelled
    ⟨2000, 2000⟩ rfl).mpr (.inr ⟨1 / 100, by decide +kernel, by decide +kernel⟩)⟩

def subCentWake : WakeMessage := { midWake with kalshiPrice := 1 / 250, wirePriceYesDollars := 1 / 250 }

theorem mem_prices_of_started {handled : Handled} {job : OrderJob} (h : job ∈ handled.2.1)
    (later : ExecutorServer) (outcome : PostOutcome) (f : FinishReadings) :
    job.row.priceDollars ∈ handled.prices later outcome f := by
  refine List.mem_append_left _ (List.mem_map_of_mem ?_)
  rw [Handled.jobs]
  split
  · exact List.mem_append_left _ h
  · exact h
  · exact h

theorem subCentWake_sent_at_zero :
    subCentWake.dryRun = false ∧
      (∀ range ∈ subCentWake.priceRanges, ∃ start stop step, range = [start, stop, step] ∧
        0 ≤ start ∧ stop ≤ 1 ∧ 0 < step ∧ (∃ k : ℤ, start = k * step) ∧ ∃ k : ℤ, stop = k * step) ∧
      ∀ later outcome f, ¬∀ price ∈ (demoServer.startFire subCentWake demoReadings).prices later
        outcome f, Tradeable price := by
  refine ⟨rfl, ?_, fun later outcome f hAll => ?_⟩
  · intro range hMem
    rw [List.mem_singleton.mp hMem]
    exact ⟨0, 1, 1 / 100, rfl, by norm_num, by norm_num, by norm_num, ⟨0, by norm_num⟩,
      ⟨100, by norm_num⟩⟩
  · have hPrices : (demoServer.startFire subCentWake demoReadings).2.1.map
        (fun job => job.row.priceDollars) = ["0.0000"] := by decide +kernel
    obtain ⟨job, hJob, hText⟩ := List.mem_map.mp (hPrices ▸ List.mem_singleton_self "0.0000")
    obtain ⟨price, hPrice, hPos, -⟩ := hAll _ (mem_prices_of_started hJob later outcome f)
    rw [hText, show parseFloat "0.0000" = some 0 by decide +kernel] at hPrice
    cases hPrice
    exact lt_irrefl _ hPos

end KalshiBot.Ipc

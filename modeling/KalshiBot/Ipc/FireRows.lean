import KalshiBot.Ipc.FireTasks
import KalshiBot.Ipc.GatedDispatch
import KalshiBot.Library.DecimalText
import KalshiBot.Risk.WarmStart
import KalshiBot.Telemetry.OrderTable

/-! # What a fire's row says to the next process

The dispatcher writes an order in texts, SQLite keeps them, and the warm start of the next
process reads them back as numbers. On the exchange's grid nothing is lost on the way.
-/

namespace KalshiBot.Ipc

open PythonText Sqlite Execution Risk Telemetry

set_option autoImplicit false

def textOf : Value → String
  | .text s => s
  | _ => ""

def textOrNone : Value → Option String
  | .text s => some s
  | _ => none

def integerOf : Value → ℤ
  | .integer i => i
  | _ => 0

/-- The Python value that `sqlite3` returns. -/
def fetchValue : Value → PyValue
  | .null => .null
  | .integer i => .int i
  | .real q => .float q
  | .text s => .str s

/-- A row of `orders_fired` in the columns that the warm start selects. -/
def storedOrder (row : Sqlite.Row Column) : StoredOrder where
  ticker := textOf (row .ticker)
  correlationGroup := textOrNone (row .correlationGroup)
  outcomeSide := textOf (row .outcomeSide)
  count := fetchValue (row .count)
  priceDollars := fetchValue (row .priceDollars)
  fillCount := fetchValue (row .fillCount)
  requestedAtMs := integerOf (row .requestedAtMs)
  status := textOf (row .status)

/-- A price of at most four places, above nothing and below a dollar. -/
def OnGrid (price : ℚ) : Prop := ∃ n : ℕ, 0 < n ∧ n < 10000 ∧ price = n / 10000

section Numbers

theorem parseFloat_onGrid {price : ℚ} (h : OnGrid price) :
    parseFloat (formatFixed 4 price) = some price := by
  obtain ⟨n, -, -, rfl⟩ := h
  have hNonneg : (0 : ℚ) ≤ (n : ℚ) / 10000 := by positivity
  have hScaled : |(n : ℚ) / 10000| * 10 ^ 4 = ((n : ℤ) : ℚ) := by
    rw [abs_of_nonneg hNonneg]
    push_cast
    ring
  rw [parseFloat_formatFixed (by decide), if_neg (not_lt.mpr hNonneg), hScaled,
    roundHalfEven_intCast]
  norm_num

theorem asFloat_count {count : ℤ} (h : 0 ≤ count) :
    RiskGate.asFloat (.str (toString count ++ ".00")) = count := by
  obtain ⟨k, rfl⟩ := Int.eq_ofNat_of_zero_le h
  have hText := parseFloat_wholeNumber k
  rw [RiskGate.asFloat, PyValue.toFloat]
  rw [hText]
  rfl

theorem asFloat_price {price : ℚ} (h : OnGrid price) :
    RiskGate.asFloat (.str (formatFixed 4 price)) = price := by
  rw [RiskGate.asFloat, PyValue.toFloat, parseFloat_onGrid h, Option.getD_some]

/-- A fill count as the exchange documents it: absent, or the text of a decimal number. -/
def Documented (fillCount : PyValue) : Prop :=
  fillCount = .null ∨ ∃ s, fillCount = .str s ∧ (parseFloat s).isSome

/-- The gate and the row read the same number in a response. -/
theorem asFloat_fillCount {response fillCount : PyValue}
    (hGet : response.get? "fill_count" = some fillCount) (h : Documented fillCount) :
    RiskGate.asFloat (orNone (fixedPointStr fillCount)) = responseFillCount response := by
  rw [responseFillCount, hGet]
  obtain rfl | ⟨s, rfl, -⟩ := h
  · rfl
  · have hText : RiskGate.asFloat (orNone (fixedPointStr (.str s))) = (parseFloat s).getD 0 := rfl
    rw [hText]
    by_cases hEmpty : s = ""
    · subst hEmpty
      decide +kernel
    · have hTruthy : (PyValue.str s).truthy = true := decide_eq_true hEmpty
      simp only [if_pos hTruthy]
      rfl

end Numbers

section Rows

variable {r : OrderRow} {bound : Sqlite.Row Column}

theorem storedOrder_of_bind (h : bindRow (tableColumns .ordersFired) (rowOfOrder r) = some bound) :
    storedOrder bound =
      { ticker := r.ticker, correlationGroup := r.correlationGroup, outcomeSide := r.outcomeSide,
        count := .str r.count, priceDollars := .str r.priceDollars, fillCount := orNone r.fillCount,
        requestedAtMs := r.requestedAtMs, status := r.status.text } := by
  have hValue : ∀ c ∈ tableColumns .ordersFired, bindValue (rowOfOrder r c) = some (bound c) :=
    (eq_of_bindRow h).1
  have hText : ∀ c ∈ tableColumns .ordersFired, ∀ text, rowOfOrder r c = .str text →
      bound c = .text text := by
    intro c hMem text hRow
    have hBind := hValue c hMem
    rw [hRow] at hBind
    exact (Option.some.inj hBind).symm
  have hOptional : ∀ c ∈ tableColumns .ordersFired, ∀ text, rowOfOrder r c = orNone text →
      textOrNone (bound c) = text ∧ fetchValue (bound c) = orNone text := by
    intro c hMem text hRow
    have hBind := hValue c hMem
    rw [hRow] at hBind
    cases text with
    | none => rw [← Option.some.inj hBind]; exact ⟨rfl, rfl⟩
    | some text => rw [← Option.some.inj hBind]; exact ⟨rfl, rfl⟩
  have hRequested : bound .requestedAtMs = .integer r.requestedAtMs := by
    have hBind := hValue .requestedAtMs (by decide)
    rw [rowOfOrder, bindValue] at hBind
    split at hBind
    · exact (Option.some.inj hBind).symm
    · cases hBind
  rw [storedOrder, hText .ticker (by decide) _ rfl, hText .outcomeSide (by decide) _ rfl,
    hText .count (by decide) _ rfl, hText .priceDollars (by decide) _ rfl,
    hText .status (by decide) _ rfl, hRequested,
    (hOptional .correlationGroup (by decide) _ rfl).1, (hOptional .fillCount (by decide) _ rfl).2]
  rfl

theorem clientOrderId_of_bind
    (h : bindRow (tableColumns .ordersFired) (rowOfOrder r) = some bound) :
    bound .clientOrderId = .text r.clientOrderId :=
  (Option.some.inj ((eq_of_bindRow h).1 .clientOrderId (by decide))).symm

end Rows

section Sending

/-- The row and the switches of a dispatch that a real fire has opened. -/
structure Dispatched (m : WakeMessage) (count : ℤ) (wirePrice : ℚ) (r : FireReadings)
    (d : Dispatch) : Prop where
  ticker : d.row.ticker = m.marketTicker
  correlationGroup : d.row.correlationGroup =
    if m.correlationGroup = "" then none else some m.correlationGroup
  outcomeSide : d.row.outcomeSide = m.direction
  count : d.row.count = toString count ++ ".00"
  priceDollars : d.row.priceDollars = formatFixed 4 wirePrice
  requestedAtMs : d.row.requestedAtMs = r.dispatch.requestedAtMs
  clientOrderId : d.row.clientOrderId = r.dispatch.clientOrderId
  status : d.row.status = .pending
  fillCount : d.row.fillCount = none
  unresolved : d.row.submittedAtMs = none ∧ d.row.acknowledgedAtMs = none ∧
    d.row.kalshiOrderId = .null
  submittedAtMs : d.submittedAtMs = r.dispatch.submittedAtMs
  dryRun : d.dryRun = false

/-- How a gated server answers a real fire that nothing outside the gate stops. -/
inductive Answers (server : ExecutorServer) (m : WakeMessage) (r : FireReadings)
    (gate : RiskGate) : List PendingFire → List OrderJob → Option RiskGate → Prop
  | refused {after : RiskGate} {jobs : List OrderJob}
      (hAfter : after = gate ∨ ∃ c, after = (gate.check c r.checkMs).2)
      (hJobs : ∀ job ∈ jobs, ∃ row, job = .fired row true ∧ row.status = .rejected) :
      Answers server m r gate [] jobs (some after)
  | sent {wirePrice : ℚ} {d : Dispatch}
      (hSnapped : snapToGrid m.wirePriceYesDollars m.priceRanges = some wirePrice)
      (hCounted : 1 ≤ orderCount server m r.balanceDollars)
      (hDispatched : Dispatched m (orderCount server m r.balanceDollars) wirePrice r d) :
      Answers server m r gate
        [⟨m, orderCount server m r.balanceDollars, wirePrice, true, d⟩] [.fired d.row false]
        (some (server.gateAfter m r gate wirePrice))

namespace ExecutorServer

variable {server sender : ExecutorServer} {m : WakeMessage} {r : FireReadings}
  {gate recorded : RiskGate} {count : ℤ} {wirePrice : ℚ}

theorem sendFire_of_real (hGate : sender.riskGate = some recorded) (hReal : m.dryRun = false)
    (hDirection : m.direction ∈ ["yes", "no"]) (hPermitted : r.dispatch.permitted = true) :
    ∃ d, Dispatched m count wirePrice r d ∧ sender.sendFire m count wirePrice r =
      (.awaiting ⟨m, count, wirePrice, true, d⟩, [.fired d.row false],
        { sender with riskGate := some recorded.beginDispatch }) := by
  have hTemplate : buildTemplate m.marketTicker m.direction = some ⟨m.marketTicker, m.direction⟩ :=
    if_pos hDirection
  let call : DispatchCall :=
    { template := ⟨m.marketTicker, m.direction⟩, count
      priceDollars := formatFixed 4 wirePrice
      timeInForce := sender.orderTimeInForce
      selfTradePreventionType := sender.orderSelfTradePreventionType
      exchangeIndex := m.exchangeIndex
      correlationId := m.correlationId
      correlationGroup := m.correlationGroup
      dryRun := m.dryRun }
  obtain ⟨d, jobs, hOpen⟩ : ∃ d jobs, openDispatch call r.dispatch = some (d, jobs) :=
    ⟨_, _, if_pos hPermitted⟩
  obtain ⟨hDryRun, hJobs⟩ := openDispatch_eq_some hOpen
  have hReal' : call.dryRun = false := hReal
  rw [hReal', if_neg Bool.false_ne_true] at hJobs
  refine ⟨d, ?_, ?_⟩
  · rw [openDispatch, if_pos hPermitted] at hOpen
    obtain ⟨rfl, -⟩ := Prod.mk.inj (Option.some.inj hOpen)
    exact ⟨rfl, rfl, rfl, rfl, rfl, rfl, rfl, rfl, rfl, ⟨rfl, rfl, rfl⟩, rfl, hReal⟩
  · subst hJobs
    simp only [sendFire, hTemplate]
    rw [show openDispatch _ r.dispatch = _ from hOpen]
    simp only [hGate, hReal, Option.isSome_some, Bool.not_false, Bool.and_self, if_true, withGate,
      Option.map_some]

theorem answers_of_gateFire (hGate : server.riskGate = some gate) (hReal : m.dryRun = false)
    (hDirection : m.direction ∈ ["yes", "no"]) (hPermitted : r.dispatch.permitted = true)
    (hSnapped : snapToGrid m.wirePriceYesDollars m.priceRanges = some wirePrice)
    (hCounted : 1 ≤ orderCount server m r.balanceDollars) (switch : Option KalshiBot.Runtime.KillSwitch) :
    Answers server m r gate
      ({ server with killSwitch := switch }.gateFire m (orderCount server m r.balanceDollars)
        wirePrice r).1.tasks
      ({ server with killSwitch := switch }.gateFire m (orderCount server m r.balanceDollars)
        wirePrice r).2.1
      ({ server with killSwitch := switch }.gateFire m (orderCount server m r.balanceDollars)
        wirePrice r).2.2.riskGate := by
  cases hVerdict : (gate.check (server.orderOf m r wirePrice) r.checkMs).1 with
  | some rejection =>
    rw [orderOf] at hVerdict
    simp only [gateFire, hGate, hVerdict]
    refine .refused (.inr ⟨_, rfl⟩) fun job hMem => ?_
    rw [List.mem_singleton.mp hMem]
    exact ⟨_, rfl, rfl⟩
  | none =>
    rw [orderOf] at hVerdict
    simp only [gateFire, hGate, hVerdict]
    generalize hRecorded : (gate.check (candidateOf m (orderCount server m r.balanceDollars) wirePrice)
      r.checkMs).2.recordAttempt m.marketTicker m.direction (orderCount server m r.balanceDollars)
      wirePrice r.recordMs m.correlationGroup = recorded
    have hAfter : recorded.beginDispatch = server.gateAfter m r gate wirePrice := by
      rw [← hRecorded]
      rfl
    obtain ⟨d, hDispatched, hSent⟩ := @sendFire_of_real
      { server with killSwitch := switch, riskGate := some recorded } m r recorded
      (orderCount server m r.balanceDollars) wirePrice rfl hReal hDirection hPermitted
    rw [hSent, hAfter]
    exact .sent hSnapped hCounted hDispatched

theorem answers_of_startFire (hGate : server.riskGate = some gate) (hReal : m.dryRun = false)
    (hDirection : m.direction ∈ ["yes", "no"]) (hPermitted : r.dispatch.permitted = true) :
    Answers server m r gate (server.startFire m r).1.tasks (server.startFire m r).2.1
      (server.startFire m r).2.2.riskGate := by
  have hUnseen : ∀ {start : FireStart} {jobs : List OrderJob},
      start.tasks = [] → (∀ job ∈ jobs, ∃ row, job = .fired row true ∧ row.status = .rejected) →
      Answers server m r gate start.tasks jobs (some gate) := by
    intro start jobs hTasks hJobs
    rw [hTasks]
    exact .refused (.inl rfl) hJobs
  have hRefusal : ∀ (sender : ExecutorServer) (count : ℤ) (price : ℚ) (reason : String),
      ∀ job ∈ [recordRejected sender m count price reason r],
        ∃ row, job = .fired row true ∧ row.status = .rejected := by
    intro sender count price reason job hMem
    rw [List.mem_singleton.mp hMem]
    exact ⟨_, rfl, rfl⟩
  simp only [startFire, hReal, Bool.false_eq_true, if_false]
  split
  · rw [hGate]
    exact hUnseen rfl (List.forall_mem_nil _)
  cases hSnap : snapToGrid m.wirePriceYesDollars m.priceRanges with
  | none =>
    rw [hGate]
    exact hUnseen rfl (List.forall_mem_nil _)
  | some wirePrice =>
    simp only
    split
    · rw [hGate]
      exact hUnseen rfl (hRefusal _ _ _ _)
    next hCount =>
    have hFire := answers_of_gateFire hGate hReal hDirection hPermitted hSnap (not_lt.mp hCount)
    cases hSwitch : server.killSwitch with
    | none =>
      simp only [guardFire, hSwitch]
      have hSame : { server with killSwitch := server.killSwitch } = server := rfl
      have hAnswer := hFire server.killSwitch
      rw [hSame] at hAnswer
      exact hAnswer
    | some switch =>
      simp only [guardFire, hSwitch]
      split
      · split
        · rw [hGate]
          exact hUnseen rfl (List.forall_mem_nil _)
        · rw [hGate]
          exact hUnseen rfl (hRefusal _ _ _ _)
      · exact hFire _

end ExecutorServer

end Sending

section Reading

/-- SQLite's `CAST(… AS REAL)` reads a decimal numeral as Python's `float` does. -/
def CastsNumerals (castText : String → ℚ) : Prop :=
  ∀ text q, parseFloat text = some q → castText text = q

variable {castText : String → ℚ} {m : WakeMessage} {count : ℤ} {wirePrice : ℚ} {r : FireReadings}
  {d : Dispatch} {row : OrderRow} {bound : Sqlite.Row Column}

theorem Dispatched.valid (h : Dispatched m count wirePrice r d) (hCast : CastsNumerals castText)
    (hDirection : m.direction ∈ ["yes", "no"]) (hCount : 1 ≤ count) (hGrid : OnGrid wirePrice)
    (hRequested : InRange r.dispatch.requestedAtMs) : ValidRow castText d.row where
  outcomeSide := h.outcomeSide ▸ hDirection
  count := by
    obtain ⟨k, rfl⟩ := Int.eq_ofNat_of_zero_le (zero_le_one.trans hCount)
    rw [h.count, hCast _ _ (parseFloat_wholeNumber k)]
    exact_mod_cast hCount
  price := by
    rw [h.priceDollars, hCast _ _ (parseFloat_onGrid hGrid)]
    obtain ⟨n, hPos, hLt, rfl⟩ := hGrid
    have hPos' : (0 : ℚ) < n := by exact_mod_cast hPos
    have hLt' : (n : ℚ) < 10000 := by exact_mod_cast hLt
    constructor
    · positivity
    · rw [div_lt_one (by norm_num)]
      exact hLt'
  requestedAtMs := h.requestedAtMs ▸ hRequested
  submittedAtMs t hTime := by
    rw [h.unresolved.1] at hTime
    cases hTime
  acknowledgedAtMs t hTime := by
    rw [h.unresolved.2.1] at hTime
    cases hTime
  orderId := by
    rw [h.unresolved.2.2]
    rfl

/-- The warm start reads the attempt that the gate has recorded. -/
theorem Dispatched.records (h : Dispatched m count wirePrice r d) (hCount : 1 ≤ count)
    (hGrid : OnGrid wirePrice) (hClock : r.dispatch.requestedAtMs = r.recordMs)
    (hBound : bindRow (tableColumns .ordersFired) (rowOfOrder d.row) = some bound) :
    (storedOrder bound).Records ⟨attemptOf m count wirePrice r, none⟩ := by
  rw [storedOrder_of_bind hBound]
  constructor
  · exact h.ticker
  · exact h.outcomeSide
  · exact h.requestedAtMs.trans hClock
  · change RiskGate.asFloat (.str d.row.count) = count
    rw [h.count]
    exact asFloat_count (zero_le_one.trans hCount)
  · change RiskGate.asFloat (.str d.row.priceDollars) = wirePrice
    rw [h.priceDollars]
    exact asFloat_price hGrid
  · exact h.correlationGroup
  · change orNone d.row.fillCount = .null
    rw [h.fillCount]
    rfl

/-- The row of an order's resolution: what the pending row says of the order, and the outcome. -/
structure Resolves (d : Dispatch) (row : OrderRow) : Prop where
  ticker : row.ticker = d.row.ticker
  correlationGroup : row.correlationGroup = d.row.correlationGroup
  outcomeSide : row.outcomeSide = d.row.outcomeSide
  count : row.count = d.row.count
  priceDollars : row.priceDollars = d.row.priceDollars
  requestedAtMs : row.requestedAtMs = d.row.requestedAtMs
  clientOrderId : row.clientOrderId = d.row.clientOrderId
  status : row.status ≠ .pending ∧ row.status ≠ .rejected

/-- The row of the resolution is read as the order it resolves, with the fill it reports. -/
theorem Resolves.records {pending : Sqlite.Row Column} {o : Order} {fill : Option (ℚ × ℤ)}
    (h : Resolves d row)
    (hPending : bindRow (tableColumns .ordersFired) (rowOfOrder d.row) = some pending)
    (hBound : bindRow (tableColumns .ordersFired) (rowOfOrder row) = some bound)
    (hRecords : (storedOrder pending).Records o)
    (hFill : match fill with
      | none => row.fillCount = none
      | some (fillCount, _) => RiskGate.asFloat (orNone row.fillCount) = fillCount) :
    (storedOrder bound).Records { o with fill } := by
  rw [storedOrder_of_bind hPending] at hRecords
  rw [storedOrder_of_bind hBound, h.ticker, h.correlationGroup, h.outcomeSide, h.count,
    h.priceDollars, h.requestedAtMs]
  refine ⟨hRecords.ticker, hRecords.outcomeSide, hRecords.requestedAtMs, hRecords.count,
    hRecords.priceDollars, hRecords.correlationGroup, ?_⟩
  cases fill with
  | none =>
    change orNone row.fillCount = .null
    have hNone : row.fillCount = none := hFill
    rw [hNone]
    rfl
  | some fill => exact hFill

theorem resolvedStatus_ne_rejected {response : PyValue} {timeInForce : TimeInForce}
    {status : OrderStatus} (h : resolvedStatus response timeInForce = some status) :
    status ≠ .rejected := by
  obtain ⟨fillCount, -, rfl⟩ := Option.map_eq_some_iff.mp h
  repeat' split
  all_goals rintro ⟨⟩

theorem resolves_of_resolutionRow {response : PyValue} {status : OrderStatus}
    {errorMessage : Option String} {nowMs : ℤ}
    (hStatus : status ≠ .pending ∧ status ≠ .rejected)
    (h : resolutionRow d response status errorMessage nowMs = some row) :
    Resolves d row ∧ ∃ fillCount, response.get? "fill_count" = some fillCount ∧
      row.fillCount = fixedPointStr fillCount := by
  simp only [resolutionRow, Option.bind_eq_bind, Option.bind_eq_some_iff, Option.pure_def,
    Option.some.injEq] at h
  obtain ⟨orderId, -, fillCount, hFill, -, -, -, -, -, -, rfl⟩ := h
  exact ⟨⟨rfl, rfl, rfl, rfl, rfl, rfl, rfl, hStatus⟩, fillCount, hFill, rfl⟩

/-- A response object says no more than the exchange documents. -/
def AsDocumented (outcome : PostOutcome) : Prop :=
  ∀ response, outcome = .returned response →
    (∀ orderId, response.get? "order_id" = some orderId → (bindValue orderId).isSome) ∧
      ∀ fillCount, response.get? "fill_count" = some fillCount → Documented fillCount

/-- A dispatch that ends says nothing at all, or hands over a resolution whose fill count is the
one that the gate is told. -/
theorem closeDispatch_resolves {outcome : PostOutcome} {nowMs : ℤ} (hReal : d.dryRun = false)
    (hValid : ValidRow castText d.row) (hPending : d.row.status = .pending)
    (hSubmitted : InRange d.submittedAtMs) (hNow : InRange nowMs)
    (hDocumented : AsDocumented outcome) :
    closeDispatch d outcome nowMs = (none, []) ∨
      ∃ row, (closeDispatch d outcome nowMs).2 = [.resolution row] ∧ Resolves d row ∧
        ValidRow castText row ∧
        match (closeDispatch d outcome nowMs).1 with
        | none => row.fillCount = none
        | some response =>
          RiskGate.asFloat (orNone row.fillCount) = responseFillCount response := by
  have hError : ∀ errorMessage, ∃ row,
      resolutionJobs d (.dict []) .error errorMessage nowMs = [.resolution row] ∧ Resolves d row ∧
        ValidRow castText row ∧ row.fillCount = none := by
    intro errorMessage
    obtain ⟨row, hRow⟩ : ∃ row, resolutionRow d (.dict []) .error errorMessage nowMs = some row :=
      ⟨_, rfl⟩
    have hStatus : OrderStatus.error ≠ .pending ∧ OrderStatus.error ≠ .rejected := by decide
    obtain ⟨hResolves, fillCount, hFill, hCount⟩ := resolves_of_resolutionRow hStatus hRow
    refine ⟨row, ?_, hResolves, ?_, ?_⟩
    · rw [resolutionJobs, hReal, if_neg Bool.false_ne_true, hRow]
      rfl
    · refine (orderRows_resolutionRow hValid rfl hPending hSubmitted hNow hStatus.1 ?_
        hRow).validResolution
      rintro _ ⟨⟩
      rfl
    · cases hFill
      exact hCount
  cases outcome with
  | raised message =>
    obtain ⟨row, hJobs, hResolves, hRow, hFill⟩ := hError (some message)
    exact .inr ⟨row, hJobs, hResolves, hRow, hFill⟩
  | cancelled =>
    obtain ⟨row, hJobs, hResolves, hRow, hFill⟩ := hError none
    exact .inr ⟨row, hJobs, hResolves, hRow, hFill⟩
  | returned response =>
    cases hStatus : resolvedStatus response d.row.timeInForce with
    | none =>
      left
      rw [closeDispatch, hStatus]
    | some status =>
      right
      obtain ⟨hOrderId, hFillCount⟩ := hDocumented response rfl
      have hNot : status ≠ .pending ∧ status ≠ .rejected :=
        ⟨resolvedStatus_ne_pending hStatus, resolvedStatus_ne_rejected hStatus⟩
      obtain ⟨row, hRow⟩ : ∃ row, resolutionRow d response status none nowMs = some row := by
        cases response with
        | dict items => exact ⟨_, rfl⟩
        | _ => cases hStatus
      obtain ⟨hResolves, fillCount, hFill, hCount⟩ := resolves_of_resolutionRow hNot hRow
      have hClosed : closeDispatch d (.returned response) nowMs =
          (some response, [.resolution row]) := by
        rw [closeDispatch, hStatus]
        simp only [resolutionJobs, hReal, Bool.false_eq_true, if_false, hRow]
        rfl
      refine ⟨row, by rw [hClosed], hResolves, ?_, ?_⟩
      · exact (orderRows_resolutionRow hValid rfl hPending hSubmitted hNow hNot.1 hOrderId
          hRow).validResolution
      · rw [hClosed, hCount]
        exact asFloat_fillCount hFill (hFillCount fillCount hFill)

end Reading

end KalshiBot.Ipc

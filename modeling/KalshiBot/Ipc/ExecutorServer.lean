import KalshiBot.Execution.OrderDispatcher
import KalshiBot.Execution.PositionSizing
import KalshiBot.Risk.Admission
import KalshiBot.Runtime.KillSwitch

/-! # The executor's handling of a wake

`_handle_fire` never suspends before the POST of its dispatch, so a fire is two
atomic pieces: `startFire` up to that point and `finishFire` from the outcome on.
Latency events are left out; nothing here reads them.
-/

namespace KalshiBot.Ipc

open PythonText Execution Risk KalshiBot.Runtime

set_option autoImplicit false

structure WakeMessage where
  correlationId : String
  marketTicker : String
  direction : String
  kalshiPrice : ℚ
  edge : ℚ
  dryRun : Bool := false
  wirePriceYesDollars : ℚ := 0
  exchangeIndex : ℤ := -1
  availableSizeContracts : ℚ := 0
  priceRanges : List (List ℚ) := [[0, 1, 1 / 100]]
  correlationGroup : String := ""

structure ExecutorServer where
  fixedOrderContractCount : ℤ
  orderTimeInForce : TimeInForce
  orderSelfTradePreventionType : SelfTradePreventionType
  killSwitch : Option KillSwitch
  riskGate : Option RiskGate
  kellyFraction : ℚ := 15 / 100
  maxPositionPctOfBalance : ℚ := 2 / 100

/-- What the start of a fire reads from outside: clocks, minted ids, the balance cache
(`none` without one), the switch file and the order guard. -/
structure FireReadings where
  balanceDollars : Option ℚ
  switchExists : Bool
  switchText : ReadText
  switchNs : ℤ
  rejectedId : Uuid
  rejectedMs : ℤ
  checkMs : ℤ
  recordMs : ℤ
  dispatch : DispatchReadings

def toStep (price step : ℚ) : ℚ := roundHalfEven (price / step) * step

/-- `none` is the `ValueError` of unpacking a range that is no triple. -/
def snapToGrid (price : ℚ) : List (List ℚ) → Option ℚ
  | [] => some (toStep price (1 / 100))
  | [start, stop, step] :: ranges =>
    if 0 < step ∧ start ≤ price ∧ price ≤ stop then some (toStep price step)
    else snapToGrid price ranges
  | _ :: _ => none

/-- The contracts a real fire asks for; less than one cannot be ordered. -/
def orderCount (server : ExecutorServer) (m : WakeMessage) (balanceDollars : Option ℚ) : ℤ :=
  let sized := sizePosition m.edge m.kalshiPrice (balanceDollars.getD 0) server.kellyFraction
    server.maxPositionPctOfBalance server.fixedOrderContractCount
  if 0 < m.availableSizeContracts then min sized (truncate m.availableSizeContracts) else sized

def candidateOf (m : WakeMessage) (count : ℤ) (wirePrice : ℚ) : Candidate :=
  { ticker := m.marketTicker, direction := m.direction, exchangeIndex := m.exchangeIndex, count,
    priceDollars := wirePrice, correlationGroup := m.correlationGroup }

def recordRejected (server : ExecutorServer) (m : WakeMessage) (count : ℤ) (priceDollars : ℚ)
    (reason : String) (r : FireReadings) : OrderJob :=
  .fired
    { correlationId := m.correlationId
      clientOrderId := r.rejectedId
      ticker := m.marketTicker
      correlationGroup := if m.correlationGroup = "" then none else some m.correlationGroup
      outcomeSide := m.direction
      count := toString count ++ ".00"
      priceDollars := formatFixed 4 priceDollars
      timeInForce := server.orderTimeInForce
      selfTradePreventionType := server.orderSelfTradePreventionType
      status := .rejected
      errorMessage := some reason
      requestedAtMs := r.rejectedMs } true

structure PendingFire where
  message : WakeMessage
  count : ℤ
  wirePrice : ℚ
  gatingRisk : Bool
  dispatch : Dispatch

inductive FireStart where
  | finished
  | raised
  | awaiting (fire : PendingFire)

abbrev Handled := FireStart × List OrderJob × ExecutorServer

namespace ExecutorServer

def withGate (server : ExecutorServer) (f : RiskGate → RiskGate) : ExecutorServer :=
  { server with riskGate := server.riskGate.map f }

/-- From `begin_dispatch` to the first suspension; a failure in between runs the
`finally` block at once. -/
def sendFire (server : ExecutorServer) (m : WakeMessage) (count : ℤ) (wirePrice : ℚ)
    (r : FireReadings) : Handled :=
  let gatingRisk := server.riskGate.isSome && !m.dryRun
  let begun := if gatingRisk then server.withGate RiskGate.beginDispatch else server
  let failed : Handled :=
    (.finished, [], if gatingRisk then begun.withGate RiskGate.endDispatch else begun)
  match buildTemplate m.marketTicker m.direction with
  | none => failed
  | some template =>
    let call : DispatchCall :=
      { template, count
        priceDollars := formatFixed 4 wirePrice
        timeInForce := server.orderTimeInForce
        selfTradePreventionType := server.orderSelfTradePreventionType
        exchangeIndex := m.exchangeIndex
        correlationId := m.correlationId
        correlationGroup := m.correlationGroup
        dryRun := m.dryRun }
    match openDispatch call r.dispatch with
    | none => failed
    | some (dispatch, jobs) => (.awaiting ⟨m, count, wirePrice, gatingRisk, dispatch⟩, jobs, begun)

def gateFire (server : ExecutorServer) (m : WakeMessage) (count : ℤ) (wirePrice : ℚ)
    (r : FireReadings) : Handled :=
  match server.riskGate with
  | none => server.sendFire m count wirePrice r
  | some gate =>
    let (verdict, checked) := gate.check (candidateOf m count wirePrice) r.checkMs
    match verdict with
    | some rejection =>
      (.finished,
        [recordRejected server m count wirePrice ("risk gate: " ++ rejection.message) r],
        { server with riskGate := some checked })
    | none =>
      let recorded := checked.recordAttempt m.marketTicker m.direction count wirePrice r.recordMs
        m.correlationGroup
      { server with riskGate := some recorded }.sendFire m count wirePrice r

def guardFire (server : ExecutorServer) (m : WakeMessage) (count : ℤ) (wirePrice : ℚ)
    (r : FireReadings) : Handled :=
  match server.killSwitch with
  | none => server.gateFire m count wirePrice r
  | some switch =>
    let (engaged, switch) := switch.isEngaged r.switchExists r.switchNs
    let server := { server with killSwitch := some switch }
    if engaged then
      match KillSwitch.reason r.switchText with
      | none => (.raised, [], server)
      | some text =>
        let reason := if text.getD "" = "" then "(no reason recorded)" else text.getD ""
        (.finished,
          [recordRejected server m count wirePrice ("kill switch engaged: " ++ reason) r], server)
    else server.gateFire m count wirePrice r

/-- Whether `is_engaged` answers true when the fire consults the switch. -/
def switchEngaged (server : ExecutorServer) (r : FireReadings) : Bool :=
  match server.killSwitch with
  | none => false
  | some switch => (switch.isEngaged r.switchExists r.switchNs).1

def orderOf (server : ExecutorServer) (m : WakeMessage) (r : FireReadings) (wirePrice : ℚ) :
    Candidate :=
  candidateOf m (orderCount server m r.balanceDollars) wirePrice

def startFire (server : ExecutorServer) (m : WakeMessage) (r : FireReadings) : Handled :=
  if m.dryRun then
    match snapToGrid m.wirePriceYesDollars m.priceRanges with
    | none => (.raised, [], server)
    | some wirePrice => server.sendFire m server.fixedOrderContractCount wirePrice r
  else if ¬(0 < m.wirePriceYesDollars ∧ m.wirePriceYesDollars < 1) then (.finished, [], server)
  else
    match snapToGrid m.wirePriceYesDollars m.priceRanges with
    | none => (.raised, [], server)
    | some wirePrice =>
      let count := orderCount server m r.balanceDollars
      if count < 1 then
        (.finished,
          [recordRejected server m server.fixedOrderContractCount wirePrice
            ("insufficient resting volume: " ++ formatGeneral m.availableSizeContracts ++
              " contracts at the level") r], server)
      else server.guardFire m count wirePrice r

end ExecutorServer

/-- `float(response.get("fill_count", 0) or 0)`, zero where that raises. -/
def responseFillCount (response : PyValue) : ℚ :=
  match response.get? "fill_count" with
  | some value => if value.truthy then value.toFloat.getD 0 else 0
  | none => 0

structure FinishReadings where
  acknowledgedMs : ℤ
  fillMs : ℤ

def finishFire (server : ExecutorServer) (fire : PendingFire) (outcome : PostOutcome)
    (r : FinishReadings) : List OrderJob × ExecutorServer :=
  let closed := closeDispatch fire.dispatch outcome r.acknowledgedMs
  if fire.gatingRisk then
    let resolved := match closed.1 with
      | some response =>
        server.withGate fun gate =>
          gate.recordFill fire.message.marketTicker (responseFillCount response) r.fillMs
      | none => server
    (closed.2, resolved.withGate RiskGate.endDispatch)
  else (closed.2, server)

def demoServer : ExecutorServer :=
  { fixedOrderContractCount := 1, orderTimeInForce := .fillOrKill,
    orderSelfTradePreventionType := .takerAtCross, killSwitch := some {},
    riskGate := some { limits := { allowedExchangeIndexes := {0} } } }

def demoReadings : FireReadings :=
  { balanceDollars := some 100, switchExists := false, switchText := .osError, switchNs := 0,
    rejectedId := ⟨"0123456789abcdef0123456789abcdef", by decide⟩, rejectedMs := 1000,
    checkMs := 1000, recordMs := 1000,
    dispatch :=
      { permitted := true, clientOrderId := ⟨"00112233445566778899aabbccddeeff", by decide⟩,
        correlationId := ⟨"ffeeddccbbaa99887766554433221100", by decide⟩,
        requestedAtMs := 1000, submittedAtMs := 1000 } }

example : (demoServer.startFire ⟨"corr-1", "KX-A-1", "yes", 1 / 2, 1 / 10, false, 1 / 2, 0, 0,
    [[0, 1, 1 / 100]], ""⟩ demoReadings).2.1.map (fun job => (job.row.count, job.row.priceDollars)) =
      [("4.00", "0.5000")] := by decide +kernel

end KalshiBot.Ipc

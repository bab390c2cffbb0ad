import KalshiBot.Library.Doubles

/-! # The order dispatcher

A dispatch runs up to its first suspension, inside the POST, and is resumed there with
the outcome of the request. Both halves list the jobs they hand to the telemetry
queue, in order.
-/

namespace KalshiBot.Execution

open PythonText

set_option autoImplicit false

inductive TimeInForce where
  | fillOrKill | goodTillCanceled | immediateOrCancel
  deriving DecidableEq

def TimeInForce.text : TimeInForce → String
  | fillOrKill => "fill_or_kill"
  | goodTillCanceled => "good_till_canceled"
  | immediateOrCancel => "immediate_or_cancel"

inductive SelfTradePreventionType where
  | takerAtCross | maker
  deriving DecidableEq

def SelfTradePreventionType.text : SelfTradePreventionType → String
  | takerAtCross => "taker_at_cross"
  | maker => "maker"

inductive OrderStatus where
  | pending | submitted | accepted | filled | canceled | error | rejected
  deriving DecidableEq

def OrderStatus.text : OrderStatus → String
  | pending => "pending"
  | submitted => "submitted"
  | accepted => "accepted"
  | filled => "filled"
  | canceled => "canceled"
  | error => "error"
  | rejected => "rejected"

/-- The text of a freshly minted id, `uuid4().hex`. -/
abbrev Uuid := {text : String // text.length = 32}

structure PrebuiltOrderTemplate where
  ticker : String
  outcomeSide : String

/-- `none` is the `ValueError` of a side outside the valid ones. -/
def buildTemplate (ticker outcomeSide : String) : Option PrebuiltOrderTemplate :=
  if outcomeSide ∈ ["yes", "no"] then some ⟨ticker, outcomeSide⟩ else none

/-- A row for `orders_fired`; a column the source leaves out of its dict is `none`, which
is what the insert binds for it. -/
structure OrderRow where
  correlationId : String
  clientOrderId : String
  kalshiOrderId : PyValue := .null
  ticker : String
  correlationGroup : Option String
  outcomeSide : String
  count : String
  priceDollars : String
  timeInForce : TimeInForce
  selfTradePreventionType : SelfTradePreventionType
  postOnly : Option Bool := none
  status : OrderStatus
  errorMessage : Option String := none
  fillCount : Option String := none
  remainingCount : Option String := none
  averageFillPrice : Option String := none
  averageFeePaid : Option String := none
  requestedAtMs : ℤ
  submittedAtMs : Option ℤ := none
  acknowledgedAtMs : Option ℤ := none

inductive OrderJob where
  | fired (row : OrderRow) (blocking : Bool)
  | resolution (row : OrderRow)

def OrderJob.row : OrderJob → OrderRow
  | fired row _ => row
  | resolution row => row

inductive BookSide where
  | bid | ask
  deriving DecidableEq

structure OrderRequest where
  ticker : String
  clientOrderId : String
  side : BookSide
  count : String
  price : String
  timeInForce : TimeInForce
  selfTradePreventionType : SelfTradePreventionType
  postOnly : Bool
  exchangeIndex : ℤ
  deriving DecidableEq

def resolvePostOnly (timeInForce : TimeInForce) (postOnly : Option Bool) : Bool :=
  postOnly.getD (timeInForce = .goodTillCanceled)

def fixedPointStr : PyValue → Option String
  | .null => none
  | value => some value.text

def fixedPointFloat : PyValue → Option PyFloat
  | .null => none
  | value => value.toDouble

/-- `none` is the `AttributeError` of a response that is no object. -/
def resolvedStatus (response : PyValue) (timeInForce : TimeInForce) : Option OrderStatus :=
  (response.get? "fill_count").map fun fillCount =>
    match fixedPointFloat fillCount with
    | none => .submitted
    | some count =>
      if (PyFloat.finite 0).lt count then .filled
      else if timeInForce = .goodTillCanceled then .accepted
      else .canceled

structure DispatchCall where
  template : PrebuiltOrderTemplate
  count : ℤ
  priceDollars : String
  timeInForce : TimeInForce
  selfTradePreventionType : SelfTradePreventionType
  postOnly : Option Bool := none
  exchangeIndex : ℤ := -1
  clientOrderId : String := ""
  correlationId : String := ""
  correlationGroup : String := ""
  dryRun : Bool := false

structure DispatchReadings where
  permitted : Bool
  clientOrderId : Uuid
  correlationId : Uuid
  requestedAtMs : ℤ
  submittedAtMs : ℤ

structure Dispatch where
  request : OrderRequest
  row : OrderRow
  submittedAtMs : ℤ
  dryRun : Bool

def orMinted (given : String) (minted : Uuid) : String := if given = "" then minted.val else given

/-- `none` is the order guard's refusal, which comes before anything else. -/
def openDispatch (call : DispatchCall) (r : DispatchReadings) : Option (Dispatch × List OrderJob) :=
  if r.permitted then
    let clientOrderId := orMinted call.clientOrderId r.clientOrderId
    let count := toString call.count ++ ".00"
    let postOnly := resolvePostOnly call.timeInForce call.postOnly
    let row : OrderRow :=
      { correlationId := orMinted call.correlationId r.correlationId
        clientOrderId
        ticker := call.template.ticker
        correlationGroup := if call.correlationGroup = "" then none else some call.correlationGroup
        outcomeSide := call.template.outcomeSide
        count
        priceDollars := call.priceDollars
        timeInForce := call.timeInForce
        selfTradePreventionType := call.selfTradePreventionType
        postOnly := some postOnly
        status := .pending
        requestedAtMs := r.requestedAtMs }
    let request : OrderRequest :=
      { ticker := call.template.ticker
        clientOrderId
        side := if call.template.outcomeSide = "yes" then .bid else .ask
        count
        price := call.priceDollars
        timeInForce := call.timeInForce
        selfTradePreventionType := call.selfTradePreventionType
        postOnly
        exchangeIndex := call.exchangeIndex }
    some (⟨request, row, r.submittedAtMs, call.dryRun⟩,
      if call.dryRun then [] else [.fired row false])
  else none

theorem openDispatch_eq_some {call : DispatchCall} {r : DispatchReadings} {d : Dispatch}
    {jobs : List OrderJob} (h : openDispatch call r = some (d, jobs)) :
    d.dryRun = call.dryRun ∧ jobs = if call.dryRun then [] else [.fired d.row false] := by
  unfold openDispatch at h
  split at h
  · obtain ⟨rfl, rfl⟩ := Prod.mk.inj (Option.some.inj h)
    exact ⟨rfl, rfl⟩
  · cases h

/-- How the awaited request ends. A cancellation is no `Exception`. -/
inductive PostOutcome where
  | returned (response : PyValue)
  | raised (message : String)
  | cancelled

def resolutionRow (d : Dispatch) (response : PyValue) (status : OrderStatus)
    (errorMessage : Option String) (nowMs : ℤ) : Option OrderRow := do
  let kalshiOrderId ← response.get? "order_id"
  let fillCount ← response.get? "fill_count"
  let remainingCount ← response.get? "remaining_count"
  let averageFillPrice ← response.get? "average_fill_price"
  let averageFeePaid ← response.get? "average_fee_paid"
  return { d.row with
    kalshiOrderId
    status
    errorMessage
    fillCount := fixedPointStr fillCount
    remainingCount := fixedPointStr remainingCount
    averageFillPrice := fixedPointStr averageFillPrice
    averageFeePaid := fixedPointStr averageFeePaid
    submittedAtMs := some d.submittedAtMs
    acknowledgedAtMs := if status = .error then none else some nowMs }

def resolutionJobs (d : Dispatch) (response : PyValue) (status : OrderStatus)
    (errorMessage : Option String) (nowMs : ℤ) : List OrderJob :=
  if d.dryRun then []
  else ((resolutionRow d response status errorMessage nowMs).map OrderJob.resolution).toList

/-- The rest of a dispatch: the response it returns, `none` if it raises, and its jobs. A
response that is no object raises in `_resolved_status` and again in the `finally` block
before the resolution is handed over. -/
def closeDispatch (d : Dispatch) (outcome : PostOutcome) (nowMs : ℤ) :
    Option PyValue × List OrderJob :=
  match outcome with
  | .returned response =>
    match resolvedStatus response d.row.timeInForce with
    | some status => (some response, resolutionJobs d response status none nowMs)
    | none => (none, [])
  | .raised message => (none, resolutionJobs d (.dict []) .error (some message) nowMs)
  | .cancelled => (none, resolutionJobs d (.dict []) .error none nowMs)

theorem closeDispatch_of_dryRun {d : Dispatch} (hShadow : d.dryRun = true) (outcome : PostOutcome)
    (nowMs : ℤ) : (closeDispatch d outcome nowMs).2 = [] := by
  cases outcome with
  | returned response =>
    rw [closeDispatch]
    cases resolvedStatus response d.row.timeInForce with
    | none => rfl
    | some status => exact if_pos hShadow
  | raised message => exact if_pos hShadow
  | cancelled => exact if_pos hShadow

end KalshiBot.Execution

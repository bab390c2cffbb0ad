import KalshiBot.Ipc.ExecutorServer
import KalshiBot.Risk.FloatGate

/-! # A fire in floats

`_handle_fire` once more, with floats where the source has them: the settings, the balance and all
that is computed from them may be infinite or NaN, and each step may raise. A decoded wake has
finite floats. Left out is what becomes of the server, which nothing here reads.
-/

namespace KalshiBot.Ipc

open PythonText Execution Risk KalshiBot.Runtime

set_option autoImplicit false

structure FloatServer where
  fixedOrderContractCount : ℤ
  orderTimeInForce : TimeInForce
  orderSelfTradePreventionType : SelfTradePreventionType
  killSwitch : Option KillSwitch
  riskGate : Option FloatGate
  kellyFraction : PyFloat
  maxPositionPctOfBalance : PyFloat

/-- `switchExists` is what looking for the switch file gives, `none` the `OSError` of a path that
may not be looked at. -/
structure FloatReadings where
  balanceDollars : Option PyFloat
  switchExists : Option Bool
  switchText : ReadText
  switchNs : ℤ
  rejectedId : Uuid
  rejectedMs : ℤ
  checkMs : ℤ
  recordMs : ℤ
  dispatch : DispatchReadings

inductive FloatStart where
  | finished
  | raised
  | awaiting (dispatch : Dispatch)

abbrev FloatHandled := FloatStart × List OrderJob

section Sizing

variable (round : ℚ → PyFloat)

def toStepFloat (price step : PyFloat) : Option PyFloat := do
  let steps ← (← price.div round step).toNearestInt
  return (← PyFloat.ofRat round steps).mul round step

def snapToGridFloat (price : PyFloat) : List (List PyFloat) → Option PyFloat
  | [] => toStepFloat round price (round (1 / 100))
  | [start, stop, step] :: ranges =>
    if (PyFloat.finite 0).lt step ∧ start.le price ∧ price.le stop then toStepFloat round price step
    else snapToGridFloat price ranges
  | _ :: _ => none

def sizePositionFloat
    (edge kalshiPrice balanceDollars kellyFraction maxPositionPctOfBalance : PyFloat)
    (minContractCount : ℤ) : Option ℤ :=
  if ¬((PyFloat.finite 0).lt kalshiPrice ∧ kalshiPrice.lt (.finite 1)) ∨
      balanceDollars.le (.finite 0) then some minContractCount
  else do
    let fullKellyFraction ← ((PyFloat.finite 0).maxOf edge).div round
      ((PyFloat.finite 1).sub round kalshiPrice)
    let stakeFraction :=
      (fullKellyFraction.mul round ((PyFloat.finite 0).maxOf kellyFraction)).minOf
        maxPositionPctOfBalance
    let stakeDollars := stakeFraction.mul round balanceDollars
    let count ← (← stakeDollars.div round kalshiPrice).toInt
    return max count minContractCount

end Sizing

namespace FloatServer

variable (server : FloatServer) (round : ℚ → PyFloat) (m : WakeMessage) (r : FloatReadings)

def wirePrice : Option PyFloat :=
  snapToGridFloat round (.finite m.wirePriceYesDollars) (m.priceRanges.map (·.map .finite))

def sized : Option ℤ :=
  sizePositionFloat round (.finite m.edge) (.finite m.kalshiPrice)
    (r.balanceDollars.getD (.finite 0)) server.kellyFraction server.maxPositionPctOfBalance
    server.fixedOrderContractCount

/-- No more than rests at the level, if the wake knows that. -/
def restingCount (sized : ℤ) : ℤ :=
  if 0 < m.availableSizeContracts then min sized (truncate m.availableSizeContracts) else sized

def candidate (count : ℤ) (wirePrice : PyFloat) : FloatCandidate :=
  { ticker := m.marketTicker, direction := m.direction, exchangeIndex := m.exchangeIndex, count,
    priceDollars := wirePrice, correlationGroup := m.correlationGroup }

/-- `_record_rejected`, which raises on a count with too many digits. -/
def refuse (count : ℤ) (priceDollars : PyFloat) (reason : String) : FloatHandled :=
  match intText count with
  | none => (.raised, [])
  | some digits =>
    (.finished, [.fired
      { correlationId := m.correlationId
        clientOrderId := r.rejectedId
        ticker := m.marketTicker
        correlationGroup := if m.correlationGroup = "" then none else some m.correlationGroup
        outcomeSide := m.direction
        count := digits ++ ".00"
        priceDollars := priceDollars.fixed 4
        timeInForce := server.orderTimeInForce
        selfTradePreventionType := server.orderSelfTradePreventionType
        status := .rejected
        errorMessage := some reason
        requestedAtMs := r.rejectedMs } true])

/-- Whatever raises up to the request is caught and logged. -/
def sendFire (count : ℤ) (wirePrice : PyFloat) : FloatHandled :=
  match buildTemplate m.marketTicker m.direction, intText count with
  | some template, some _ =>
    let call : DispatchCall :=
      { template, count
        priceDollars := wirePrice.fixed 4
        timeInForce := server.orderTimeInForce
        selfTradePreventionType := server.orderSelfTradePreventionType
        exchangeIndex := m.exchangeIndex
        correlationId := m.correlationId
        correlationGroup := m.correlationGroup
        dryRun := m.dryRun }
    match openDispatch call r.dispatch with
    | none => (.finished, [])
    | some (dispatch, jobs) => (.awaiting dispatch, jobs)
  | _, _ => (.finished, [])

def gateFire (count : ℤ) (wirePrice : PyFloat) : FloatHandled :=
  match server.riskGate with
  | none => server.sendFire m r count wirePrice
  | some gate =>
    match gate.check round (candidate m count wirePrice) r.checkMs with
    | none => (.raised, [])
    | some (some rejection, _) => server.refuse m r count wirePrice ("risk gate: " ++ rejection)
    | some (none, checked) =>
      match checked.recordAttempt round (candidate m count wirePrice) r.recordMs with
      | none => (.raised, [])
      | some _ => server.sendFire m r count wirePrice

/-- What `is_engaged` answers; only a look at the file can raise. -/
def switchEngaged : Option Bool :=
  match server.killSwitch with
  | none => some false
  | some switch =>
    match switch.cached with
    | some engaged =>
      if ((r.switchNs - switch.checkedAtNs : ℤ) : ℚ) < switch.ttlSeconds * 10 ^ 9 then some engaged
      else r.switchExists
    | none => r.switchExists

def guardFire (count : ℤ) (wirePrice : PyFloat) : FloatHandled :=
  match server.switchEngaged r with
  | none => (.raised, [])
  | some false => server.gateFire round m r count wirePrice
  | some true =>
    match KillSwitch.reason r.switchText with
    | none => (.raised, [])
    | some text =>
      let reason := if text.getD "" = "" then "(no reason recorded)" else text.getD ""
      server.refuse m r count wirePrice ("kill switch engaged: " ++ reason)

def startFire : FloatHandled :=
  if m.dryRun then
    match wirePrice round m with
    | none => (.raised, [])
    | some wirePrice => server.sendFire m r server.fixedOrderContractCount wirePrice
  else if ¬(0 < m.wirePriceYesDollars ∧ m.wirePriceYesDollars < 1) then (.finished, [])
  else
    match wirePrice round m, server.sized round m r with
    | some wirePrice, some sized =>
      let count := restingCount m sized
      if count < 1 then
        server.refuse m r server.fixedOrderContractCount wirePrice
          ("insufficient resting volume: " ++ formatGeneral m.availableSizeContracts ++
            " contracts at the level")
      else server.guardFire round m r count wirePrice
    | _, _ => (.raised, [])

end FloatServer

section Exact

theorem toStep_toFloats (price : ℚ) {step : ℚ} (hStep : 0 < step) :
    toStepFloat .finite (.finite price) (.finite step) = some (.finite (toStep price step)) := by
  rw [toStepFloat, PyFloat.div_finite _ hStep.ne']
  rfl

theorem snapToGrid_toFloats (price : ℚ) (ranges : List (List ℚ)) :
    snapToGridFloat .finite (.finite price) (ranges.map (·.map .finite)) =
      (snapToGrid price ranges).map .finite := by
  fun_induction snapToGrid price ranges with
  | case1 => exact toStep_toFloats price (by norm_num)
  | case2 start stop step ranges hHere =>
    rw [List.map_cons, List.map_cons, List.map_cons, List.map_cons, List.map_nil, snapToGridFloat,
      if_pos (by simpa using hHere), toStep_toFloats price hHere.1, Option.map_some]
  | case3 start stop step ranges hElsewhere ih =>
    rw [List.map_cons, List.map_cons, List.map_cons, List.map_cons, List.map_nil, snapToGridFloat,
      if_neg (by simpa using hElsewhere), ih]
  | case4 range ranges hShape =>
    rw [List.map_cons, Option.map_none, snapToGridFloat]
    intro start stop step hSame
    match range, hSame with
    | [a, b, c], _ => exact hShape a b c rfl

theorem sizePosition_toFloats (edge kalshiPrice balance kelly cap : ℚ) (least : ℤ) :
    sizePositionFloat .finite (.finite edge) (.finite kalshiPrice) (.finite balance) (.finite kelly)
      (.finite cap) least = some (sizePosition edge kalshiPrice balance kelly cap least) := by
  obtain ⟨hPrice, hBalance⟩ | hUnsized := sized_or_unsized kalshiPrice balance
  · have hRoom : 1 - kalshiPrice ≠ 0 := (sub_pos.mpr hPrice.2).ne'
    rw [sizePositionFloat, if_neg (by simpa using ⟨hPrice, hBalance⟩),
      sizePosition_of_sized hPrice hBalance]
    simp only [PyFloat.maxOf_finite, PyFloat.sub_finite, PyFloat.div_finite _ hRoom,
      PyFloat.mul_finite, PyFloat.minOf_finite, PyFloat.div_finite _ hPrice.1.ne',
      Option.bind_eq_bind, Option.bind_some]
    rfl
  · rw [sizePositionFloat, if_pos (by simpa using hUnsized), sizePosition_of_unsized hUnsized]

def ExecutorServer.toFloats (server : ExecutorServer) : FloatServer where
  fixedOrderContractCount := server.fixedOrderContractCount
  orderTimeInForce := server.orderTimeInForce
  orderSelfTradePreventionType := server.orderSelfTradePreventionType
  killSwitch := server.killSwitch
  riskGate := server.riskGate.map RiskGate.toFloats
  kellyFraction := .finite server.kellyFraction
  maxPositionPctOfBalance := .finite server.maxPositionPctOfBalance

def FireReadings.toFloats (r : FireReadings) : FloatReadings where
  balanceDollars := r.balanceDollars.map .finite
  switchExists := some r.switchExists
  switchText := r.switchText
  switchNs := r.switchNs
  rejectedId := r.rejectedId
  rejectedMs := r.rejectedMs
  checkMs := r.checkMs
  recordMs := r.recordMs
  dispatch := r.dispatch

def FireStart.toFloats : FireStart → FloatStart
  | finished => .finished
  | raised => .raised
  | awaiting fire => .awaiting fire.dispatch

/-- What of a fire in exact numbers can be told from one in floats. -/
def Handled.toFloats (handled : Handled) : FloatHandled := (handled.1.toFloats, handled.2.1)

variable (server : ExecutorServer) (m : WakeMessage) (r : FireReadings) {count : ℤ}

theorem refuse_toFloats (hPrinted : Printable count) (price : ℚ) (reason : String) :
    server.toFloats.refuse m r.toFloats count (.finite price) reason =
      (.finished, [recordRejected server m count price reason r]) := by
  rw [FloatServer.refuse, intText_of_printable hPrinted]
  rfl

theorem sendFire_toFloats (hPrinted : Printable count) (price : ℚ) :
    server.toFloats.sendFire m r.toFloats count (.finite price) =
      (server.sendFire m count price r).toFloats := by
  rw [FloatServer.sendFire, ExecutorServer.sendFire, intText_of_printable hPrinted]
  cases buildTemplate m.marketTicker m.direction with
  | none => rfl
  | some template =>
    simp only [ExecutorServer.toFloats, FireReadings.toFloats, PyFloat.fixed]
    generalize openDispatch _ r.dispatch = opened
    cases opened <;> rfl

theorem gateFire_toFloats (hPrinted : Printable count) (price : ℚ)
    (hAnswers : (server.toFloats.gateFire .finite m r.toFloats count (.finite price)).1 ≠ .raised) :
    server.toFloats.gateFire .finite m r.toFloats count (.finite price) =
      (server.gateFire m count price r).toFloats := by
  cases hGate : server.riskGate with
  | none =>
    have hNone : server.toFloats.riskGate = none := by rw [ExecutorServer.toFloats, hGate]; rfl
    simp only [FloatServer.gateFire, hNone, ExecutorServer.gateFire, hGate]
    exact sendFire_toFloats server m r hPrinted price
  | some gate =>
    have hSome : server.toFloats.riskGate = some gate.toFloats := by
      rw [ExecutorServer.toFloats, hGate]
      rfl
    have hCandidate : FloatServer.candidate m count (.finite price) =
        (candidateOf m count price).toFloats := rfl
    simp only [FloatServer.gateFire, hSome, hCandidate] at hAnswers ⊢
    simp only [ExecutorServer.gateFire, hGate]
    cases hCheck : gate.toFloats.check .finite (candidateOf m count price).toFloats
        r.toFloats.checkMs with
    | none => rw [hCheck] at hAnswers; exact absurd rfl hAnswers
    | some answer =>
      obtain ⟨verdict, checked⟩ := answer
      obtain ⟨hVerdict, hChecked⟩ := gate.check_toFloats _ _ hCheck
      have hChecks : (gate.check (candidateOf m count price) r.toFloats.checkMs) =
          gate.check (candidateOf m count price) r.checkMs := rfl
      rw [hChecks] at hVerdict hChecked
      cases verdict with
      | some text =>
        obtain ⟨rejection, hRejection, rfl⟩ := Option.map_eq_some_iff.mp hVerdict.symm
        simp only [hRejection]
        exact refuse_toFloats server m r hPrinted price _
      | none =>
        have hAdmits : (gate.check (candidateOf m count price) r.checkMs).1 = none :=
          Option.map_eq_none_iff.mp hVerdict.symm
        simp only [hAdmits]
        obtain ⟨recorded, hRecorded⟩ :=
          FloatGate.recordAttempt_of_check .finite hCheck r.toFloats.recordMs
        simp only [hRecorded]
        exact sendFire_toFloats { server with riskGate := some _ } m r hPrinted price

theorem switchEngaged_toFloats :
    server.toFloats.switchEngaged r.toFloats = some (server.switchEngaged r) := by
  rw [FloatServer.switchEngaged, ExecutorServer.switchEngaged, ExecutorServer.toFloats,
    FireReadings.toFloats]
  cases server.killSwitch with
  | none => rfl
  | some switch =>
    cases hCached : switch.cached with
    | none => simp only [KillSwitch.isEngaged, hCached]
    | some engaged =>
      simp only [KillSwitch.isEngaged, hCached]
      split <;> rfl

theorem guardFire_toFloats (hPrinted : Printable count) (price : ℚ)
    (hAnswers :
      (server.toFloats.guardFire .finite m r.toFloats count (.finite price)).1 ≠ .raised) :
    server.toFloats.guardFire .finite m r.toFloats count (.finite price) =
      (server.guardFire m count price r).toFloats := by
  rw [FloatServer.guardFire, switchEngaged_toFloats] at hAnswers ⊢
  cases hSwitch : server.killSwitch with
  | none =>
    have hReleased : server.switchEngaged r = false := by
      simp only [ExecutorServer.switchEngaged, hSwitch]
    simp only [hReleased] at hAnswers ⊢
    simp only [ExecutorServer.guardFire, hSwitch]
    exact gateFire_toFloats server m r hPrinted price hAnswers
  | some switch =>
    have hLook : server.switchEngaged r = (switch.isEngaged r.switchExists r.switchNs).1 := by
      simp only [ExecutorServer.switchEngaged, hSwitch]
    rw [hLook] at hAnswers ⊢
    simp only [ExecutorServer.guardFire, hSwitch]
    generalize (switch.isEngaged r.switchExists r.switchNs).1 = engaged at hAnswers ⊢
    cases engaged with
    | false =>
      exact gateFire_toFloats { server with killSwitch := some _ } m r hPrinted price hAnswers
    | true =>
      have hText : r.toFloats.switchText = r.switchText := rfl
      simp only [hText, if_true]
      cases KillSwitch.reason r.switchText with
      | none => rfl
      | some text => exact refuse_toFloats server m r hPrinted price _

/-- With nothing rounded, and unless it raises over a number with too many digits, a fire in floats
is that in exact numbers. -/
theorem startFire_toFloats (hFixed : Printable server.fixedOrderContractCount)
    (hCount : Printable (orderCount server m r.balanceDollars))
    (hAnswers : (server.toFloats.startFire .finite m r.toFloats).1 ≠ .raised) :
    server.toFloats.startFire .finite m r.toFloats = (server.startFire m r).toFloats := by
  have hPrice : FloatServer.wirePrice .finite m =
      (snapToGrid m.wirePriceYesDollars m.priceRanges).map .finite := snapToGrid_toFloats _ _
  have hSized : server.toFloats.sized .finite m r.toFloats = some (sizePosition m.edge m.kalshiPrice
      (r.balanceDollars.getD 0) server.kellyFraction server.maxPositionPctOfBalance
      server.fixedOrderContractCount) := by
    have hBalance : (r.balanceDollars.map PyFloat.finite).getD (.finite 0) =
        .finite (r.balanceDollars.getD 0) := by
      cases r.balanceDollars <;> rfl
    rw [FloatServer.sized, FireReadings.toFloats, hBalance]
    exact sizePosition_toFloats ..
  rw [FloatServer.startFire, hPrice, hSized] at hAnswers ⊢
  rw [ExecutorServer.startFire]
  cases hSnap : snapToGrid m.wirePriceYesDollars m.priceRanges with
  | none =>
    simp only [Option.map_none]
    split
    · rfl
    · split <;> rfl
  | some price =>
    rw [hSnap] at hAnswers
    have hResting : FloatServer.restingCount m (sizePosition m.edge m.kalshiPrice
        (r.balanceDollars.getD 0) server.kellyFraction server.maxPositionPctOfBalance
        server.fixedOrderContractCount) = orderCount server m r.balanceDollars := rfl
    simp only [Option.map_some, hResting] at hAnswers ⊢
    by_cases hShadow : m.dryRun = true
    · rw [if_pos hShadow, if_pos hShadow]
      exact sendFire_toFloats server m r hFixed price
    rw [if_neg hShadow] at hAnswers ⊢
    rw [if_neg hShadow]
    by_cases hTradeable : 0 < m.wirePriceYesDollars ∧ m.wirePriceYesDollars < 1
    · rw [if_neg (not_not.mpr hTradeable)] at hAnswers ⊢
      rw [if_neg (not_not.mpr hTradeable)]
      by_cases hNone : orderCount server m r.balanceDollars < 1
      · rw [if_pos hNone, if_pos hNone]
        exact refuse_toFloats server m r hFixed price _
      · rw [if_neg hNone] at hAnswers ⊢
        rw [if_neg hNone]
        exact guardFire_toFloats server m r hCount price hAnswers
    · rw [if_pos hTradeable, if_pos hTradeable]
      rfl

end Exact

end KalshiBot.Ipc

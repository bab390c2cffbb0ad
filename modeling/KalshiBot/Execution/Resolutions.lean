import KalshiBot.Execution.OrderDispatcher

/-! # What a dispatch leaves in the audit queue

The `try` block of a dispatch and its `finally` block, with what leaves each of them. The
`finally` block reads the same response that the `try` block may just have failed on.
-/

namespace KalshiBot.Execution

open PythonText

set_option autoImplicit false

/-- What a dispatch raises: the exception of the request, its cancellation, or the
`AttributeError` of a value without `get`. -/
inductive Escape where
  | exception (message : String)
  | cancelled
  | attributeError (value : PyValue)

def PostOutcome.escape? : PostOutcome → Option Escape
  | returned _ => none
  | raised message => some (.exception message)
  | cancelled => some .cancelled

def pythonTypeName : PyValue → String
  | .null => "NoneType"
  | .bool _ => "bool"
  | .int _ => "int"
  | .float _ => "float"
  | .str _ => "str"
  | .list _ => "list"
  | .dict _ => "dict"

/-- `response`, `status` and `error_message` behind the `try` block, and how it ends. -/
structure Tried where
  response : PyValue := .dict []
  status : OrderStatus := .error
  errorMessage : Option String := none
  ending : Except Escape PyValue

def tryBlock (timeInForce : TimeInForce) : PostOutcome → Tried
  | .returned response =>
    match resolvedStatus response timeInForce with
    | some status => { response, status, ending := .ok response }
    | none =>
      { response
        errorMessage := some (pyRepr (pythonTypeName response) ++ " object has no attribute 'get'")
        ending := .error (.attributeError response) }
  | .raised message => { errorMessage := some message, ending := .error (.exception message) }
  | .cancelled => { ending := .error .cancelled }

/-- An exception of the `finally` block takes the place of what the `try` block ends with. -/
def finallyBlock (d : Dispatch) (tried : Tried) (nowMs : ℤ) :
    Except Escape PyValue × List OrderJob :=
  if d.dryRun then (tried.ending, [])
  else match resolutionRow d tried.response tried.status tried.errorMessage nowMs with
    | some row => (tried.ending, [.resolution row])
    | none => (.error (.attributeError tried.response), [])

def finishDispatch (d : Dispatch) (outcome : PostOutcome) (nowMs : ℤ) :
    Except Escape PyValue × List OrderJob :=
  finallyBlock d (tryBlock d.row.timeInForce outcome) nowMs

def IsObject (value : PyValue) : Prop := ∃ items, value = .dict items

theorem get?_eq_none {value : PyValue} (h : ¬IsObject value) (key : String) :
    value.get? key = none := by
  cases value with
  | dict items => exact absurd ⟨items, rfl⟩ h
  | _ => rfl

theorem resolutionRow_of_object (d : Dispatch) (items : List (String × PyValue))
    (status : OrderStatus) (errorMessage : Option String) (nowMs : ℤ) :
    ∃ row, resolutionRow d (.dict items) status errorMessage nowMs = some row ∧
      row.clientOrderId = d.row.clientOrderId ∧ row.status = status ∧
        row.fillCount = fixedPointStr ((items.lookup "fill_count").getD .null) ∧
          row.remainingCount = fixedPointStr ((items.lookup "remaining_count").getD .null) ∧
            row.averageFillPrice = fixedPointStr ((items.lookup "average_fill_price").getD .null) ∧
              row.averageFeePaid = fixedPointStr ((items.lookup "average_fee_paid").getD .null) :=
  ⟨_, rfl, rfl, rfl, rfl, rfl, rfl, rfl⟩

theorem resolutionRow_of_other (d : Dispatch) {response : PyValue} (h : ¬IsObject response)
    (status : OrderStatus) (errorMessage : Option String) (nowMs : ℤ) :
    resolutionRow d response status errorMessage nowMs = none := by
  rw [resolutionRow, get?_eq_none h]
  rfl

theorem resolvedStatus_of_object (items : List (String × PyValue)) (timeInForce : TimeInForce) :
    ∃ status, resolvedStatus (.dict items) timeInForce = some status ∧ status ≠ .error := by
  refine ⟨_, rfl, ?_⟩
  dsimp only
  split
  · exact nofun
  · split
    · exact nofun
    · split <;> exact nofun

theorem resolvedStatus_of_other {response : PyValue} (h : ¬IsObject response)
    (timeInForce : TimeInForce) : resolvedStatus response timeInForce = none := by
  rw [resolvedStatus, get?_eq_none h]
  rfl

/-- The two blocks together are the second half of a dispatch. -/
theorem closeDispatch_eq (d : Dispatch) (outcome : PostOutcome) (nowMs : ℤ) :
    closeDispatch d outcome nowMs =
      ((finishDispatch d outcome nowMs).1.toOption, (finishDispatch d outcome nowMs).2) := by
  -- Both sides end with the same `finally` block; only where it fails do they spell it apart.
  have hBlock : ∀ tried : Tried, ∀ row,
      resolutionRow d tried.response tried.status tried.errorMessage nowMs = some row →
        finallyBlock d tried nowMs = (tried.ending,
          resolutionJobs d tried.response tried.status tried.errorMessage nowMs) := by
    intro tried row hRow
    rw [finallyBlock, resolutionJobs, hRow]
    split <;> rfl
  cases outcome with
  | returned response =>
    obtain ⟨items, rfl⟩ | hOther := Classical.em (IsObject response)
    · obtain ⟨status, hStatus, -⟩ := resolvedStatus_of_object items d.row.timeInForce
      obtain ⟨row, hRow, -⟩ := resolutionRow_of_object d items status none nowMs
      rw [closeDispatch, finishDispatch, tryBlock, hStatus]
      dsimp only
      rw [hBlock _ row hRow]
      rfl
    · rw [closeDispatch, finishDispatch, tryBlock, resolvedStatus_of_other hOther]
      dsimp only [finallyBlock]
      rw [resolutionRow_of_other d hOther]
      split <;> rfl
  | raised message =>
    obtain ⟨row, hRow, -⟩ := resolutionRow_of_object d [] .error (some message) nowMs
    rw [closeDispatch, finishDispatch, tryBlock, hBlock _ row hRow]
    rfl
  | cancelled =>
    obtain ⟨row, hRow, -⟩ := resolutionRow_of_object d [] .error none nowMs
    rw [closeDispatch, finishDispatch, tryBlock, hBlock _ row hRow]
    rfl

structure NoFillData (row : OrderRow) : Prop where
  fillCount : row.fillCount = none
  remainingCount : row.remainingCount = none
  averageFillPrice : row.averageFillPrice = none
  averageFeePaid : row.averageFeePaid = none

/-- One pending job ahead of the request and one resolution of the same order behind it, which
says how the request ended. -/
structure Audited (d : Dispatch) (before : List OrderJob) (outcome : PostOutcome)
    (ending : Except Escape PyValue) (after : List OrderJob) : Prop where
  pending : ∃ row, before = [.fired row false] ∧ row.status = .pending ∧
    row.clientOrderId = d.request.clientOrderId
  resolved : ∃ row, after = [.resolution row] ∧ row.clientOrderId = d.request.clientOrderId ∧
    (row.status = .error ∧ NoFillData row ↔ outcome.escape?.isSome) ∧
      ∀ response, outcome = .returned response →
        resolvedStatus response d.row.timeInForce = some row.status
  unchanged : ∀ escape, outcome.escape? = some escape → ending = .error escape

theorem openDispatch_pending {call : DispatchCall} {r : DispatchReadings} {d : Dispatch}
    {jobs : List OrderJob} (h : openDispatch call r = some (d, jobs)) :
    d.row.status = .pending ∧ d.row.clientOrderId = d.request.clientOrderId := by
  unfold openDispatch at h
  split at h
  · obtain ⟨rfl, rfl⟩ := Prod.mk.inj (Option.some.inj h)
    exact ⟨rfl, rfl⟩
  · cases h

theorem finishDispatch_of_object {d : Dispatch} (hDry : d.dryRun = false)
    (items : List (String × PyValue)) (nowMs : ℤ) : ∃ row,
      finishDispatch d (.returned (.dict items)) nowMs = (.ok (.dict items), [.resolution row]) ∧
        row.clientOrderId = d.row.clientOrderId ∧ row.status ≠ .error ∧
          resolvedStatus (.dict items) d.row.timeInForce = some row.status := by
  obtain ⟨status, hStatus, hNotError⟩ := resolvedStatus_of_object items d.row.timeInForce
  obtain ⟨row, hRow, hSame, hRowStatus, -⟩ := resolutionRow_of_object d items status none nowMs
  refine ⟨row, ?_, hSame, hRowStatus ▸ hNotError, hRowStatus ▸ hStatus⟩
  rw [finishDispatch, finallyBlock, tryBlock, hStatus, hDry]
  simp only [Bool.false_eq_true, if_false, hRow]

/-- Without a response, the resolution reads the empty object that the `try` block began with. -/
theorem finishDispatch_of_escape {d : Dispatch} (hDry : d.dryRun = false) {outcome : PostOutcome}
    {escape : Escape} (h : outcome.escape? = some escape) (nowMs : ℤ) : ∃ row,
      finishDispatch d outcome nowMs = (.error escape, [.resolution row]) ∧
        row.clientOrderId = d.row.clientOrderId ∧ row.status = .error ∧ NoFillData row := by
  have hTried : ∃ errorMessage, tryBlock d.row.timeInForce outcome =
      { errorMessage, ending := .error escape } := by
    cases outcome with
    | returned response => cases h
    | raised message =>
      obtain rfl := Option.some.inj h
      exact ⟨some message, rfl⟩
    | cancelled =>
      obtain rfl := Option.some.inj h
      exact ⟨none, rfl⟩
  obtain ⟨errorMessage, hTried⟩ := hTried
  obtain ⟨row, hRow, hSame, hStatus, hFill, hRemaining, hPrice, hFee⟩ :=
    resolutionRow_of_object d [] .error errorMessage nowMs
  refine ⟨row, ?_, hSame, hStatus, hFill, hRemaining, hPrice, hFee⟩
  rw [finishDispatch, finallyBlock, hTried, hDry]
  simp only [Bool.false_eq_true, if_false, hRow]

/-- A response that is no object raises twice, and the second time the resolution is lost. -/
theorem finishDispatch_of_other {d : Dispatch} (hDry : d.dryRun = false) {response : PyValue}
    (h : ¬IsObject response) (nowMs : ℤ) :
    (finishDispatch d (.returned response) nowMs).2 = [] := by
  have hTried : (tryBlock d.row.timeInForce (.returned response)).response = response := by
    rw [tryBlock]
    split <;> rfl
  rw [finishDispatch, finallyBlock, hDry, if_neg Bool.false_ne_true, hTried,
    resolutionRow_of_other d h]

theorem audited_iff {call : DispatchCall} {r : DispatchReadings} {d : Dispatch}
    {jobs : List OrderJob} (hOpen : openDispatch call r = some (d, jobs))
    (hReal : call.dryRun = false) (outcome : PostOutcome) (nowMs : ℤ) :
    Audited d jobs outcome (finishDispatch d outcome nowMs).1 (finishDispatch d outcome nowMs).2 ↔
      ∀ response, outcome = .returned response → IsObject response := by
  obtain ⟨hDry, hJobs⟩ := openDispatch_eq_some hOpen
  obtain ⟨hPending, hOrder⟩ := openDispatch_pending hOpen
  rw [hReal] at hDry
  rw [hReal, if_neg Bool.false_ne_true] at hJobs
  have hFirst : ∃ row, jobs = [.fired row false] ∧ row.status = .pending ∧
      row.clientOrderId = d.request.clientOrderId := ⟨d.row, hJobs, hPending, hOrder⟩
  constructor
  · rintro hAudited response rfl
    by_contra hOther
    obtain ⟨row, hRow, -⟩ := hAudited.resolved
    rw [finishDispatch_of_other hDry hOther] at hRow
    cases hRow
  · intro hObject
    cases hEscape : outcome.escape? with
    | none =>
      cases outcome with
      | returned response =>
        obtain ⟨items, rfl⟩ := hObject response rfl
        obtain ⟨row, hFinish, hSame, hNotError, hStatus⟩ :=
          finishDispatch_of_object hDry items nowMs
        rw [hFinish]
        refine ⟨hFirst, ⟨row, rfl, hSame.trans hOrder, ?_, ?_⟩, nofun⟩
        · exact iff_of_false (fun h => hNotError h.1) nofun
        · rintro response ⟨⟩
          exact hStatus
      | raised message => cases hEscape
      | cancelled => cases hEscape
    | some escape =>
      obtain ⟨row, hFinish, hSame, hStatus, hNoFill⟩ := finishDispatch_of_escape hDry hEscape nowMs
      rw [hFinish]
      refine ⟨hFirst, ⟨row, rfl, hSame.trans hOrder, ?_, ?_⟩, ?_⟩
      · rw [hEscape]
        exact iff_of_true ⟨hStatus, hNoFill⟩ rfl
      · rintro response rfl
        cases hEscape
      · intro other hOther
        rw [Option.some.inj (hEscape.symm.trans hOther)]

def fillOrKillOnA : DispatchCall :=
  { template := ⟨"KX-A-1", "yes"⟩
    count := 1
    priceDollars := "0.56"
    timeInForce := .fillOrKill
    selfTradePreventionType := .takerAtCross }

def firstReadings : DispatchReadings where
  permitted := true
  clientOrderId := ⟨"a0a1a2a3a4a5a6a7a8a9aaabacadaeaf", by decide⟩
  correlationId := ⟨"b0b1b2b3b4b5b6b7b8b9babbbcbdbebf", by decide⟩
  requestedAtMs := 1000
  submittedAtMs := 1001

theorem filledOrder_audited : ∃ d jobs, openDispatch fillOrKillOnA firstReadings = some (d, jobs) ∧
    Audited d jobs (.returned (.dict [("fill_count", .str "1.00")]))
      (finishDispatch d (.returned (.dict [("fill_count", .str "1.00")])) 1040).1
      (finishDispatch d (.returned (.dict [("fill_count", .str "1.00")])) 1040).2 := by
  have hOpen : ∃ d jobs, openDispatch fillOrKillOnA firstReadings = some (d, jobs) :=
    ⟨_, _, rfl⟩
  obtain ⟨d, jobs, hOpen⟩ := hOpen
  refine ⟨d, jobs, hOpen, (audited_iff hOpen rfl _ 1040).mpr ?_⟩
  rintro response ⟨⟩
  exact ⟨_, rfl⟩

/-- `[]` is a JSON document of an answer with status 200. -/
theorem emptyListAnswer_unaudited :
    ∃ d jobs, openDispatch fillOrKillOnA firstReadings = some (d, jobs) ∧ jobs.length = 1 ∧
      finishDispatch d (.returned (.list [])) 1040 = (.error (.attributeError (.list [])), []) ∧
        ¬Audited d jobs (.returned (.list [])) (finishDispatch d (.returned (.list [])) 1040).1
          (finishDispatch d (.returned (.list [])) 1040).2 := by
  refine ⟨_, _, rfl, rfl, rfl, ?_⟩
  intro hAudited
  obtain ⟨row, hRow, -⟩ := hAudited.resolved
  cases hRow

end KalshiBot.Execution

import KalshiBot.Execution.OrderDispatcher
import KalshiBot.Telemetry.Rows
import KalshiBot.Telemetry.Shutdown

/-! # One order, one row

An order's row in `orders_fired` is made by two jobs, of which either may never reach the
queue. Whatever happens around them, the row is absent, pending, recreated from the
resolution, or upgraded by it, and no committed state shows anything else.
-/

namespace KalshiBot.Telemetry

open PythonText Sqlite Execution

set_option autoImplicit false

def orNone (text : Option String) : PyValue := text.elim .null .str

def intOrNone (i : Option ℤ) : PyValue := i.elim .null .int

def bitOrNone (b : Option Bool) : PyValue := b.elim .null fun b => .int (if b then 1 else 0)

def rowOfOrder (r : OrderRow) : Row
  | .correlationId => .str r.correlationId
  | .clientOrderId => .str r.clientOrderId
  | .kalshiOrderId => r.kalshiOrderId
  | .ticker => .str r.ticker
  | .correlationGroup => orNone r.correlationGroup
  | .outcomeSide => .str r.outcomeSide
  | .count => .str r.count
  | .priceDollars => .str r.priceDollars
  | .timeInForce => .str r.timeInForce.text
  | .selfTradePreventionType => .str r.selfTradePreventionType.text
  | .postOnly => bitOrNone r.postOnly
  | .status => .str r.status.text
  | .errorMessage => orNone r.errorMessage
  | .fillCount => orNone r.fillCount
  | .remainingCount => orNone r.remainingCount
  | .averageFillPrice => orNone r.averageFillPrice
  | .averageFeePaid => orNone r.averageFeePaid
  | .requestedAtMs => .int r.requestedAtMs
  | .submittedAtMs => intOrNone r.submittedAtMs
  | .acknowledgedAtMs => intOrNone r.acknowledgedAtMs
  | _ => .null

/-- The job the recorder puts, and whether it may wait for room. -/
def recorded : OrderJob → WriteJob × Bool
  | .fired row blocking => (⟨.insertInto .ordersFired, rowOfOrder row⟩, blocking)
  | .resolution row => (⟨.orderResolution, rowOfOrder row⟩, true)

/-- A dispatch as far as it goes: the outcome of a request that never ends is not used. -/
structure OrderDispatch where
  call : DispatchCall
  readings : DispatchReadings
  outcome : PostOutcome
  nowMs : ℤ

namespace OrderDispatch

def clientOrderId (d : OrderDispatch) : String :=
  orMinted d.call.clientOrderId d.readings.clientOrderId

def jobs (d : OrderDispatch) : List OrderJob :=
  match openDispatch d.call d.readings with
  | none => []
  | some (dispatch, opened) => opened ++ (closeDispatch dispatch d.outcome d.nowMs).2

/-- The fields the dispatch is called with and answered with are ones the schema takes. -/
structure SchemaValid (castText : String → ℚ) (d : OrderDispatch) : Prop where
  outcomeSide : d.call.template.outcomeSide ∈ ["yes", "no"]
  count : 0 < castText (toString d.call.count ++ ".00")
  price : 0 < castText d.call.priceDollars ∧ castText d.call.priceDollars < 1
  requestedAtMs : InRange d.readings.requestedAtMs
  submittedAtMs : InRange d.readings.submittedAtMs
  nowMs : InRange d.nowMs
  orderId : ∀ response orderId, d.outcome = .returned response →
    response.get? "order_id" = some orderId → (bindValue orderId).isSome

end OrderDispatch

/-- What the schema takes, of a whole row. -/
structure ValidRow (castText : String → ℚ) (r : OrderRow) : Prop where
  outcomeSide : r.outcomeSide ∈ ["yes", "no"]
  count : 0 < castText r.count
  price : 0 < castText r.priceDollars ∧ castText r.priceDollars < 1
  requestedAtMs : InRange r.requestedAtMs
  submittedAtMs : ∀ t, r.submittedAtMs = some t → InRange t
  acknowledgedAtMs : ∀ t, r.acknowledgedAtMs = some t → InRange t
  orderId : (bindValue r.kalshiOrderId).isSome

variable {castText : String → ℚ}

theorem isSome_orNone (text : Option String) : (bindValue (orNone text)).isSome := by
  cases text <;> rfl

theorem isSome_int {i : ℤ} (h : InRange i) : (bindValue (.int i)).isSome := by
  rw [bindValue, if_pos h]
  rfl

theorem isSome_intOrNone {i : Option ℤ} (h : ∀ t, i = some t → InRange t) :
    (bindValue (intOrNone i)).isSome := by
  cases i with
  | none => rfl
  | some t => exact isSome_int (h t rfl)

theorem isSome_bitOrNone (b : Option Bool) : (bindValue (bitOrNone b)).isSome := by
  obtain _ | _ | _ := b <;> rfl

theorem ValidRow.binds {r : OrderRow} (h : ValidRow castText r) (c : Column) :
    (bindValue (rowOfOrder r c)).isSome := by
  cases c with
  | kalshiOrderId => exact h.orderId
  | requestedAtMs => exact isSome_int h.requestedAtMs
  | submittedAtMs => exact isSome_intOrNone h.submittedAtMs
  | acknowledgedAtMs => exact isSome_intOrNone h.acknowledgedAtMs
  | correlationGroup | errorMessage | fillCount | remainingCount | averageFillPrice
  | averageFeePaid => exact isSome_orNone _
  | postOnly => exact isSome_bitOrNone r.postOnly
  | _ => rfl

theorem passes_bitOrNone {b : Option Bool} {v : Value} (h : bindValue (bitOrNone b) = some v) :
    zeroOrOne.passes castText v := by
  obtain _ | _ | _ := b <;> cases h <;> rfl

theorem passes_timeInForce (t : TimeInForce) :
    (oneOfTexts ["fill_or_kill", "good_till_canceled", "immediate_or_cancel"]).passes castText
      (.text t.text) := by
  cases t <;> rfl

theorem passes_selfTradePreventionType (t : SelfTradePreventionType) :
    (oneOfTexts ["taker_at_cross", "maker"]).passes castText (.text t.text) := by
  cases t <;> rfl

theorem passes_status (status : OrderStatus) :
    (oneOfTexts ["pending", "submitted", "accepted", "rejected", "filled", "canceled",
      "error"]).passes castText (.text status.text) := by
  cases status <;> rfl

theorem ValidRow.admits {r : OrderRow} (h : ValidRow castText r) {bound : Sqlite.Row Column}
    (hBound : bindRow (tableColumns .ordersFired) (rowOfOrder r) = some bound) :
    (constraints castText .ordersFired).admits bound := by
  have hValue : ∀ c ∈ tableColumns .ordersFired, bindValue (rowOfOrder r c) = some (bound c) :=
    (eq_of_bindRow hBound).1
  have hText : ∀ c ∈ tableColumns .ordersFired, ∀ text, rowOfOrder r c = .str text →
      bound c = .text text := by
    intro c hMem text hRow
    have hBind := hValue c hMem
    rw [hRow] at hBind
    exact (Option.some.inj hBind).symm
  have hRequested : bound .requestedAtMs = .integer r.requestedAtMs := by
    have hBind := hValue .requestedAtMs (by decide)
    rw [rowOfOrder, bindValue, if_pos h.requestedAtMs] at hBind
    exact (Option.some.inj hBind).symm
  have hPostOnly : zeroOrOne.passes castText (bound .postOnly) :=
    passes_bitOrNone (hValue .postOnly (by decide))
  have hSide : (oneOfTexts ["yes", "no"]).passes castText (.text r.outcomeSide) := by
    simpa [oneOfTexts, Check.passes] using h.outcomeSide
  have hCount : Check.positive.passes castText (.text r.count) := by
    simpa [Check.passes, castReal] using h.count
  have hPrice : Check.betweenZeroAndOne.passes castText (.text r.priceDollars) := by
    simpa [Check.passes, castReal] using h.price
  simp only [constraints, notNull, checks, List.all_cons, List.all_nil, hRequested, hPostOnly,
    hText .correlationId (by decide) _ rfl, hText .clientOrderId (by decide) _ rfl,
    hText .ticker (by decide) _ rfl, hText .outcomeSide (by decide) _ rfl,
    hText .count (by decide) _ rfl, hText .priceDollars (by decide) _ rfl,
    hText .timeInForce (by decide) _ rfl, hText .selfTradePreventionType (by decide) _ rfl,
    hText .status (by decide) _ rfl, hSide, hCount, hPrice, passes_timeInForce,
    passes_selfTradePreventionType, passes_status]
  rfl

structure OrderRows (castText : String → ℚ) (id : String) (pending resolution : OrderRow) : Prop where
  validPending : ValidRow castText pending
  validResolution : ValidRow castText resolution
  idPending : pending.clientOrderId = id
  idResolution : resolution.clientOrderId = id
  statusPending : pending.status = .pending
  statusResolution : resolution.status ≠ .pending

theorem resolvedStatus_ne_pending {response : PyValue} {timeInForce : TimeInForce}
    {status : OrderStatus} (h : resolvedStatus response timeInForce = some status) :
    status ≠ .pending := by
  obtain ⟨fillCount, -, rfl⟩ := Option.map_eq_some_iff.mp h
  repeat' split
  all_goals nofun

theorem orderRows_resolutionRow {d : Dispatch} {id : String} {response : PyValue}
    {status : OrderStatus} {errorMessage : Option String} {nowMs : ℤ} {row : OrderRow}
    (hPending : ValidRow castText d.row) (hId : d.row.clientOrderId = id)
    (hStatus : d.row.status = .pending) (hSubmitted : InRange d.submittedAtMs) (hNow : InRange nowMs)
    (hResolved : status ≠ .pending)
    (hOrderId : ∀ orderId, response.get? "order_id" = some orderId → (bindValue orderId).isSome)
    (h : resolutionRow d response status errorMessage nowMs = some row) :
    OrderRows castText id d.row row := by
  simp only [resolutionRow, Option.bind_eq_bind, Option.bind_eq_some_iff, Option.pure_def,
    Option.some.injEq] at h
  obtain ⟨orderId, hGet, -, -, -, -, -, -, -, -, rfl⟩ := h
  refine ⟨hPending, ⟨hPending.outcomeSide, hPending.count, hPending.price, hPending.requestedAtMs,
    ?_, ?_, hOrderId orderId hGet⟩, hId, hId, hStatus, hResolved⟩
  · rintro t ⟨⟩
    exact hSubmitted
  · intro t hTime
    split at hTime
    · cases hTime
    · cases hTime
      exact hNow

theorem resolutionJobs_cases {d : Dispatch} {response : PyValue} {status : OrderStatus}
    {errorMessage : Option String} {nowMs : ℤ} (hReal : d.dryRun = false) :
    resolutionJobs d response status errorMessage nowMs = [] ∨
      ∃ row, resolutionRow d response status errorMessage nowMs = some row ∧
        resolutionJobs d response status errorMessage nowMs = [.resolution row] := by
  rw [resolutionJobs, if_neg (Bool.eq_false_iff.mp hReal)]
  cases hRow : resolutionRow d response status errorMessage nowMs with
  | none => exact .inl rfl
  | some row => exact .inr ⟨row, rfl, rfl⟩

theorem closeDispatch_cases {d : Dispatch} {outcome : PostOutcome} {nowMs : ℤ}
    (hReal : d.dryRun = false)
    (hOrderId : ∀ response orderId, outcome = .returned response →
      response.get? "order_id" = some orderId → (bindValue orderId).isSome) :
    (closeDispatch d outcome nowMs).2 = [] ∨
      ∃ response status errorMessage row, status ≠ .pending ∧
        (∀ orderId, response.get? "order_id" = some orderId → (bindValue orderId).isSome) ∧
          resolutionRow d response status errorMessage nowMs = some row ∧
            (closeDispatch d outcome nowMs).2 = [.resolution row] := by
  have hNoResponse : ∀ orderId, (PyValue.dict []).get? "order_id" = some orderId →
      (bindValue orderId).isSome := by
    rintro _ ⟨⟩
    rfl
  cases outcome with
  | returned response =>
    rw [closeDispatch]
    cases hStatus : resolvedStatus response d.row.timeInForce with
    | none => exact .inl rfl
    | some status =>
      obtain hNone | ⟨row, hRow, hJobs⟩ := resolutionJobs_cases hReal
      · exact .inl hNone
      · exact .inr ⟨response, status, none, row, resolvedStatus_ne_pending hStatus,
          fun orderId => hOrderId response orderId rfl, hRow, hJobs⟩
  | raised message =>
    obtain hNone | ⟨row, hRow, hJobs⟩ := resolutionJobs_cases hReal
    · exact .inl hNone
    · exact .inr ⟨.dict [], .error, some message, row, by decide, hNoResponse, hRow, hJobs⟩
  | cancelled =>
    obtain hNone | ⟨row, hRow, hJobs⟩ := resolutionJobs_cases hReal
    · exact .inl hNone
    · exact .inr ⟨.dict [], .error, none, row, by decide, hNoResponse, hRow, hJobs⟩

theorem OrderDispatch.opened {d : OrderDispatch} {dispatch : Dispatch} {opened : List OrderJob}
    (hValid : d.SchemaValid castText)
    (h : openDispatch d.call d.readings = some (dispatch, opened)) :
    ValidRow castText dispatch.row ∧ dispatch.row.clientOrderId = d.clientOrderId ∧
      dispatch.row.status = .pending ∧ dispatch.submittedAtMs = d.readings.submittedAtMs ∧
        dispatch.dryRun = d.call.dryRun ∧
          opened = if d.call.dryRun then [] else [.fired dispatch.row false] := by
  unfold openDispatch at h
  split at h
  · obtain ⟨rfl, rfl⟩ := Prod.mk.inj (Option.some.inj h)
    exact ⟨⟨hValid.outcomeSide, hValid.count, hValid.price, hValid.requestedAtMs, nofun, nofun, rfl⟩,
      rfl, rfl, rfl, rfl, rfl⟩
  · cases h

/-- A real dispatch records a pending row, then at most one resolution. -/
theorem OrderDispatch.jobs_prefix {d : OrderDispatch} (hReal : d.call.dryRun = false)
    (hValid : d.SchemaValid castText) :
    ∃ pending resolution, OrderRows castText d.clientOrderId pending resolution ∧
      d.jobs <+: [.fired pending false, .resolution resolution] := by
  have hUnanswered : ∀ {row : OrderRow}, ValidRow castText row → row.clientOrderId = d.clientOrderId →
      row.status = .pending → OrderRows castText d.clientOrderId row { row with status := .error } :=
    fun hRow hId hStatus => ⟨hRow, ⟨hRow.outcomeSide, hRow.count, hRow.price, hRow.requestedAtMs,
      hRow.submittedAtMs, hRow.acknowledgedAtMs, hRow.orderId⟩, hId, hId, hStatus, nofun⟩
  rw [jobs]
  split
  next =>
    let permitted : OrderDispatch := { d with readings := { d.readings with permitted := true } }
    have hPermitted : permitted.SchemaValid castText := ⟨hValid.outcomeSide, hValid.count,
      hValid.price, hValid.requestedAtMs, hValid.submittedAtMs, hValid.nowMs, hValid.orderId⟩
    obtain ⟨hRow, hId, hStatus, -⟩ := permitted.opened hPermitted rfl
    exact ⟨_, _, hUnanswered hRow hId hStatus, List.nil_prefix⟩
  next dispatch opened hOpen =>
    obtain ⟨hRow, hId, hStatus, hSubmitted, hDry, rfl⟩ := d.opened hValid hOpen
    rw [hReal] at hDry
    rw [if_neg (Bool.eq_false_iff.mp hReal)]
    obtain hNone | ⟨response, status, message, row, hResolved, hOrderId, hResolution, hJobs⟩ :=
      closeDispatch_cases hDry hValid.orderId
    · rw [hNone]
      exact ⟨_, _, hUnanswered hRow hId hStatus, _, rfl⟩
    · rw [hJobs]
      exact ⟨_, row, orderRows_resolutionRow hRow hId hStatus (hSubmitted ▸ hValid.submittedAtMs)
        hValid.nowMs hResolved hOrderId hResolution, List.prefix_rfl⟩

/-- The job writes the row of this order. -/
def Touches (id : String) (job : WriteJob) : Prop :=
  (job.table = .insertInto .ordersFired ∨ job.table = .orderResolution) ∧
    bindValue (job.row .clientOrderId) = some (.text id)

instance (id : String) : DecidablePred (Touches id) := fun _ => inferInstanceAs (Decidable (_ ∧ _))

def ordersWith (id : String) (s : Store) : List (Sqlite.Row Column) :=
  rowsWith .clientOrderId (.text id) (s.rows .ordersFired)

inductive Stage where
  | absent | pending | recreated | upgraded

namespace Stage

def rows (pending resolution : Sqlite.Row Column) : Stage → List (Sqlite.Row Column)
  | absent => []
  | .pending => [pending]
  | recreated => [resolution]
  | upgraded => [Function.update resolution .requestedAtMs (pending .requestedAtMs)]

theorem length_rows_le (p r : Sqlite.Row Column) (stage : Stage) : (stage.rows p r).length ≤ 1 := by
  cases stage with
  | absent => exact Nat.zero_le 1
  | pending | recreated | upgraded => exact le_refl 1

/-- The pending row is written, which an earlier row makes fail. -/
def fire : Stage → Stage
  | absent => .pending
  | stage => stage

def resolve : Stage → Stage
  | absent => recreated
  | .pending => upgraded
  | stage => stage

def write (stage : Stage) (job : WriteJob) : Stage :=
  if job.table = .orderResolution then stage.resolve else stage.fire

end Stage

theorem ordersWith_keep_of_untouched {id : String} {job : WriteJob} (h : ¬Touches id job) (s : Store) :
    ordersWith id (Connection.keep (insertJob castText) s job) = ordersWith id s := by
  rw [Connection.keep]
  cases hInsert : insertJob castText s job with
  | none => rfl
  | some s' =>
    have hOther : ∀ bound, bindRow (tableColumns .ordersFired) job.row = some bound →
        (job.table = .insertInto .ordersFired ∨ job.table = .orderResolution) →
          bound .clientOrderId ≠ .text id := by
      intro bound hBound hTable hId
      refine h ⟨hTable, ?_⟩
      rw [(eq_of_bindRow hBound).1 .clientOrderId (by decide), hId]
    rw [Option.getD_some, ordersWith, ordersWith]
    obtain ⟨table, row⟩ := job
    cases table with
    | orderResolution =>
      obtain ⟨bound, hBound, hRows, -⟩ := execute_eq_some hInsert
      exact rowsWith_upsert_of_ne rfl (by decide) hRows (hOther bound hBound (.inr rfl))
    | insertInto table =>
      obtain ⟨bound, hBound, hRows, hRest⟩ := execute_eq_some hInsert
      by_cases hTable : table = .ordersFired
      · subst hTable
        exact rowsWith_insert_of_ne hRows (hOther bound hBound (.inl rfl))
      · rw [hRest .ordersFired (Ne.symm hTable)]

structure BoundRows (castText : String → ℚ) (id : String) (pendingRow resolutionRow : Row)
    (p r : Sqlite.Row Column) : Prop where
  pending : bindRow (tableColumns .ordersFired) pendingRow = some p
  resolution : bindRow (tableColumns .ordersFired) resolutionRow = some r
  admitsPending : (constraints castText .ordersFired).admits p
  admitsResolution : (constraints castText .ordersFired).admits r
  idPending : p .clientOrderId = .text id
  idResolution : r .clientOrderId = .text id
  statusPending : p .status = .text "pending"
  statusResolution : r .status ≠ .text "pending"

theorem eq_pending_of_text {status : OrderStatus} (h : status.text = "pending") :
    status = .pending := by
  cases status with
  | pending => rfl
  | _ => exact absurd h (by decide)

theorem OrderRows.bound {id : String} {pending resolution : OrderRow}
    (h : OrderRows castText id pending resolution) : ∃ p r,
      BoundRows castText id (rowOfOrder pending) (rowOfOrder resolution) p r := by
  obtain ⟨p, hPending⟩ := bindRow_of_binds fun c _ => h.validPending.binds c
  obtain ⟨r, hResolution⟩ := bindRow_of_binds fun c _ => h.validResolution.binds c
  have hValue : ∀ c ∈ tableColumns .ordersFired, bindValue (rowOfOrder pending c) = some (p c) :=
    (eq_of_bindRow hPending).1
  have hResolved : ∀ c ∈ tableColumns .ordersFired,
      bindValue (rowOfOrder resolution c) = some (r c) := (eq_of_bindRow hResolution).1
  refine ⟨p, r, hPending, hResolution, h.validPending.admits hPending,
    h.validResolution.admits hResolution, ?_, ?_, ?_, ?_⟩
  · rw [← h.idPending]
    exact (Option.some.inj (hValue .clientOrderId (by decide))).symm
  · rw [← h.idResolution]
    exact (Option.some.inj (hResolved .clientOrderId (by decide))).symm
  · have hStatus := Option.some.inj (hValue .status (by decide))
    rw [← hStatus, h.statusPending]
    rfl
  · have hStatus := Option.some.inj (hResolved .status (by decide))
    intro hText
    exact h.statusResolution (eq_pending_of_text (Value.text.inj (hStatus.trans hText)))

def Resolved (id : String) (s : Store) : Prop :=
  ∃ row ∈ ordersWith id s, row .status ≠ .text "pending"

section Refinement

variable {id : String} {pendingRow resolutionRow : Row} {p r : Sqlite.Row Column}
  (h : BoundRows castText id pendingRow resolutionRow p r)

include h

theorem overwrite_pending : overwrite updatable r p =
    Function.update r .requestedAtMs (p .requestedAtMs) := by
  funext c
  by_cases hRequested : c = .requestedAtMs
  · subst hRequested
    rw [Function.update_self, overwrite, if_neg (by decide)]
  · rw [Function.update_of_ne hRequested, overwrite]
    split
    · rfl
    next hNot =>
      by_cases hId : c = .clientOrderId
      · rw [hId, h.idPending, h.idResolution]
      · have hOutside : c ∉ tableColumns .ordersFired := fun hMem =>
          hNot (List.mem_filter.mpr ⟨hMem, by simp [hId, hRequested]⟩)
        rw [(eq_of_bindRow h.pending).2 c hOutside, (eq_of_bindRow h.resolution).2 c hOutside]

theorem ordersWith_keep_pending {stage : Stage} {s : Store} (hStage : ordersWith id s = stage.rows p r) :
    ordersWith id (Connection.keep (insertJob castText) s ⟨.insertInto .ordersFired, pendingRow⟩) =
      stage.fire.rows p r := by
  have hNull : p .clientOrderId ≠ .null := by rw [h.idPending]; nofun
  have hTaken : stage.rows p r ≠ [] → ordersWith id
      (Connection.keep (insertJob castText) s ⟨.insertInto .ordersFired, pendingRow⟩) =
        stage.rows p r := by
    intro hPresent
    rw [← hStage, ordersWith, ← h.idPending] at hPresent
    cases hInsert : insertJob castText s ⟨.insertInto .ordersFired, pendingRow⟩ with
    | none => rw [Connection.keep, hInsert, Option.getD_none, hStage]
    | some s' =>
      obtain ⟨bound, hBound, hRows, -⟩ := execute_eq_some hInsert
      obtain rfl : p = bound := Option.some.inj (h.pending.symm.trans hBound)
      have hNone : insertVerb castText .ordersFired (s.rows .ordersFired) p = none :=
        insert_of_present rfl hNull hPresent
      cases hNone.symm.trans hRows
  cases stage with
  | absent =>
    rw [ordersWith, ← h.idPending] at hStage
    have hRows : insertVerb castText .ordersFired (s.rows .ordersFired) p =
        some (s.rows .ordersFired ++ [p]) := insert_of_absent rfl hNull h.admitsPending hStage
    obtain ⟨s', hInsert, hLast⟩ := execute_of_statement (by decide) h.pending hRows
    have hJob : insertJob castText s ⟨.insertInto .ordersFired, pendingRow⟩ = some s' := hInsert
    rw [Connection.keep_of_eq_some hJob, ordersWith, hLast, ← h.idPending, rowsWith_append, hStage]
    simp [rowsWith, Stage.fire, Stage.rows]
  | pending | recreated | upgraded => exact hTaken (List.cons_ne_nil _ _)

theorem ordersWith_keep_of_present {old : Sqlite.Row Column} {s : Store}
    (hOld : ordersWith id s = [old]) (hAdmits : (constraints castText .ordersFired).admits old) :
    ordersWith id (Connection.keep (insertJob castText) s ⟨.orderResolution, resolutionRow⟩) =
      [overwrite updatable r old] := by
  have hNull : r .clientOrderId ≠ .null := by rw [h.idResolution]; exact Value.noConfusion
  rw [ordersWith, ← h.idResolution] at hOld
  obtain ⟨rows, hRows, hLast⟩ := upsert_of_present (k := constraints castText .ordersFired) rfl
    (by decide) hNull h.admitsResolution hOld
    (admits_overwrite castText .ordersFired updatable h.admitsResolution hAdmits)
  obtain ⟨s', hInsert, hTable⟩ := execute_of_statement (by decide) h.resolution hRows
  have hJob : insertJob castText s ⟨.orderResolution, resolutionRow⟩ = some s' := hInsert
  rw [Connection.keep_of_eq_some hJob, ordersWith, hTable, ← h.idResolution, hLast]

theorem ordersWith_keep_resolution {stage : Stage} {s : Store}
    (hStage : ordersWith id s = stage.rows p r) :
    ordersWith id (Connection.keep (insertJob castText) s ⟨.orderResolution, resolutionRow⟩) =
      stage.resolve.rows p r := by
  have hAgain : overwrite updatable r (overwrite updatable r p) = overwrite updatable r p := by
    funext c
    simp only [overwrite]
    split <;> rfl
  cases stage with
  | absent =>
    have hNull : r .clientOrderId ≠ .null := by rw [h.idResolution]; exact Value.noConfusion
    rw [ordersWith, ← h.idResolution] at hStage
    have hRows : upsert (constraints castText .ordersFired) updatable (s.rows .ordersFired) r =
        some (s.rows .ordersFired ++ [r]) := upsert_of_absent rfl hNull h.admitsResolution hStage
    obtain ⟨s', hInsert, hLast⟩ := execute_of_statement (by decide) h.resolution hRows
    have hJob : insertJob castText s ⟨.orderResolution, resolutionRow⟩ = some s' := hInsert
    rw [Connection.keep_of_eq_some hJob, ordersWith, hLast, ← h.idResolution, rowsWith_append, hStage]
    simp [rowsWith, Stage.resolve, Stage.rows]
  | pending =>
    rw [ordersWith_keep_of_present h hStage h.admitsPending, overwrite_pending h]
    rfl
  | recreated =>
    rw [ordersWith_keep_of_present h hStage h.admitsResolution]
    have hSame : overwrite updatable r r = r := by
      funext c
      exact ite_self _
    rw [hSame]
    rfl
  | upgraded =>
    rw [Stage.rows, ← overwrite_pending h] at hStage
    rw [ordersWith_keep_of_present h hStage
      (admits_overwrite castText .ordersFired updatable h.admitsResolution h.admitsPending), hAgain,
      overwrite_pending h]
    rfl

/-- The job is no job of this order, or one of its two. -/
def OfOrder (id : String) (pendingRow resolutionRow : Row) (job : WriteJob) : Prop :=
  Touches id job →
    job = ⟨.insertInto .ordersFired, pendingRow⟩ ∨ job = ⟨.orderResolution, resolutionRow⟩

theorem ordersWith_keep {job : WriteJob} (hJob : OfOrder id pendingRow resolutionRow job)
    {stage : Stage} {s : Store} (hStage : ordersWith id s = stage.rows p r) :
    ordersWith id (Connection.keep (insertJob castText) s job) =
      (if Touches id job then stage.write job else stage).rows p r := by
  split
  next hTouches =>
    obtain rfl | rfl := hJob hTouches
    · exact ordersWith_keep_pending h hStage
    · exact ordersWith_keep_resolution h hStage
  next hNot => rw [ordersWith_keep_of_untouched hNot, hStage]

theorem ordersWith_foldl {jobs : List WriteJob}
    (hJobs : ∀ job ∈ jobs, OfOrder id pendingRow resolutionRow job) {stage : Stage} {s : Store}
    (hStage : ordersWith id s = stage.rows p r) :
    ordersWith id (jobs.foldl (Connection.keep (insertJob castText)) s) =
      ((jobs.filter (Touches id)).foldl Stage.write stage).rows p r := by
  induction jobs generalizing s stage with
  | nil => exact hStage
  | cons job jobs ih =>
    have hNext := ordersWith_keep h (hJobs job List.mem_cons_self) hStage
    rw [List.foldl_cons, ih (fun job hMem => hJobs job (List.mem_cons_of_mem _ hMem)) hNext]
    by_cases hTouches : Touches id job <;> simp [hTouches]

theorem resolved_iff {stage : Stage} {s : Store} (hStage : ordersWith id s = stage.rows p r) :
    Resolved id s ↔ stage = .recreated ∨ stage = .upgraded := by
  rw [Resolved, hStage]
  cases stage with
  | absent => simp [Stage.rows]
  | pending => simp [Stage.rows, h.statusPending]
  | recreated => simp [Stage.rows, h.statusResolution]
  | upgraded => simp [Stage.rows, h.statusResolution]

theorem resolved_keep {job : WriteJob} (hJob : OfOrder id pendingRow resolutionRow job)
    {stage : Stage} {s : Store} (hStage : ordersWith id s = stage.rows p r) (hResolved : Resolved id s) :
    Resolved id (Connection.keep (insertJob castText) s job) := by
  rw [resolved_iff h (ordersWith_keep h hJob hStage)]
  obtain rfl | rfl := (resolved_iff h hStage).mp hResolved <;>
    simp only [Stage.write, Stage.fire, Stage.resolve, ite_self, or_true, true_or]

end Refinement

/-- The row that an order's jobs call for: the resolution's, with the time of the request from
the pending row if there is one, or else the pending row. -/
def orderRow (jobs : List WriteJob) : Option (Sqlite.Row Column) :=
  let bound (table : JobTable) := (jobs.find? fun job => job.table = table).bind fun job =>
    bindRow (tableColumns .ordersFired) job.row
  match bound .orderResolution, bound (.insertInto .ordersFired) with
  | some r, some p => some (Function.update r .requestedAtMs (p .requestedAtMs))
  | some r, none => some r
  | none, pending => pending

variable {Producer : Type} [DecidableEq Producer]

/-- The writer thread's connection after everything it has been handed. -/
def TelemetryDB.connection (castText : String → ℚ) (start : Store) (db : TelemetryDB Producer) :
    Connection Store :=
  db.handed.foldl (Connection.writeBatch (insertJob castText)) { committed := start }

/-- Some producers are real dispatches of distinct orders new to the table, each as far as it
has come; the others write no row of theirs. -/
structure Dispatching (castText : String → ℚ) (start : Store)
    (dispatches : Producer → Option OrderDispatch) (events : List (QueueEvent Producer)) : Prop where
  real : ∀ q d, dispatches q = some d → d.call.dryRun = false
  valid : ∀ q d, dispatches q = some d → d.SchemaValid castText
  distinct : ∀ q q' d d', dispatches q = some d → dispatches q' = some d' →
    d.clientOrderId = d'.clientOrderId → q = q'
  fresh : ∀ q d, dispatches q = some d → ordersWith d.clientOrderId start = []
  calls : ∀ q d, dispatches q = some d → TelemetryDB.callsBy q events <+: d.jobs.map recorded
  others : ∀ q q' d, dispatches q = none → dispatches q' = some d →
    ∀ call ∈ TelemetryDB.callsBy q events, ¬Touches d.clientOrderId call.1

theorem touches_recorded {id : String} {pending resolution : OrderRow}
    (h : OrderRows castText id pending resolution) {job : WriteJob}
    (hJob : job ∈ [⟨.insertInto .ordersFired, rowOfOrder pending⟩,
      (⟨.orderResolution, rowOfOrder resolution⟩ : WriteJob)]) (other : String) :
    Touches other job ↔ id = other := by
  have hText : ∀ text, bindValue (.str text) = some (.text other) ↔ text = other := by
    intro text
    simp [bindValue]
  simp only [List.mem_cons, List.not_mem_nil, or_false] at hJob
  obtain rfl | rfl := hJob
  · simp only [Touches, rowOfOrder, hText, h.idPending, true_or, true_and]
  · simp only [Touches, rowOfOrder, hText, h.idResolution, or_true, true_and]

namespace Dispatching

variable {start : Store} {dispatches : Producer → Option OrderDispatch}
  {events : List (QueueEvent Producer)} {capacity : ℤ}

theorem jobs_of_order (h : Dispatching castText start dispatches events) (capacity : ℤ)
    {q : Producer} {d : OrderDispatch} (hDispatch : dispatches q = some d) :
    ∃ pending resolution, OrderRows castText d.clientOrderId pending resolution ∧
      ((TelemetryDB.run (.opened capacity) events).putBy q).Sublist
        [⟨.insertInto .ordersFired, rowOfOrder pending⟩, ⟨.orderResolution, rowOfOrder resolution⟩] := by
  obtain ⟨pending, resolution, hRows, hPrefix⟩ :=
    OrderDispatch.jobs_prefix (h.real q d hDispatch) (h.valid q d hDispatch)
  refine ⟨pending, resolution, hRows, (TelemetryDB.putBy_sublist capacity events q).trans ?_⟩
  have hCalls := ((h.calls q d hDispatch).trans (hPrefix.map recorded)).sublist.map Prod.fst
  exact hCalls

/-- Of all the jobs put, those that write the order's row are its dispatch's. -/
theorem touches_iff (h : Dispatching castText start dispatches events) {q q' : Producer}
    {d : OrderDispatch} (hDispatch : dispatches q = some d) {job : WriteJob}
    (hPut : (q', job) ∈ (TelemetryDB.run (.opened capacity) events).put) :
    Touches d.clientOrderId job ↔ q' = q := by
  have hMem : job ∈ (TelemetryDB.run (.opened capacity) events).putBy q' :=
    List.mem_map.mpr ⟨(q', job), List.mem_filter.mpr ⟨hPut, decide_eq_true rfl⟩, rfl⟩
  cases hOwner : dispatches q' with
  | none =>
    have hRecorded := (TelemetryDB.putBy_sublist capacity events q').subset hMem
    obtain ⟨call, hCall, rfl⟩ := List.mem_map.mp hRecorded
    refine iff_of_false (h.others q' q d hOwner hDispatch call hCall) ?_
    rintro rfl
    cases hOwner.symm.trans hDispatch
  | some d' =>
    obtain ⟨pending, resolution, hRows, hJobs⟩ := h.jobs_of_order capacity hOwner
    rw [touches_recorded hRows (hJobs.subset hMem)]
    constructor
    · exact h.distinct q' q d' d hOwner hDispatch
    · rintro rfl
      rw [Option.some.inj (hOwner.symm.trans hDispatch)]

theorem filter_touches (h : Dispatching castText start dispatches events) {q : Producer}
    {d : OrderDispatch} (hDispatch : dispatches q = some d) :
    ((TelemetryDB.run (.opened capacity) events).put.map Prod.snd).filter (Touches d.clientOrderId) =
      (TelemetryDB.run (.opened capacity) events).putBy q := by
  rw [List.filter_map, TelemetryDB.putBy]
  congr 1
  apply List.filter_congr
  rintro ⟨q', job⟩ hPut
  simp only [Function.comp_apply, h.touches_iff hDispatch hPut]

end Dispatching

/-- Every way in which some of an order's two jobs come through calls for the row at the
stage it leads to. -/
theorem rows_of_sublist {id : String} {pendingRow resolutionRow : Row} {p r : Sqlite.Row Column}
    (h : BoundRows castText id pendingRow resolutionRow p r) {jobs : List WriteJob}
    (hJobs : jobs.Sublist [⟨.insertInto .ordersFired, pendingRow⟩, ⟨.orderResolution, resolutionRow⟩]) :
    (jobs.foldl Stage.write .absent).rows p r = (orderRow jobs).toList := by
  simp only [List.sublist_cons_iff, List.sublist_nil] at hJobs
  obtain (rfl | ⟨_, rfl, rfl⟩) | ⟨_, rfl, rfl | ⟨_, rfl, rfl⟩⟩ := hJobs
  · rfl
  · simp [orderRow, Stage.write, Stage.resolve, Stage.rows, h.resolution]
  · simp [orderRow, Stage.write, Stage.fire, Stage.rows, h.pending]
  · simp [orderRow, Stage.write, Stage.fire, Stage.resolve, Stage.rows, h.pending, h.resolution]

/-- The order has the one row its jobs call for, pending if no resolution is among them. -/
structure OneRow (id : String) (jobs : List WriteJob) (s : Store) : Prop where
  row : ordersWith id s = (orderRow jobs).toList
  exactlyOne : jobs ≠ [] → (ordersWith id s).length = 1
  pending : (∀ job ∈ jobs, job.table ≠ .orderResolution) →
    ∀ row ∈ ordersWith id s, row .status = .text "pending"

theorem oneRow_of_sublist {id : String} {pendingRow resolutionRow : Row} {p r : Sqlite.Row Column}
    (h : BoundRows castText id pendingRow resolutionRow p r) {jobs : List WriteJob}
    (hJobs : jobs.Sublist [⟨.insertInto .ordersFired, pendingRow⟩, ⟨.orderResolution, resolutionRow⟩])
    {s : Store} (hRows : ordersWith id s = (jobs.foldl Stage.write .absent).rows p r) :
    OneRow id jobs s := by
  refine ⟨hRows.trans (rows_of_sublist h hJobs), fun hSome => ?_, fun hUnresolved => ?_⟩
  all_goals
    rw [hRows]
    simp only [List.sublist_cons_iff, List.sublist_nil] at hJobs
    obtain (rfl | ⟨_, rfl, rfl⟩) | ⟨_, rfl, rfl | ⟨_, rfl, rfl⟩⟩ := hJobs
  · exact absurd rfl hSome
  · rfl
  · rfl
  · rfl
  · exact fun row hRow => absurd hRow List.not_mem_nil
  · exact absurd rfl (hUnresolved _ List.mem_cons_self)
  · rintro row hRow
    rw [List.mem_singleton.mp hRow, h.statusPending]
  · exact absurd rfl (hUnresolved _ (List.mem_cons_of_mem _ List.mem_cons_self))

theorem one_order_one_row {start : Store} {dispatches : Producer → Option OrderDispatch}
    {events : List (QueueEvent Producer)} (h : Dispatching castText start dispatches events)
    (capacity : ℤ) {q : Producer} {d : OrderDispatch} (hDispatch : dispatches q = some d) :
    let db := TelemetryDB.run (.opened capacity) events
    (db.Drained → OneRow d.clientOrderId (db.putBy q) (db.connection castText start).committed) ∧
      (∀ s ∈ (db.connection castText start).commits, (ordersWith d.clientOrderId s).length ≤ 1) ∧
        (db.connection castText start).commits.Pairwise fun s s' =>
          Resolved d.clientOrderId s → Resolved d.clientOrderId s' := by
  intro db
  obtain ⟨pending, resolution, hRows, hJobs⟩ := h.jobs_of_order capacity hDispatch
  obtain ⟨p, r, hBound⟩ := hRows.bound
  have hPut : ∀ job ∈ db.put.map Prod.snd,
      OfOrder d.clientOrderId (rowOfOrder pending) (rowOfOrder resolution) job := by
    intro job hMem hTouches
    have hOwn : job ∈ db.putBy q := by
      rw [← h.filter_touches hDispatch]
      exact List.mem_filter.mpr ⟨hMem, decide_eq_true hTouches⟩
    simpa using hJobs.subset hOwn
  have hStep : ∀ job ∈ db.handed.flatten, ∀ s : Store,
      (∃ stage : Stage, ordersWith d.clientOrderId s = stage.rows p r) →
        (∃ stage : Stage, ordersWith d.clientOrderId
          (Connection.keep (insertJob castText) s job) = stage.rows p r) ∧
          (Resolved d.clientOrderId s →
            Resolved d.clientOrderId (Connection.keep (insertJob castText) s job)) := by
    rintro job hMem s ⟨stage, hStage⟩
    have hJob := hPut job ((TelemetryDB.handed_prefix capacity events).subset hMem)
    exact ⟨⟨_, ordersWith_keep hBound hJob hStage⟩, resolved_keep hBound hJob hStage⟩
  have hStart : ordersWith d.clientOrderId start = Stage.absent.rows p r := h.fresh q d hDispatch
  have hOpen : Connection.InOrder (fun s => ∃ stage : Stage, ordersWith d.clientOrderId s = stage.rows p r)
      (fun s s' => Resolved d.clientOrderId s → Resolved d.clientOrderId s')
      ({ committed := start } : Connection Store) :=
    ⟨rfl, ⟨.absent, hStart⟩, nofun, List.Pairwise.nil⟩
  obtain ⟨hOrder, hCommitted⟩ := hOpen.writeBatches (fun _ => id)
    (fun hFirst hSecond hResolved => hSecond (hFirst hResolved)) hStep
  refine ⟨fun hDrained => ?_, fun s hMem => ?_, hOrder.pairwise⟩
  · apply oneRow_of_sublist hBound hJobs
    rw [TelemetryDB.connection, hCommitted, TelemetryDB.handed_of_drained hDrained,
      ordersWith_foldl hBound hPut hStart, h.filter_touches hDispatch]
  · obtain ⟨⟨stage, hStage⟩, -⟩ := hOrder.each s hMem
    rw [hStage]
    exact stage.length_rows_le p r

def demoDispatch : OrderDispatch where
  call :=
    { template := ⟨"KX-A-1", "yes"⟩
      count := 1
      priceDollars := "0.5000"
      timeInForce := .fillOrKill
      selfTradePreventionType := .takerAtCross }
  readings :=
    { permitted := true
      clientOrderId := ⟨"c0c1c2c3c4c5c6c7c8c9cacbcccdcecf", by decide⟩
      correlationId := ⟨"d0d1d2d3d4d5d6d7d8d9dadbdcdddedf", by decide⟩
      requestedAtMs := 1000
      submittedAtMs := 1001 }
  outcome := .returned (.dict [("order_id", .str "order-1"), ("fill_count", .str "1.00")])
  nowMs := 1500

/-- Another producer's row without a value joins the order's two jobs in one batch. -/
def demoEvents : List (QueueEvent Bool) :=
  [.writer, .record false ⟨.insertInto .decisionResults, fun _ => .null⟩ true] ++
    demoDispatch.jobs.map (fun job => .record true (recorded job).1 (recorded job).2) ++
      [.writer, .writer, .writer, .writer, .writer]

def readText (text : String) : ℚ := (parseFloat text).getD 0

theorem dispatching_demo : Dispatching readText emptyStore
    (fun q : Bool => if q then some demoDispatch else none) demoEvents where
  real := by
    rintro (_ | _) d ⟨⟩
    rfl
  valid := by
    rintro (_ | _) d ⟨⟩
    refine ⟨by decide, by decide +kernel, by decide +kernel, by decide, by decide, by decide, ?_⟩
    rintro response orderId ⟨⟩ ⟨⟩
    rfl
  distinct := by
    rintro (_ | _) (_ | _) d d' ⟨⟩ ⟨⟩ -
    rfl
  fresh := by
    rintro (_ | _) d ⟨⟩
    rfl
  calls := by
    rintro (_ | _) d ⟨⟩
    exact List.prefix_rfl
  others := by
    rintro (_ | _) (_ | _) d ⟨⟩ ⟨⟩ call hCall ⟨hTable, -⟩
    rw [List.mem_singleton.mp hCall] at hTable
    obtain hTable | hTable := hTable <;> cases hTable

theorem one_order_one_row_beside_failing_row :
    OneRow demoDispatch.clientOrderId
      ((TelemetryDB.run (.opened maxQueueSize) demoEvents).putBy true)
      ((TelemetryDB.run (.opened maxQueueSize) demoEvents).connection readText emptyStore).committed :=
  (one_order_one_row dispatching_demo maxQueueSize (q := true) rfl).1
    ⟨fun _ => List.not_mem_nil, .inl rfl⟩

end KalshiBot.Telemetry

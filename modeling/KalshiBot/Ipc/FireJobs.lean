import KalshiBot.Ipc.ExecutorServer

/-! # What a fire hands to telemetry

A fire leaves rows before its request and after it; what the request ends with changes neither
the correlation id nor the price of them.
-/

namespace KalshiBot.Ipc

open PythonText Execution Risk

set_option autoImplicit false

/-- All that a fire hands to telemetry, however its request ends and whatever other
fires have made of the server by then. -/
def Handled.jobs (handled : Handled) (later : ExecutorServer) (outcome : PostOutcome)
    (f : FinishReadings) : List OrderJob :=
  match handled.1 with
  | .awaiting fire => handled.2.1 ++ (finishFire later fire outcome f).1
  | .finished | .raised => handled.2.1

def ExecutorServer.Refuses (server : ExecutorServer) (c : Candidate) (nowMs : ℤ) : Prop :=
  ∃ gate, server.riskGate = some gate ∧ (gate.check c nowMs).1 ≠ none

theorem row_of_resolutionJobs {d : Dispatch} {response : PyValue} {status : OrderStatus}
    {errorMessage : Option String} {nowMs : ℤ} {job : OrderJob}
    (h : job ∈ resolutionJobs d response status errorMessage nowMs) :
    d.dryRun = false ∧ resolutionRow d response status errorMessage nowMs = some job.row := by
  unfold resolutionJobs at h
  split at h
  · cases h
  next hReal =>
    obtain ⟨row, hRow, rfl⟩ := Option.map_eq_some_iff.mp (Option.mem_toList.mp h)
    exact ⟨Bool.eq_false_iff.mpr hReal, hRow⟩

theorem row_of_closeDispatch {d : Dispatch} {outcome : PostOutcome} {nowMs : ℤ} {job : OrderJob}
    (h : job ∈ (closeDispatch d outcome nowMs).2) : d.dryRun = false ∧
      ∃ response status errorMessage,
        resolutionRow d response status errorMessage nowMs = some job.row := by
  cases outcome with
  | returned response =>
    cases hStatus : resolvedStatus response d.row.timeInForce with
    | none => simp only [closeDispatch, hStatus, List.not_mem_nil] at h
    | some status =>
      simp only [closeDispatch, hStatus] at h
      exact ⟨(row_of_resolutionJobs h).1, _, _, _, (row_of_resolutionJobs h).2⟩
  | raised message => exact ⟨(row_of_resolutionJobs h).1, _, _, _, (row_of_resolutionJobs h).2⟩
  | cancelled => exact ⟨(row_of_resolutionJobs h).1, _, _, _, (row_of_resolutionJobs h).2⟩

theorem kept_of_resolutionRow {d : Dispatch} {response : PyValue} {status : OrderStatus}
    {errorMessage : Option String} {nowMs : ℤ} {row : OrderRow}
    (h : resolutionRow d response status errorMessage nowMs = some row) :
    row.correlationId = d.row.correlationId ∧ row.priceDollars = d.row.priceDollars := by
  simp only [resolutionRow, Option.bind_eq_bind, Option.bind_eq_some_iff, Option.pure_def,
    Option.some.injEq] at h
  obtain ⟨_, _, _, _, _, _, _, _, _, _, rfl⟩ := h
  exact ⟨rfl, rfl⟩

theorem closeDispatch_correlationId {d : Dispatch} {outcome : PostOutcome} {nowMs : ℤ}
    {job : OrderJob} (h : job ∈ (closeDispatch d outcome nowMs).2) :
    job.row.correlationId = d.row.correlationId := by
  obtain ⟨-, _, _, _, hRow⟩ := row_of_closeDispatch h
  exact (kept_of_resolutionRow hRow).1

theorem finishFire_jobs (server : ExecutorServer) (fire : PendingFire) (outcome : PostOutcome)
    (f : FinishReadings) : (finishFire server fire outcome f).1 =
      (closeDispatch fire.dispatch outcome f.acknowledgedMs).2 := by
  unfold finishFire
  split <;> rfl

end KalshiBot.Ipc

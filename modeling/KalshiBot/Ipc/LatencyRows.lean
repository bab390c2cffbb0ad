import KalshiBot.Ipc.ExecutorServer
import KalshiBot.Ipc.WakeStream
import KalshiBot.Runtime.Clock
import KalshiBot.Transport.RequestTimings

/-! # What a fire says about its latency

A fire leaves a row for each stage that was timed, and one for the whole way from the poller's
stamp to the exchange, if the stamp and the executor's clock have a common zero.
-/

namespace KalshiBot.Ipc

open PythonText Transport KalshiBot.Runtime

set_option autoImplicit false

/-- `LATENCY_STAGES`; `record_latency_event` raises on any other. -/
def latencyStages : List String :=
  ["detect_fire", "ingest_fetch", "decision", "wake_send", "wake_recv", "order_build", "sign",
    "dispatch_send", "dispatch_ack", "telemetry_write"]

/-- A wake with the stamp that the poller's clock gave it, zero and no domain without one. -/
structure StampedWake extends WakeMessage where
  recvNs : ℤ := 0
  clockDomain : String := ""

def StampedWake.isClockComparableTo (m : StampedWake) (localClockDomain : String) : Bool :=
  0 < m.recvNs && m.clockDomain == localClockDomain && localClockDomain != ""

/-- `started_at_ms` is counted back from the end. -/
def latencyRow (m : StampedWake) (endedAtMs : ℤ) (stage : String) (durationMs : ℚ) :
    LatencyEvent where
  correlationId := .str m.correlationId
  stage
  startedAtMs := endedAtMs - truncate durationMs
  endedAtMs
  durationMs
  metadataJson := "\x7b\"dry_run\": " ++ (if m.dryRun then "true" else "false") ++ "\x7d"

def stageSpans (timings : RequestTimings) (orderBuildMs : Option ℚ) : List (String × Option ℚ) :=
  [("order_build", orderBuildMs), ("sign", timings.signMs),
    ("dispatch_send", timings.dispatchSendMs), ("dispatch_ack", timings.dispatchAckMs)]

def detectFire (localClockDomain : String) (m : StampedWake) (timings : RequestTimings)
    (endedAtMs : ℤ) : List LatencyEvent :=
  if timings.sentNs = 0 then []
  else if !m.isClockComparableTo localClockDomain then []
  else [latencyRow m endedAtMs "detect_fire" ((timings.sentNs - m.recvNs) / 1000000)]

def recordRequestTimings (localClockDomain : String) (m : StampedWake) (timings : RequestTimings)
    (orderBuildMs : Option ℚ) (endedAtMs : ℤ) : List LatencyEvent :=
  ((stageSpans timings orderBuildMs).filterMap fun (stage, span) =>
      span.map (latencyRow m endedAtMs stage)) ++
    detectFire localClockDomain m timings endedAtMs

section Rows

variable {localClockDomain : String} {m : StampedWake} {timings : RequestTimings}
  {orderBuildMs : Option ℚ} {endedAtMs : ℤ} {row : LatencyEvent}

theorem mem_detectFire_iff : row ∈ detectFire localClockDomain m timings endedAtMs ↔
    timings.sentNs ≠ 0 ∧ m.isClockComparableTo localClockDomain = true ∧
      row = latencyRow m endedAtMs "detect_fire" ((timings.sentNs - m.recvNs) / 1000000) := by
  rw [detectFire]
  by_cases hSent : timings.sentNs = 0
  · simp [hSent]
  · cases m.isClockComparableTo localClockDomain <;> simp [hSent]

theorem mem_recordRequestTimings
    (h : row ∈ recordRequestTimings localClockDomain m timings orderBuildMs endedAtMs) :
    (∃ span ∈ stageSpans timings orderBuildMs, ∃ durationMs ∈ span.2,
      row = latencyRow m endedAtMs span.1 durationMs) ∨
        row ∈ detectFire localClockDomain m timings endedAtMs := by
  obtain hStage | hDetect := List.mem_append.mp h
  · obtain ⟨span, hSpan, hRow⟩ := List.mem_filterMap.mp hStage
    obtain ⟨durationMs, hDuration, hRow⟩ := Option.map_eq_some_iff.mp hRow
    exact .inl ⟨span, hSpan, durationMs, hDuration, hRow.symm⟩
  · exact .inr hDetect

theorem name_of_stageSpans :
    ∀ span ∈ stageSpans timings orderBuildMs,
      span.1 ∈ latencyStages ∧ span.1 ≠ "detect_fire" := by
  simp only [stageSpans, List.forall_mem_cons]
  exact ⟨by decide, by decide, by decide, by decide, List.forall_mem_nil _⟩

/-- No row of a fire has a stage that `record_latency_event` would raise on. -/
theorem stage_of_recordRequestTimings
    (h : row ∈ recordRequestTimings localClockDomain m timings orderBuildMs endedAtMs) :
    row.stage ∈ latencyStages := by
  obtain ⟨span, hSpan, durationMs, -, rfl⟩ | hDetect := mem_recordRequestTimings h
  · exact (name_of_stageSpans span hSpan).1
  · obtain ⟨-, -, rfl⟩ := mem_detectFire_iff.mp hDetect
    exact List.mem_cons_self

theorem detectFire_of_stage
    (h : row ∈ recordRequestTimings localClockDomain m timings orderBuildMs endedAtMs)
    (hStage : row.stage = "detect_fire") : row ∈ detectFire localClockDomain m timings endedAtMs := by
  obtain ⟨span, hSpan, durationMs, -, rfl⟩ | hDetect := mem_recordRequestTimings h
  · exact absurd hStage (name_of_stageSpans span hSpan).2
  · exact hDetect

theorem comparable_of_detectFire (h : row ∈ detectFire localClockDomain m timings endedAtMs) :
    0 < m.recvNs ∧ m.clockDomain = localClockDomain := by
  obtain ⟨-, hComparable, -⟩ := mem_detectFire_iff.mp h
  simp only [StampedWake.isClockComparableTo, Bool.and_eq_true, decide_eq_true_eq,
    beq_iff_eq] at hComparable
  exact hComparable.1

end Rows

theorem mem_recordRequestTimings_of_detectFire {localClockDomain : String} {m : StampedWake}
    {timings : RequestTimings} {endedAtMs : ℤ} {row : LatencyEvent}
    (h : row ∈ detectFire localClockDomain m timings endedAtMs) (orderBuildMs : Option ℚ) :
    row ∈ recordRequestTimings localClockDomain m timings orderBuildMs endedAtMs :=
  List.mem_append_right _ h

section Stamped

variable {boots : Set Boot} {error : ℚ} {poller executor : Boot} {m : StampedWake}
  {timings : RequestTimings} {stampedAt pollerAt sentAt executorAt : ℚ}

/-- A `detect_fire` row is how long the host was awake from the stamp to the request: both were
read off the counter of one boot, and the time that passed is never less. There is one for every
stamped wake whose request went out, as long as both processes see that boot in one minute. -/
theorem detect_fire_true (hApart : BootsApart boots error) (hPoller : poller ∈ boots)
    (hExecutor : executor ∈ boots) (hPollerUp : poller.Up boots pollerAt)
    (hExecutorUp : executor.Up boots executorAt)
    (hStamp : 0 < m.recvNs → m.recvNs = poller.monotonicNs stampedAt ∧
      m.clockDomain = poller.clockDomain pollerAt)
    (hSent : timings.sentNs ≠ 0 → timings.sentNs = executor.monotonicNs sentAt)
    (orderBuildMs : Option ℚ) (endedAtMs : ℤ) :
    (∀ row ∈ recordRequestTimings (executor.clockDomain executorAt) m timings orderBuildMs endedAtMs,
      row.stage ∈ latencyStages ∧
      (row.stage = "detect_fire" → poller = executor ∧
        |row.durationMs - (executor.running sentAt - executor.running stampedAt) * 1000| <
          1 / 1000000 ∧
        (stampedAt ≤ sentAt → row.durationMs < (sentAt - stampedAt) * 1000 + 1 / 1000000))) ∧
    (timings.sentNs ≠ 0 → 0 < m.recvNs → poller = executor →
      poller.bootEpochSeconds pollerAt = executor.bootEpochSeconds executorAt →
        ∃ row ∈ recordRequestTimings (executor.clockDomain executorAt) m timings orderBuildMs
          endedAtMs, row.stage = "detect_fire") := by
  constructor
  · intro row hRow
    refine ⟨stage_of_recordRequestTimings hRow, fun hStage => ?_⟩
    have hDetect := detectFire_of_stage hRow hStage
    obtain ⟨hPositive, hComparable⟩ := comparable_of_detectFire hDetect
    obtain ⟨hHanded, -, rfl⟩ := mem_detectFire_iff.mp hDetect
    obtain ⟨hRecv, hDomain⟩ := hStamp hPositive
    obtain rfl : poller = executor := hApart.eq_of_clockDomain hPoller hExecutor hPollerUp
      hExecutorUp (hDomain.symm.trans hComparable)
    have hSpan := poller.abs_span_lt stampedAt sentAt
    rw [latencyRow, hSent hHanded, hRecv]
    refine ⟨rfl, hSpan, fun hForward => ?_⟩
    have hSlow := poller.running_slow stampedAt sentAt hForward
    have hOver := (abs_lt.mp hSpan).2
    linarith
  · rintro hHanded hPositive rfl hEpoch
    have hDomain : m.clockDomain = poller.clockDomain executorAt :=
      (hStamp hPositive).2.trans (Boot.clockDomain_eq_iff.mpr ⟨rfl, hEpoch⟩)
    have hComparable : m.isClockComparableTo (poller.clockDomain executorAt) = true := by
      simp only [StampedWake.isClockComparableTo, Bool.and_eq_true, decide_eq_true_eq, beq_iff_eq,
        bne_iff_ne]
      exact ⟨⟨hPositive, hDomain⟩, Boot.clockDomain_ne_empty⟩
    exact ⟨_, mem_recordRequestTimings_of_detectFire
      (mem_detectFire_iff.mpr ⟨hHanded, hComparable, rfl⟩) orderBuildMs, rfl⟩

end Stamped

/-- Awake for an hour, asleep for half an hour, awake again. -/
def soakHost : Boot where
  host := "studio.local"
  bootedAt := 1787290000
  wall moment := moment + 1 / 10
  running moment := min (moment - 1787290000) 3600 + max 0 (moment - 1787295400)
  running_bootedAt := by norm_num
  running_mono first last h := by
    have hBefore : min (first - 1787290000) 3600 ≤ min (last - 1787290000) 3600 :=
      min_le_min_right _ (sub_le_sub_right h _)
    have hAfter : max 0 (first - 1787295400) ≤ max 0 (last - 1787295400) :=
      max_le_max_left _ (sub_le_sub_right h _)
    exact add_le_add hBefore hAfter
  running_slow first last h := by
    rcases le_total (first - 1787290000) 3600 with hFirst | hFirst <;>
      rcases le_total (last - 1787290000) 3600 with hLast | hLast <;>
      rcases le_total 0 (first - 1787295400) with hFirst' | hFirst' <;>
      rcases le_total 0 (last - 1787295400) with hLast' | hLast' <;>
      simp only [min_eq_left, min_eq_right, max_eq_left, max_eq_right, hFirst, hLast, hFirst',
        hLast'] <;> linarith

def soakWake : StampedWake where
  correlationId := "corr-1"
  marketTicker := "KX-A-1"
  direction := "yes"
  kalshiPrice := 1 / 2
  edge := 1 / 10
  recvNs := soakHost.monotonicNs 1787297000
  clockDomain := soakHost.clockDomain 1787296000

def soakTimings : RequestTimings := { sentNs := soakHost.monotonicNs (1787297000 + 1 / 100) }

theorem bootsApart_soakHost : BootsApart {soakHost} (1 / 10) := by
  constructor
  · rintro boot rfl moment
    have hError : soakHost.wall moment - moment = 1 / 10 := add_sub_cancel_left moment _
    rw [hError]
    exact (abs_of_pos (by norm_num)).le
  · rintro boot rfl other rfl - hDifferent
    exact absurd rfl hDifferent

theorem up_soakHost {moment : ℚ} (hSince : 1787290000 ≤ moment) :
    soakHost.Up {soakHost} moment where
  since := hSince
  until_next := by
    rintro other rfl - hLater
    exact absurd hLater (lt_irrefl _)

theorem detect_fire_true_soak :
    ∃ row ∈ recordRequestTimings (soakHost.clockDomain 1787296100) soakWake soakTimings none
        1787297000010,
      |row.durationMs - 10| < 1 / 1000000 := by
  obtain ⟨hTrue, hSome⟩ := @detect_fire_true {soakHost} (1 / 10) soakHost soakHost soakWake
    soakTimings 1787297000 1787296000 (1787297000 + 1 / 100) 1787296100 bootsApart_soakHost rfl rfl
    (up_soakHost (by norm_num)) (up_soakHost (by norm_num)) (fun _ => ⟨rfl, rfl⟩) (fun _ => rfl)
    none 1787297000010
  obtain ⟨row, hRow, hStage⟩ := hSome (by decide +kernel) (by decide +kernel) rfl
    (by decide +kernel)
  have hNear := ((hTrue row hRow).2 hStage).2.1
  refine ⟨row, hRow, ?_⟩
  norm_num [soakHost] at hNear ⊢
  exact hNear

end KalshiBot.Ipc

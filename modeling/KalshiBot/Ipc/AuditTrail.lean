import KalshiBot.Ipc.FireJobs
import KalshiBot.Ipc.FloatFires

/-! # Which fires leave an audit row

Every refusal is meant to write a `rejected` row and every dispatch a `pending` one. Each stage of
a fire is given the exact condition under which its jobs carry the wake's correlation id, whatever
the rounding of its arithmetic.
-/

namespace KalshiBot.Ipc

open PythonText Execution Risk KalshiBot.Runtime

set_option autoImplicit false

/-- All that a fire hands to telemetry, however its request ends. -/
def FloatHandled.jobs (handled : FloatHandled) (outcome : PostOutcome) (acknowledgedMs : ℤ) :
    List OrderJob :=
  match handled.1 with
  | .awaiting dispatch => handled.2 ++ (closeDispatch dispatch outcome acknowledgedMs).2
  | .finished | .raised => handled.2

def LeavesTrace (m : WakeMessage) (jobs : List OrderJob) : Prop :=
  ∃ job ∈ jobs, job.row.correlationId = m.correlationId

theorem not_leavesTrace_nil (m : WakeMessage) : ¬LeavesTrace m [] := by
  rintro ⟨job, hJob, -⟩
  cases hJob

theorem orMinted_eq_iff (given : String) (minted : Uuid) :
    orMinted given minted = given ↔ given ≠ "" := by
  unfold orMinted
  split
  · next hEmpty =>
    constructor
    · intro hSame
      have hLength := minted.property
      rw [hSame, hEmpty] at hLength
      cases hLength
    · exact fun hNonempty => absurd hEmpty hNonempty
  · next hNonempty => simp [hNonempty]

namespace FloatServer

variable (server : FloatServer) (round : ℚ → PyFloat) (m : WakeMessage) (r : FloatReadings)
  (outcome : PostOutcome) (acknowledgedMs : ℤ) (count : ℤ) (price : PyFloat)

theorem refuse_leavesTrace_iff (reason : String) :
    LeavesTrace m ((server.refuse m r count price reason).jobs outcome acknowledgedMs) ↔
      Printable count := by
  by_cases hPrinted : Printable count
  · rw [refuse, intText_of_printable hPrinted]
    exact iff_of_true ⟨_, List.mem_cons_self, rfl⟩ hPrinted
  · rw [refuse, intText_of_not_printable hPrinted]
    exact iff_of_false (not_leavesTrace_nil m) hPrinted

theorem sendFire_leavesTrace_iff (hReal : m.dryRun = false)
    (hDirection : m.direction = "yes" ∨ m.direction = "no") (hPermitted : r.dispatch.permitted) :
    LeavesTrace m ((server.sendFire m r count price).jobs outcome acknowledgedMs) ↔
      Printable count ∧ m.correlationId ≠ "" := by
  have hTemplate : buildTemplate m.marketTicker m.direction =
      some ⟨m.marketTicker, m.direction⟩ := by
    rw [buildTemplate, if_pos]
    simpa using hDirection
  by_cases hPrinted : Printable count
  · simp only [sendFire, hTemplate, intText_of_printable hPrinted, openDispatch, hPermitted, hReal,
      if_true, Bool.false_eq_true, if_false, FloatHandled.jobs, and_iff_right hPrinted]
    rw [← orMinted_eq_iff m.correlationId r.dispatch.correlationId]
    constructor
    · rintro ⟨job, hJob, hTrace⟩
      obtain hJob | hJob := List.mem_append.mp hJob
      · rw [List.mem_singleton.mp hJob] at hTrace
        exact hTrace
      · rw [closeDispatch_correlationId hJob] at hTrace
        exact hTrace
    · intro hSame
      exact ⟨_, List.mem_append_left _ List.mem_cons_self, hSame⟩
  · simp only [sendFire, hTemplate, intText_of_not_printable hPrinted]
    exact iff_of_false (not_leavesTrace_nil m) fun h => hPrinted h.1

/-- The gate refuses the order, or admits it under a correlation id. -/
def GateAnswers : Prop :=
  match server.riskGate with
  | none => m.correlationId ≠ ""
  | some gate => ∃ verdict checked,
      gate.check round (candidate m count price) r.checkMs = some (verdict, checked) ∧
        (verdict ≠ none ∨ m.correlationId ≠ "")

/-- The switch is engaged for a reason that can be read, or not engaged and the gate answers. -/
def GuardAnswers : Prop :=
  match server.switchEngaged r with
  | none => False
  | some true => r.switchText ≠ .undecodable
  | some false => server.GateAnswers round m r count price

theorem gateFire_leavesTrace_iff (hReal : m.dryRun = false)
    (hDirection : m.direction = "yes" ∨ m.direction = "no") (hPermitted : r.dispatch.permitted) :
    LeavesTrace m ((server.gateFire round m r count price).jobs outcome acknowledgedMs) ↔
      Printable count ∧ server.GateAnswers round m r count price := by
  have hSends := server.sendFire_leavesTrace_iff m r outcome acknowledgedMs count price hReal
    hDirection hPermitted
  cases hGate : server.riskGate with
  | none =>
    simp only [gateFire, GateAnswers, hGate]
    exact hSends
  | some gate =>
    simp only [gateFire, GateAnswers, hGate]
    cases hCheck : gate.check round (candidate m count price) r.checkMs with
    | none =>
      refine iff_of_false (not_leavesTrace_nil m) ?_
      rintro ⟨-, verdict, checked, hSome, -⟩
      cases hSome
    | some answer =>
      obtain ⟨verdict, checked⟩ := answer
      cases verdict with
      | some rejection =>
        refine (server.refuse_leavesTrace_iff m r outcome acknowledgedMs count price _).trans ?_
        exact (and_iff_left ⟨_, _, rfl, .inl (Option.some_ne_none _)⟩).symm
      | none =>
        obtain ⟨recorded, hRecorded⟩ := FloatGate.recordAttempt_of_check round hCheck r.recordMs
        simp only [hRecorded]
        refine hSends.trans (and_congr_right' ⟨fun hId => ⟨_, _, rfl, .inr hId⟩, ?_⟩)
        rintro ⟨verdict, checked, hSame, hRefused | hId⟩
        · cases hSame
          exact absurd rfl hRefused
        · exact hId

theorem guardFire_leavesTrace_iff (hReal : m.dryRun = false)
    (hDirection : m.direction = "yes" ∨ m.direction = "no") (hPermitted : r.dispatch.permitted) :
    LeavesTrace m ((server.guardFire round m r count price).jobs outcome acknowledgedMs) ↔
      Printable count ∧ server.GuardAnswers round m r count price := by
  rw [guardFire, GuardAnswers]
  cases server.switchEngaged r with
  | none => exact iff_of_false (not_leavesTrace_nil m) fun h => h.2
  | some engaged =>
    cases engaged with
    | false =>
      exact server.gateFire_leavesTrace_iff round m r outcome acknowledgedMs count price hReal
        hDirection hPermitted
    | true =>
      cases r.switchText with
      | undecodable => exact iff_of_false (not_leavesTrace_nil m) fun h => h.2 rfl
      | text contents =>
        refine (server.refuse_leavesTrace_iff m r outcome acknowledgedMs count price _).trans ?_
        exact (and_iff_left ReadText.noConfusion).symm
      | osError =>
        refine (server.refuse_leavesTrace_iff m r outcome acknowledgedMs count price _).trans ?_
        exact (and_iff_left ReadText.noConfusion).symm

theorem truncate_lt_one_iff {q : ℚ} (h : 0 < q) : truncate q < 1 ↔ q < 1 := by
  rw [truncate, if_pos h.le, Int.floor_lt, Int.cast_one]

theorem le_sized {sized : ℤ} (h : server.sized round m r = some sized) :
    server.fixedOrderContractCount ≤ sized := by
  rw [FloatServer.sized, sizePositionFloat] at h
  split at h
  · exact (Option.some.inj h).le
  · obtain ⟨fullKellyFraction, -, h⟩ := Option.bind_eq_some_iff.mp h
    obtain ⟨contracts, -, h⟩ := Option.bind_eq_some_iff.mp h
    obtain ⟨count, -, h⟩ := Option.bind_eq_some_iff.mp h
    exact (le_max_right _ _).trans_eq (Option.some.inj h)

theorem restingCount_lt_one_iff (hFloor : 1 ≤ server.fixedOrderContractCount) {sized : ℤ}
    (h : server.sized round m r = some sized) :
    restingCount m sized < 1 ↔ 0 < m.availableSizeContracts ∧ m.availableSizeContracts < 1 := by
  have hSized : 1 ≤ sized := hFloor.trans (server.le_sized round m r h)
  unfold restingCount
  split
  · next hRests =>
    rw [min_lt_iff, truncate_lt_one_iff hRests, or_iff_right (not_lt.mpr hSized),
      and_iff_right hRests]
  · next hNone => exact iff_of_false (not_lt.mpr hSized) fun h => hNone h.1

/-- The wire price is tradeable, its grid can be read and used, and a size can be computed; the
count can be written into a row; and the fire is refused for want of volume, or the guards before
the request answer it. -/
def Audits : Prop :=
  (0 < m.wirePriceYesDollars ∧ m.wirePriceYesDollars < 1) ∧
    ∃ price sized, wirePrice round m = some price ∧ server.sized round m r = some sized ∧
      if 0 < m.availableSizeContracts ∧ m.availableSizeContracts < 1 then
        Printable server.fixedOrderContractCount
      else Printable (restingCount m sized) ∧
        server.GuardAnswers round m r (restingCount m sized) price

theorem startFire_leavesTrace_iff (hReal : m.dryRun = false)
    (hDirection : m.direction = "yes" ∨ m.direction = "no")
    (hFloor : 1 ≤ server.fixedOrderContractCount) (hPermitted : r.dispatch.permitted) :
    LeavesTrace m ((server.startFire round m r).jobs outcome acknowledgedMs) ↔
      server.Audits round m r := by
  rw [startFire, Audits, hReal, if_neg Bool.false_ne_true]
  by_cases hTradeable : 0 < m.wirePriceYesDollars ∧ m.wirePriceYesDollars < 1
  · rw [if_neg (not_not.mpr hTradeable), and_iff_right hTradeable]
    cases hPrice : wirePrice round m with
    | none =>
      refine iff_of_false (not_leavesTrace_nil m) ?_
      rintro ⟨price, sized, hSome, -⟩
      cases hSome
    | some price =>
      cases hSized : server.sized round m r with
      | none =>
        refine iff_of_false (not_leavesTrace_nil m) ?_
        rintro ⟨price, sized, -, hSome, -⟩
        cases hSome
      | some sized =>
        simp only [Option.some.injEq, exists_and_left, exists_eq_left']
        have hCount := server.restingCount_lt_one_iff round m r hFloor hSized
        by_cases hNone : restingCount m sized < 1
        · rw [if_pos hNone, if_pos (hCount.mp hNone)]
          exact server.refuse_leavesTrace_iff m r outcome acknowledgedMs _ price _
        · rw [if_neg hNone, if_neg (mt hCount.mpr hNone)]
          exact server.guardFire_leavesTrace_iff round m r outcome acknowledgedMs _ price hReal
            hDirection hPermitted
  · rw [if_pos hTradeable]
    exact iff_of_false (not_leavesTrace_nil m) fun h => hTradeable h.1

/-- A wake whose size cannot be computed is not heard of again. -/
theorem jobs_of_unsized (hReal : m.dryRun = false) (h : server.sized round m r = none) :
    (server.startFire round m r).jobs outcome acknowledgedMs = [] := by
  rw [startFire, hReal, if_neg Bool.false_ne_true, h]
  split
  · rfl
  · cases wirePrice round m <;> rfl

end FloatServer

def liveServer : FloatServer :=
  { demoServer.toFloats with
    kellyFraction := nearest (15 / 100)
    maxPositionPctOfBalance := nearest (2 / 100) }

def liveReadings : FloatReadings := demoReadings.toFloats

/-- Its step is the float 0.01. -/
def steadyWake : WakeMessage :=
  { correlationId := "corr-1", marketTicker := "KX-A-1", direction := "yes", kalshiPrice := 1 / 2,
    edge := 1 / 8, wirePriceYesDollars := 1 / 2, exchangeIndex := 0
    priceRanges := [[0, 1, 5764607523034235 / 576460752303423488]] }

/-- Its price is the float 1e-320: a stake over it is infinite. -/
def tinyPriceWake : WakeMessage := { steadyWake with kalshiPrice := 2024 / 2 ^ 1074 }

/-- What a frame of the second protocol version decodes to: no wire price. -/
def unpricedWake : WakeMessage :=
  { correlationId := "corr-v2-frame", marketTicker := "KX-A-1", direction := "no",
    kalshiPrice := 1 / 4, edge := 1 / 8, exchangeIndex := 0 }

theorem tinyPriceWake_unsized : liveServer.sized nearest tinyPriceWake liveReadings = none := by
  decide +kernel

theorem steadyWake_answered :
    liveServer.GuardAnswers nearest steadyWake liveReadings 4 (.finite (1 / 2)) := by
  have hReleased : liveServer.switchEngaged liveReadings = some false := by decide +kernel
  have hAdmits : ((RiskGate.toFloats { limits := { allowedExchangeIndexes := {0} } }).check nearest
      (FloatServer.candidate steadyWake 4 (.finite (1 / 2))) liveReadings.checkMs).map Prod.fst =
        some none := by decide +kernel
  obtain ⟨⟨verdict, checked⟩, hCheck, -⟩ := Option.map_eq_some_iff.mp hAdmits
  rw [FloatServer.GuardAnswers, hReleased]
  exact ⟨verdict, checked, hCheck, .inr (by decide)⟩

theorem startFire_leavesTrace_iff_steady :
    LeavesTrace steadyWake
        ((liveServer.startFire nearest steadyWake liveReadings).jobs .cancelled 2000) ∧
      ¬LeavesTrace tinyPriceWake
        ((liveServer.startFire nearest tinyPriceWake liveReadings).jobs .cancelled 2000) := by
  constructor
  · refine (liveServer.startFire_leavesTrace_iff nearest steadyWake liveReadings .cancelled 2000 rfl
      (.inl rfl) (by decide) rfl).mpr ?_
    refine ⟨by decide +kernel, .finite (1 / 2), 4, by decide +kernel, by decide +kernel, ?_⟩
    exact ⟨by decide +kernel, steadyWake_answered⟩
  · intro hTrace
    obtain ⟨-, price, sized, -, hSized, -⟩ := (liveServer.startFire_leavesTrace_iff nearest
      tinyPriceWake liveReadings .cancelled 2000 rfl (.inl rfl) (by decide) rfl).mp hTrace
    rw [tinyPriceWake_unsized] at hSized
    cases hSized

/-- Two real wakes of an executor in order that leave no row, whatever the exchange would do. -/
theorem wakes_leave_no_trace :
    1 ≤ liveServer.fixedOrderContractCount ∧ liveReadings.dispatch.permitted ∧
    ∀ m ∈ [unpricedWake, tinyPriceWake], m.dryRun = false ∧ m.direction ∈ ["yes", "no"] ∧
      ∀ outcome acknowledgedMs, ¬LeavesTrace m
        ((liveServer.startFire nearest m liveReadings).jobs outcome acknowledgedMs) := by
  refine ⟨by decide, rfl, List.forall_mem_cons.mpr ⟨⟨rfl, by decide, ?_⟩,
    List.forall_mem_singleton.mpr ⟨rfl, by decide, ?_⟩⟩⟩
  · rintro outcome acknowledgedMs ⟨job, hJob, -⟩
    cases hJob
  · intro outcome acknowledgedMs
    rw [liveServer.jobs_of_unsized nearest tinyPriceWake liveReadings outcome acknowledgedMs rfl
      tinyPriceWake_unsized]
    exact not_leavesTrace_nil _

end KalshiBot.Ipc

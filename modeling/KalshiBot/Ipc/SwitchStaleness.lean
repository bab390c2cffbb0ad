import KalshiBot.Ipc.FireTasks
import KalshiBot.Runtime.SwitchRuns

/-! # How stale the kill switch can be

A fire consults the switch in one piece with what it does next, so its check is one of the
`is_engaged` calls of the run.
-/

namespace KalshiBot.Ipc

open KalshiBot.Runtime Relation SwitchRun

set_option autoImplicit false

theorem ExecutorServer.guardFire_of_engaged {server : ExecutorServer} {m : WakeMessage}
    {r : FireReadings} (hEngaged : server.switchEngaged r = true) (count : ℤ) (wirePrice : ℚ) :
    (server.guardFire m count wirePrice r).1.tasks = [] := by
  cases hSwitch : server.killSwitch with
  | none =>
    rw [switchEngaged, hSwitch] at hEngaged
    cases hEngaged
  | some switch =>
    rw [switchEngaged, hSwitch] at hEngaged
    simp only [guardFire, hSwitch, if_pos hEngaged]
    cases KillSwitch.reason r.switchText with
    | none => rfl
    | some text => rfl

theorem ExecutorServer.startFire_of_engaged {server : ExecutorServer} {m : WakeMessage}
    {r : FireReadings} (hReal : m.dryRun = false) (hEngaged : server.switchEngaged r = true) :
    (server.startFire m r).1.tasks = [] := by
  simp only [startFire, hReal, Bool.false_eq_true, if_false]
  split
  · rfl
  cases snapToGrid m.wirePriceYesDollars m.priceRanges with
  | none => rfl
  | some wirePrice =>
    dsimp only
    split
    · rfl
    · exact guardFire_of_engaged hEngaged _ _

/-- In every run of the switch, at the end of an `is_engaged` that was called at `calledNs` and
looks at the file, if it does, at `atNs`. -/
theorem is_engaged_staleness {ttlSeconds : ℚ} (hTtl : 0 ≤ ttlSeconds) {existedFirst : Bool}
    {startNs : ℤ} {run : SwitchRun}
    (hRun : ReflTransGen Step (created ttlSeconds existedFirst startNs) run)
    {calledNs clockNs atNs : ℤ} (hCall : run.call = .checking calledNs clockNs)
    (hNow : run.nowNs ≤ atNs) :
    (∃ instantNs : ℤ, (calledNs : ℚ) - ttlSeconds * 10 ^ 9 ≤ instantNs ∧ instantNs ≤ atNs ∧
      run.ExistedAt instantNs (run.answer clockNs)) ∧
    ((∀ instantNs : ℤ, (calledNs : ℚ) - ttlSeconds * 10 ^ 9 ≤ instantNs → instantNs ≤ calledNs →
        ¬run.ExistedAt instantNs false) →
      (run.answer clockNs = true ∧
        ∀ (server : ExecutorServer) (m : WakeMessage) (r : FireReadings), m.dryRun = false →
          server.killSwitch = some run.switch → r.switchExists = run.fileExists →
          r.switchNs = clockNs → (server.startFire m r).1.tasks = []) ∨
      ∃ instantNs, calledNs < instantNs ∧ instantNs ≤ atNs ∧ run.ExistedAt instantNs false) ∧
    (run.operated = true → run.answer clockNs = run.fileExists) := by
  have hTracked : Tracked ttlSeconds run :=
    (preserves_tracked ttlSeconds).run hRun (tracked_created ttlSeconds existedFirst startNs)
  obtain ⟨instantNs, hYoung, hInstant, hExisted⟩ := hTracked.answer_existed hTtl hCall hNow
  refine ⟨⟨instantNs, hYoung, hInstant, hExisted⟩, ?_, hTracked.answer_fresh⟩
  intro hThroughout
  cases hAnswer : run.answer clockNs with
  | true =>
    refine .inl ⟨rfl, ?_⟩
    rintro server m r hReal hSwitch hExists rfl
    apply ExecutorServer.startFire_of_engaged hReal
    rw [ExecutorServer.switchEngaged, hSwitch, hExists]
    exact hAnswer
  | false =>
    rw [hAnswer] at hExisted
    refine .inr ⟨instantNs, ?_, hInstant, hExisted⟩
    by_contra hEarly
    exact hThroughout instantNs hYoung (not_lt.mp hEarly) hExisted

/-- The switch found the file missing at the start, its own `engage` has made it a nanosecond
later, and `is_engaged` is called after two seconds. -/
def stoppedRun : SwitchRun where
  switch := { ttlSeconds := 1 }
  existedFirst := false
  changes := [(1, true)]
  nowNs := 2000000000
  call := .checking 2000000000 2000000000
  operated := true

theorem stoppedRun_reached : ReflTransGen Step (created 1 false 0) stoppedRun :=
  .head (@Step.call _ 0 le_rfl rfl) <|
  .head (@Step.clock _ 0 0 le_rfl rfl) <|
  .head (@Step.answer _ 0 0 0 le_rfl rfl) <|
  .head (@Step.operate _ true 1 (by decide) rfl) <|
  .head (@Step.invalidate _ 1 le_rfl rfl) <|
  .head (@Step.call _ 2000000000 (by decide) rfl) <|
  .head (@Step.clock _ 2000000000 2000000000 le_rfl rfl) .refl

theorem stoppedRun_answer : stoppedRun.answer 2000000000 = true := by decide +kernel

/-- Once the file is there, its absence is over. -/
theorem stoppedRun_not_existedAt {instantNs : ℤ} (hLater : 1 < instantNs) :
    ¬stoppedRun.ExistedAt instantNs false := by
  rintro ⟨before, after, hChanges, -, hAfter, hValue⟩
  rcases before with _ | ⟨change, before⟩
  · have hMade := hAfter (1, true) (by rw [← List.nil_append after, ← hChanges]; exact List.mem_singleton_self _)
    exact absurd hMade (not_le.mpr hLater)
  · obtain ⟨rfl, hRest⟩ := List.cons.inj hChanges
    obtain ⟨rfl, -⟩ := List.append_eq_nil_iff.mp hRest.symm
    cases hValue

def stoppedServer : ExecutorServer := { demoServer with killSwitch := some stoppedRun.switch }

def stoppedWake : WakeMessage :=
  { correlationId := "corr-1", marketTicker := "KX-A-1", direction := "yes", kalshiPrice := 1 / 2,
    edge := 1 / 10, wirePriceYesDollars := 1 / 2 }

theorem is_engaged_staleness_stopped :
    (∃ instantNs : ℤ, ((2000000000 : ℤ) : ℚ) - 1 * 10 ^ 9 ≤ instantNs ∧ instantNs ≤ 2000000000 ∧
      stoppedRun.ExistedAt instantNs true) ∧
    (stoppedServer.startFire stoppedWake
      { demoReadings with switchExists := true, switchNs := 2000000000 }).1.tasks = [] ∧
    stoppedRun.answer 2000000000 = stoppedRun.fileExists := by
  obtain ⟨hWindow, hStops, hFresh⟩ :=
    @is_engaged_staleness 1 zero_le_one false 0 stoppedRun stoppedRun_reached 2000000000 2000000000
      2000000000 rfl le_rfl
  rw [stoppedRun_answer] at hWindow
  refine ⟨hWindow, ?_, hFresh rfl⟩
  have hThere : ∀ instantNs : ℤ, ((2000000000 : ℤ) : ℚ) - 1 * 10 ^ 9 ≤ instantNs →
      instantNs ≤ 2000000000 → ¬stoppedRun.ExistedAt instantNs false := by
    intro instantNs hWithin _
    apply stoppedRun_not_existedAt
    have hFrom : (1 : ℚ) < instantNs := lt_of_lt_of_le (by norm_num) hWithin
    exact_mod_cast hFrom
  obtain ⟨-, hFire⟩ | ⟨instantNs, hCalled, hInstant, -⟩ := hStops hThere
  · exact hFire stoppedServer stoppedWake _ rfl rfl rfl rfl
  · exact absurd hCalled (not_lt.mpr hInstant)

end KalshiBot.Ipc

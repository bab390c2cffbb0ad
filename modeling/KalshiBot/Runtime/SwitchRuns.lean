import KalshiBot.Library.Runs
import KalshiBot.Library.TimedHistory
import KalshiBot.Runtime.KillSwitch
import Mathlib.Tactic.Linarith

/-! # Runs of the kill switch

The calls on one switch come one after another, as they do on an event loop. The file changes
between any two of their steps, by the hand of any process. One monotone clock times all of it.
-/

namespace KalshiBot.Runtime

open Runs TimedHistory Relation

set_option autoImplicit false

/-- The call under way: `is_engaged` before and after it reads the clock, or an `engage` or
`release` that has touched the file. -/
inductive SwitchCall where
  | idle
  | called (calledNs : ℤ)
  | checking (calledNs clockNs : ℤ)
  | operating
  deriving DecidableEq

structure SwitchRun where
  switch : KillSwitch
  existedFirst : Bool
  changes : List (ℤ × Bool) := []
  nowNs : ℤ
  call : SwitchCall := .idle
  /-- Whether an `engage` or a `release` has returned since `is_engaged` last did. -/
  operated : Bool := false

namespace SwitchRun

def created (ttlSeconds : ℚ) (existedFirst : Bool) (nowNs : ℤ) : SwitchRun where
  switch := { ttlSeconds }
  existedFirst
  nowNs

def fileExists (run : SwitchRun) : Bool := lastValue run.existedFirst run.changes

/-- The file's existence had this value at this instant. -/
def ExistedAt (run : SwitchRun) (atNs : ℤ) (value : Bool) : Prop :=
  HeldAt run.existedFirst run.changes atNs value

/-- What `is_engaged` returns if it looks at the file now. -/
def answer (run : SwitchRun) (clockNs : ℤ) : Bool :=
  (run.switch.isEngaged run.fileExists clockNs).1

def changed (run : SwitchRun) (value : Bool) (atNs : ℤ) : SwitchRun :=
  { run with changes := run.changes ++ [(atNs, value)], nowNs := atNs }

/-- `fail` is an exception of the file system; it leaves the switch as it was. -/
inductive Step : SwitchRun → SwitchRun → Prop
  | file {run : SwitchRun} {value : Bool} {atNs : ℤ} (hNow : run.nowNs ≤ atNs) :
      Step run (run.changed value atNs)
  | call {run : SwitchRun} {atNs : ℤ} (hNow : run.nowNs ≤ atNs) (hCall : run.call = .idle) :
      Step run { run with call := .called atNs, nowNs := atNs }
  | clock {run : SwitchRun} {calledNs atNs : ℤ} (hNow : run.nowNs ≤ atNs)
      (hCall : run.call = .called calledNs) :
      Step run { run with call := .checking calledNs atNs, nowNs := atNs }
  | answer {run : SwitchRun} {calledNs clockNs atNs : ℤ} (hNow : run.nowNs ≤ atNs)
      (hCall : run.call = .checking calledNs clockNs) :
      Step run { run with
        switch := (run.switch.isEngaged run.fileExists clockNs).2
        call := .idle, operated := false, nowNs := atNs }
  | operate {run : SwitchRun} {engaging : Bool} {atNs : ℤ} (hNow : run.nowNs ≤ atNs)
      (hCall : run.call = .idle) : Step run { run.changed engaging atNs with call := .operating }
  | invalidate {run : SwitchRun} {atNs : ℤ} (hNow : run.nowNs ≤ atNs)
      (hCall : run.call = .operating) :
      Step run { run with
        switch := run.switch.invalidate
        call := .idle, operated := true, nowNs := atNs }
  | fail {run : SwitchRun} {atNs : ℤ} (hNow : run.nowNs ≤ atNs) :
      Step run { run with call := .idle, nowNs := atNs }

/-- What the switch owes to the clock and to the file. -/
structure Tracked (ttlSeconds : ℚ) (run : SwitchRun) : Prop where
  sameTtl : run.switch.ttlSeconds = ttlSeconds
  past : ∀ change ∈ run.changes, change.1 ≤ run.nowNs
  called : ∀ calledNs, run.call = .called calledNs → calledNs ≤ run.nowNs
  checking : ∀ calledNs clockNs, run.call = .checking calledNs clockNs →
    calledNs ≤ clockNs ∧ clockNs ≤ run.nowNs
  cached : ∀ value ∈ run.switch.cached, ∃ readNs, run.switch.checkedAtNs ≤ readNs ∧
    readNs ≤ run.nowNs ∧ run.ExistedAt readNs value
  operated : run.operated = true → run.switch.cached = none

variable {ttlSeconds : ℚ} {run : SwitchRun} {atNs calledNs clockNs : ℤ}

theorem tracked_created (ttlSeconds : ℚ) (existedFirst : Bool) (nowNs : ℤ) :
    Tracked ttlSeconds (created ttlSeconds existedFirst nowNs) where
  sameTtl := rfl
  past := List.forall_mem_nil _
  called _ hCall := by cases hCall
  checking _ _ hCall := by cases hCall
  cached _ hCached := by cases hCached
  operated _ := rfl

theorem Tracked.existedAt_now (h : Tracked ttlSeconds run) (hNow : run.nowNs ≤ atNs) :
    run.ExistedAt atNs run.fileExists :=
  heldAt_lastValue fun change hMem => (h.past change hMem).trans hNow

theorem Tracked.changed (h : Tracked ttlSeconds run) (hNow : run.nowNs ≤ atNs) (value : Bool) :
    Tracked ttlSeconds (run.changed value atNs) where
  sameTtl := h.sameTtl
  past := past_snoc h.past hNow le_rfl
  called calledNs hCall := (h.called calledNs hCall).trans hNow
  checking calledNs clockNs hCall :=
    ⟨(h.checking calledNs clockNs hCall).1, (h.checking calledNs clockNs hCall).2.trans hNow⟩
  cached value hCached := by
    obtain ⟨readNs, hChecked, hRead, hExisted⟩ := h.cached value hCached
    exact ⟨readNs, hChecked, hRead.trans hNow, hExisted.snoc (hRead.trans hNow)⟩
  operated := h.operated

/-- Time passes and the call under way moves on. -/
theorem Tracked.elapsed (h : Tracked ttlSeconds run) (hNow : run.nowNs ≤ atNs) {call : SwitchCall}
    (hCalled : ∀ calledNs, call = .called calledNs → calledNs ≤ atNs)
    (hChecking : ∀ calledNs clockNs, call = .checking calledNs clockNs →
      calledNs ≤ clockNs ∧ clockNs ≤ atNs) :
    Tracked ttlSeconds { run with call, nowNs := atNs } where
  sameTtl := h.sameTtl
  past change hMem := (h.past change hMem).trans hNow
  called := hCalled
  checking := hChecking
  cached value hCached := by
    obtain ⟨readNs, hChecked, hRead, hExisted⟩ := h.cached value hCached
    exact ⟨readNs, hChecked, hRead.trans hNow, hExisted⟩
  operated := h.operated

theorem Tracked.idle (h : Tracked ttlSeconds run) (hNow : run.nowNs ≤ atNs) :
    Tracked ttlSeconds { run with call := .idle, nowNs := atNs } :=
  h.elapsed hNow (fun _ hCall => by cases hCall) (fun _ _ hCall => by cases hCall)

theorem Tracked.answered (h : Tracked ttlSeconds run) (hNow : run.nowNs ≤ atNs)
    (hClock : clockNs ≤ run.nowNs) :
    Tracked ttlSeconds { run with
      switch := (run.switch.isEngaged run.fileExists clockNs).2
      call := .idle, operated := false, nowNs := atNs } := by
  have hIdle := h.idle hNow
  obtain ⟨value, -, -, hEngaged⟩ | hEngaged := run.switch.isEngaged_cases run.fileExists clockNs
  · rw [hEngaged]
    exact { hIdle with operated := fun hOperated => by cases hOperated }
  · rw [hEngaged]
    have hFresh : run.ExistedAt atNs run.fileExists := h.existedAt_now hNow
    refine { hIdle with sameTtl := h.sameTtl, cached := ?_, operated := ?_ }
    · rintro value ⟨⟩
      exact ⟨atNs, hClock.trans hNow, le_rfl, hFresh⟩
    · intro hOperated
      cases hOperated

theorem Tracked.invalidated (h : Tracked ttlSeconds run) (hNow : run.nowNs ≤ atNs) :
    Tracked ttlSeconds { run with
      switch := run.switch.invalidate
      call := .idle, operated := true, nowNs := atNs } :=
  { h.idle hNow with
    sameTtl := h.sameTtl
    cached := fun _ hCached => by cases hCached
    operated := fun _ => rfl }

theorem preserves_tracked (ttlSeconds : ℚ) : Preserves Step (Tracked ttlSeconds) := by
  intro run next hStep h
  cases hStep with
  | file hNow => exact h.changed hNow _
  | call hNow _ =>
    refine h.elapsed hNow ?_ (fun _ _ hCall => by cases hCall)
    rintro calledNs ⟨⟩
    exact le_rfl
  | clock hNow hCall =>
    refine h.elapsed hNow (fun _ hCall => by cases hCall) ?_
    rintro calledNs clockNs ⟨⟩
    exact ⟨(h.called _ hCall).trans hNow, le_rfl⟩
  | answer hNow hCall => exact h.answered hNow (h.checking _ _ hCall).2
  | operate hNow _ =>
    exact (h.changed hNow _).elapsed le_rfl (fun _ hCall => by cases hCall)
      (fun _ _ hCall => by cases hCall)
  | invalidate hNow _ => exact h.invalidated hNow
  | fail hNow => exact h.idle hNow

/-- What `is_engaged` returns was the case less than the cache's age before the call, or during
it. -/
theorem Tracked.answer_existed (h : Tracked ttlSeconds run) (hTtl : 0 ≤ ttlSeconds)
    (hCall : run.call = .checking calledNs clockNs) (hNow : run.nowNs ≤ atNs) :
    ∃ instantNs : ℤ, (calledNs : ℚ) - ttlSeconds * 10 ^ 9 ≤ instantNs ∧ instantNs ≤ atNs ∧
      run.ExistedAt instantNs (run.answer clockNs) := by
  obtain ⟨hCalled, hClock⟩ := h.checking calledNs clockNs hCall
  have hCalledQ : (calledNs : ℚ) ≤ clockNs := by exact_mod_cast hCalled
  obtain ⟨value, hCached, hYoung, hEngaged⟩ | hEngaged :=
    run.switch.isEngaged_cases run.fileExists clockNs
  · obtain ⟨readNs, hChecked, hRead, hExisted⟩ := h.cached value hCached
    have hCheckedQ : (run.switch.checkedAtNs : ℚ) ≤ readNs := by exact_mod_cast hChecked
    rw [h.sameTtl, Int.cast_sub] at hYoung
    refine ⟨readNs, by linarith, hRead.trans hNow, ?_⟩
    rwa [answer, hEngaged]
  · have hLate : (calledNs : ℚ) ≤ atNs := by
      exact_mod_cast (hCalled.trans hClock).trans hNow
    have hAge : 0 ≤ ttlSeconds * 10 ^ 9 := mul_nonneg hTtl (by norm_num)
    refine ⟨atNs, by linarith, le_rfl, ?_⟩
    rw [answer, hEngaged]
    exact h.existedAt_now hNow

theorem Tracked.answer_fresh (h : Tracked ttlSeconds run) (hOperated : run.operated = true) :
    run.answer clockNs = run.fileExists :=
  KillSwitch.isEngaged_of_uncached (h.operated hOperated) run.fileExists clockNs

end SwitchRun

end KalshiBot.Runtime

import KalshiBot.Library.RateBudget
import KalshiBot.Library.Runs
import KalshiBot.Transport.RateLimit

/-! # What a token bucket grants

The calls of `acquire` are numbered in the order in which they arrive; the number is their ticket.
A grant is timed by the clock reading of the refill in front of it.
-/

namespace KalshiBot.Transport

open Runs RateBudget RollingWindow

set_option autoImplicit false

structure Grant where
  ticket : ℕ
  cost : ℚ
  atNs : ℤ
  /-- What the bucket held when the cost was taken out. -/
  held : ℚ

structure Sleep where
  ticket : ℕ
  waitedSeconds : ℚ

structure BucketRun where
  bucket : TokenBucket
  arrived : ℕ := 0
  sleeper : Option Sleep := none
  grants : List Grant := []

inductive BucketEvent where
  | arrive (nowNs : ℤ)
  | proceed (ticket : ℕ) (nowNs : ℤ)
  | wake (nowNs : ℤ)
  | cancelQueued (ticket : ℕ)
  | cancelAsleep

namespace BucketRun

variable (cost : ℕ → ℚ)

def started (ratePerSecond capacity : ℚ) (nowNs : ℤ) : BucketRun where
  bucket := .full ratePerSecond capacity nowNs

def grant (run : BucketRun) (bucket : TokenBucket) (ticket : ℕ) (nowNs : ℤ) : BucketRun :=
  { run with
    bucket
    sleeper := none
    grants := run.grants ++ [⟨ticket, cost ticket, nowNs, (run.bucket.refill nowNs).tokens⟩] }

def settle (run : BucketRun) (ticket : ℕ) (nowNs : ℤ) : TokenBucket × Acquiring → BucketRun
  | (bucket, .granted) => run.grant cost bucket ticket nowNs
  | (bucket, .asleep waitedSeconds) => { run with bucket, sleeper := some ⟨ticket, waitedSeconds⟩ }
  | (bucket, .queued) => { run with bucket }

def step (run : BucketRun) : BucketEvent → BucketRun
  | .arrive nowNs =>
    { run with arrived := run.arrived + 1 }.settle cost run.arrived nowNs
      (run.bucket.acquire run.arrived (cost run.arrived) nowNs)
  | .proceed ticket nowNs =>
    run.settle cost ticket nowNs (run.bucket.resumeQueued ticket (cost ticket) nowNs)
  | .wake nowNs =>
    match run.sleeper with
    | none => run
    | some sleep =>
      run.grant cost (run.bucket.resumeAsleep (cost sleep.ticket) nowNs) sleep.ticket nowNs
  | .cancelQueued ticket => { run with bucket := run.bucket.abandonQueued ticket }
  | .cancelAsleep => { run with bucket := run.bucket.abandonAsleep, sleeper := none }

/-- The clock does not go back behind its last reading. -/
def OnClock (run : BucketRun) (nowNs : ℤ) : Prop := run.bucket.refilledAtNs ≤ nowNs

/-- A sleep lasts at least as long as asked. -/
def Timely (run : BucketRun) : BucketEvent → Prop
  | .arrive nowNs | .proceed _ nowNs => run.OnClock nowNs
  | .wake nowNs => run.OnClock nowNs ∧ ∀ sleep ∈ run.sleeper,
      sleep.waitedSeconds ≤ (nowNs - run.bucket.refilledAtNs) / 1000000000
  | .cancelQueued _ | .cancelAsleep => True

instance (run : BucketRun) : ∀ event, Decidable (run.Timely event)
  | .arrive nowNs | .proceed _ nowNs => inferInstanceAs (Decidable (run.bucket.refilledAtNs ≤ nowNs))
  | .wake nowNs => inferInstanceAs (Decidable (run.bucket.refilledAtNs ≤ nowNs ∧ _))
  | .cancelQueued _ | .cancelAsleep => inferInstanceAs (Decidable True)

/-- The tickets that were granted, that of the sleeper and those in the queue. -/
def line (run : BucketRun) : List ℕ :=
  run.grants.map Grant.ticket ++ run.sleeper.toList.map Sleep.ticket ++ run.bucket.waiters

/-- Nothing is ever granted past a ticket that arrived earlier and still waits. -/
structure Orderly (run : BucketRun) : Prop where
  sorted : run.line.Pairwise (· < ·)
  arrived : ∀ ticket ∈ run.line, ticket < run.arrived
  locked : run.bucket.locked = run.sleeper.isSome

/-- What a run owes to the rate and the capacity of its bucket. -/
structure Solvent (ratePerSecond capacity : ℚ) (run : BucketRun) : Prop where
  sameRate : run.bucket.ratePerSecond = ratePerSecond
  sameCapacity : run.bucket.capacity = capacity
  level : 0 ≤ run.bucket.tokens
  metered : Metered Grant.atNs Grant.cost capacity (ratePerSecond / 1000000000) run.grants
    run.bucket.tokens run.bucket.refilledAtNs
  covered : ∀ given ∈ run.grants, given.cost = cost given.ticket ∧ given.cost ≤ given.held
  sleeping : ∀ sleep ∈ run.sleeper, run.bucket.tokens < cost sleep.ticket ∧
    sleep.waitedSeconds = (cost sleep.ticket - run.bucket.tokens) / ratePerSecond

variable {cost} {ratePerSecond capacity : ℚ} {run : BucketRun} {ticket : ℕ} {nowNs : ℤ}

/-- What `enter` can do: it gives a cost that is covered, or goes to sleep under the lock. -/
theorem enter_cases (bucket : TokenBucket) (price : ℚ) (nowNs : ℤ) :
    (price ≤ (bucket.refill nowNs).tokens ∧
      bucket.enter price nowNs = ((bucket.refill nowNs).withdraw price, .granted)) ∨
    ((bucket.refill nowNs).tokens < price ∧
      bucket.enter price nowNs = ({ bucket.refill nowNs with locked := true },
        .asleep ((price - (bucket.refill nowNs).tokens) / bucket.ratePerSecond))) := by
  by_cases h : (bucket.refill nowNs).tokens < price
  · exact .inr ⟨h, if_pos h⟩
  · exact .inl ⟨not_lt.mp h, if_neg h⟩

section Order

theorem started_orderly (ratePerSecond capacity : ℚ) (nowNs : ℤ) :
    (started ratePerSecond capacity nowNs).Orderly where
  sorted := List.Pairwise.nil
  arrived := List.forall_mem_nil _
  locked := rfl

theorem Orderly.of_line {later : BucketRun} (h : run.Orderly) (hLine : later.line.Sublist run.line)
    (hArrived : later.arrived = run.arrived) (hLocked : later.bucket.locked = later.sleeper.isSome) :
    later.Orderly where
  sorted := h.sorted.sublist hLine
  arrived ticket hTicket := hArrived ▸ h.arrived ticket (hLine.subset hTicket)
  locked := hLocked

theorem Orderly.append {later : BucketRun} (h : run.Orderly)
    (hLine : later.line = run.line ++ [run.arrived]) (hArrived : later.arrived = run.arrived + 1)
    (hLocked : later.bucket.locked = later.sleeper.isSome) : later.Orderly where
  sorted := by
    rw [hLine, List.pairwise_append]
    refine ⟨h.sorted, List.pairwise_singleton _ _, fun ticket hTicket last hLast => ?_⟩
    rw [List.mem_singleton.mp hLast]
    exact h.arrived ticket hTicket
  arrived ticket hTicket := by
    rw [hLine, List.mem_append] at hTicket
    obtain hOld | hNew := hTicket
    · have hBefore := h.arrived ticket hOld
      omega
    · rw [List.mem_singleton.mp hNew]
      omega
  locked := hLocked

/-- The one who enters stands in front of the queue, granted or asleep. -/
theorem settle_enter (run : BucketRun) (bucket : TokenBucket) (ticket : ℕ) (nowNs : ℤ) :
    let later := run.settle cost ticket nowNs (bucket.enter (cost ticket) nowNs)
    later.line = run.grants.map Grant.ticket ++ ticket :: bucket.waiters ∧
      later.arrived = run.arrived ∧ later.bucket.locked = later.sleeper.isSome := by
  obtain ⟨-, hEnter⟩ | ⟨-, hEnter⟩ := enter_cases bucket (cost ticket) nowNs
  · rw [hEnter]
    refine ⟨?_, rfl, rfl⟩
    simp [settle, grant, line, TokenBucket.withdraw, TokenBucket.refill]
  · rw [hEnter]
    refine ⟨?_, rfl, rfl⟩
    simp [settle, line, TokenBucket.refill]

theorem Orderly.awake (h : run.Orderly) (hFree : ¬run.bucket.locked) : run.sleeper = none := by
  rw [h.locked] at hFree
  simpa using hFree

theorem Orderly.arrive (h : run.Orderly) (nowNs : ℤ) :
    (run.step cost (.arrive nowNs)).Orderly := by
  by_cases hBusy : run.bucket.locked ∨ run.bucket.waiters ≠ []
  · refine h.append ?_ ?_ ?_ <;>
      simp only [BucketRun.step, TokenBucket.acquire, if_pos hBusy, settle]
    · simp [line]
    · exact h.locked
  · obtain ⟨hFree, hEmpty⟩ := not_or.mp hBusy
    have hAwake := h.awake hFree
    obtain ⟨hLine, hArrived, hLocked⟩ := @settle_enter cost
      { run with arrived := run.arrived + 1 } run.bucket run.arrived nowNs
    have hStep : run.step cost (.arrive nowNs) =
        { run with arrived := run.arrived + 1 }.settle cost run.arrived nowNs
          (run.bucket.enter (cost run.arrived) nowNs) := by
      rw [BucketRun.step, TokenBucket.acquire, if_neg hBusy]
    rw [hStep]
    refine h.append ?_ hArrived hLocked
    rw [hLine]
    simp [line, hAwake, not_not.mp hEmpty]

/-- Only the first of the queue gets past the lock. -/
theorem Orderly.proceed (h : run.Orderly) (ticket : ℕ) (nowNs : ℤ) :
    (run.step cost (.proceed ticket nowNs)).Orderly := by
  rw [BucketRun.step, TokenBucket.resumeQueued]
  split
  next hFirst =>
    obtain ⟨hFree, hHead⟩ := hFirst
    have hAwake := h.awake hFree
    obtain ⟨hLine, hArrived, hLocked⟩ := @settle_enter cost run
      { run.bucket with waiters := run.bucket.waiters.tail } ticket nowNs
    refine h.of_line ?_ hArrived hLocked
    rw [hLine, List.cons_head?_tail hHead, line, hAwake]
    simp
  next => exact h

theorem Orderly.wake (h : run.Orderly) (nowNs : ℤ) : (run.step cost (.wake nowNs)).Orderly := by
  cases hSleeper : run.sleeper with
  | none =>
    rw [BucketRun.step, hSleeper]
    exact h
  | some sleep =>
    rw [BucketRun.step, hSleeper]
    refine h.of_line ?_ rfl rfl
    simp [line, grant, hSleeper, TokenBucket.resumeAsleep, TokenBucket.withdraw, TokenBucket.refill]

theorem Orderly.step (h : run.Orderly) (event : BucketEvent) : (run.step cost event).Orderly := by
  cases event with
  | arrive nowNs => exact h.arrive nowNs
  | proceed ticket nowNs => exact h.proceed ticket nowNs
  | wake nowNs => exact h.wake nowNs
  | cancelQueued ticket =>
    refine h.of_line ?_ rfl h.locked
    exact (List.Sublist.refl _).append (List.erase_sublist)
  | cancelAsleep =>
    refine h.of_line ?_ rfl rfl
    simp only [BucketRun.step, line, TokenBucket.abandonAsleep, Option.toList_none, List.map_nil,
      List.append_nil]
    exact (List.sublist_append_left _ _).append (List.Sublist.refl _)

end Order

section Budget

theorem started_solvent (hRate : 0 < ratePerSecond) (hCapacity : 0 ≤ capacity) (nowNs : ℤ) :
    (started ratePerSecond capacity nowNs).Solvent cost ratePerSecond capacity where
  sameRate := rfl
  sameCapacity := rfl
  level := hCapacity
  metered := Metered.start (div_nonneg hRate.le (by norm_num)) hCapacity nowNs
  covered := List.forall_mem_nil _
  sleeping sleep hSleep := by cases hSleep

namespace Solvent

section

variable (h : run.Solvent cost ratePerSecond capacity) (hRate : 0 < ratePerSecond)
  (hClock : run.OnClock nowNs)

include h hRate hClock

theorem refill_level :
    0 ≤ (run.bucket.refill nowNs).tokens := by
  have hSpan : (0 : ℚ) ≤ nowNs - run.bucket.refilledAtNs := sub_nonneg.mpr (Int.cast_le.mpr hClock)
  have hAdded : 0 ≤ (nowNs - run.bucket.refilledAtNs : ℚ) / 1000000000 * ratePerSecond :=
    mul_nonneg (div_nonneg hSpan (by norm_num)) hRate.le
  have hCapacity : 0 ≤ run.bucket.capacity := h.level.trans (h.sameCapacity ▸ h.metered.below)
  have hLevel := h.level
  refine le_min hCapacity ?_
  rw [h.sameRate]
  linarith

theorem refill_metered :
    Metered Grant.atNs Grant.cost capacity (ratePerSecond / 1000000000) run.grants
      (run.bucket.refill nowNs).tokens nowNs := by
  have hTokens : (run.bucket.refill nowNs).tokens ≤ run.bucket.tokens +
      (nowNs - run.bucket.refilledAtNs) / 1000000000 * run.bucket.ratePerSecond := min_le_right _ _
  rw [h.sameRate] at hTokens
  refine h.metered.wait (div_nonneg hRate.le (by norm_num)) hClock ?_ ?_
  · exact h.sameCapacity ▸ min_le_left _ _
  · linarith

/-- What covers a cost pays for it: the clamp at zero is the difference itself. -/
theorem grant (hCost : 0 ≤ cost ticket) (hCovered : cost ticket ≤ (run.bucket.refill nowNs).tokens)
    {bucket : TokenBucket} (hRatePerSecond : bucket.ratePerSecond = run.bucket.ratePerSecond)
    (hCapacity : bucket.capacity = run.bucket.capacity) (hNow : bucket.refilledAtNs = nowNs)
    (hTokens : bucket.tokens = max 0 ((run.bucket.refill nowNs).tokens - cost ticket)) :
    (run.grant cost bucket ticket nowNs).Solvent cost ratePerSecond capacity := by
  have hLeft : 0 ≤ (run.bucket.refill nowNs).tokens - cost ticket := sub_nonneg.mpr hCovered
  rw [max_eq_right hLeft] at hTokens
  have hMetered := (h.refill_metered hRate hClock).take (div_nonneg hRate.le (by norm_num))
    (x := ⟨ticket, cost ticket, nowNs, (run.bucket.refill nowNs).tokens⟩) rfl hCost hCovered
  refine ⟨hRatePerSecond.trans h.sameRate, hCapacity.trans h.sameCapacity, hTokens ▸ hLeft, ?_, ?_, ?_⟩
  · simp only [BucketRun.grant, hTokens, hNow]
    exact hMetered
  · intro given hGiven
    obtain hOld | hNew := List.mem_append.mp hGiven
    · exact h.covered given hOld
    · rw [List.mem_singleton.mp hNew]
      exact ⟨rfl, hCovered⟩
  · intro sleep hSleep
    cases hSleep

theorem settle_enter {bucket : TokenBucket} {waiters : List ℕ}
    (hBucket : bucket = { run.bucket with waiters := waiters }) (hCost : 0 ≤ cost ticket) :
    (run.settle cost ticket nowNs (bucket.enter (cost ticket) nowNs)).Solvent cost ratePerSecond
      capacity := by
  subst hBucket
  obtain ⟨hCovered, hEnter⟩ | ⟨hShort, hEnter⟩ :=
    enter_cases { run.bucket with waiters := waiters } (cost ticket) nowNs
  · rw [hEnter]
    exact h.grant hRate hClock hCost hCovered rfl rfl rfl rfl
  · rw [hEnter]
    refine ⟨h.sameRate, h.sameCapacity, h.refill_level hRate hClock, h.refill_metered hRate hClock,
      h.covered, ?_⟩
    rintro sleep ⟨⟩
    refine ⟨hShort, ?_⟩
    rw [← h.sameRate]
    rfl

end

/-- A sleep of the length asked brings what was missing. -/
theorem awake_covered (h : run.Solvent cost ratePerSecond capacity) (hRate : 0 < ratePerSecond)
    {sleep : Sleep} (hSleeper : run.sleeper = some sleep) (hCost : cost sleep.ticket ≤ capacity)
    (hAsked : sleep.waitedSeconds ≤ (nowNs - run.bucket.refilledAtNs) / 1000000000) :
    cost sleep.ticket ≤ (run.bucket.refill nowNs).tokens := by
  obtain ⟨-, hWaited⟩ := h.sleeping sleep hSleeper
  rw [hWaited, div_le_iff₀ hRate] at hAsked
  refine le_min (hCost.trans h.sameCapacity.ge) ?_
  rw [h.sameRate]
  linarith

theorem step (h : run.Solvent cost ratePerSecond capacity) (hRate : 0 < ratePerSecond)
    (hCost : ∀ ticket, 0 ≤ cost ticket ∧ cost ticket ≤ capacity) {event : BucketEvent}
    (hTimely : run.Timely event) : (run.step cost event).Solvent cost ratePerSecond capacity := by
  cases event with
  | arrive nowNs =>
    have hArrived : { run with arrived := run.arrived + 1 }.Solvent cost ratePerSecond capacity :=
      ⟨h.sameRate, h.sameCapacity, h.level, h.metered, h.covered, h.sleeping⟩
    rw [BucketRun.step, TokenBucket.acquire]
    split
    · exact ⟨h.sameRate, h.sameCapacity, h.level, h.metered, h.covered, h.sleeping⟩
    · exact hArrived.settle_enter hRate hTimely rfl (hCost _).1
  | proceed ticket nowNs =>
    rw [BucketRun.step, TokenBucket.resumeQueued]
    split
    · exact h.settle_enter hRate hTimely rfl (hCost _).1
    · exact h
  | wake nowNs =>
    obtain ⟨hClock, hAsked⟩ := hTimely
    cases hSleeper : run.sleeper with
    | none =>
      rw [BucketRun.step, hSleeper]
      exact h
    | some sleep =>
      rw [BucketRun.step, hSleeper]
      have hCovered := h.awake_covered hRate hSleeper (hCost _).2 (hAsked sleep hSleeper)
      exact h.grant hRate hClock (hCost _).1 hCovered rfl rfl rfl rfl
  | cancelQueued ticket =>
    exact ⟨h.sameRate, h.sameCapacity, h.level, h.metered, h.covered, h.sleeping⟩
  | cancelAsleep =>
    refine ⟨h.sameRate, h.sameCapacity, h.level, h.metered, h.covered, ?_⟩
    rintro sleep ⟨⟩

theorem waited_le (h : run.Solvent cost ratePerSecond capacity) (hRate : 0 < ratePerSecond)
    {sleep : Sleep} (hSleeper : run.sleeper = some sleep) :
    sleep.waitedSeconds ≤ cost sleep.ticket / ratePerSecond := by
  obtain ⟨-, hWaited⟩ := h.sleeping sleep hSleeper
  rw [hWaited]
  exact div_le_div_of_nonneg_right (sub_le_self _ h.level) hRate.le

end Solvent

end Budget

/-- At no moment of a run has a window been granted more than a full bucket and its refill. -/
theorem granted_within_windows (hRate : 0 < ratePerSecond)
    (hCost : ∀ ticket, 0 ≤ cost ticket ∧ cost ticket ≤ capacity) (startNs : ℤ)
    (events : List BucketEvent)
    (hTimely : Throughout (step cost) Timely (started ratePerSecond capacity startNs) events) :
    Always (step cost)
      (fun run =>
        (∀ fromNs toNs, fromNs ≤ toNs → total Grant.cost (within Grant.atNs fromNs toNs run.grants) ≤
          capacity + ratePerSecond * ((toNs - fromNs) / 1000000000)) ∧
        (∀ given ∈ run.grants,
          given.cost = cost given.ticket ∧ max 0 (given.held - given.cost) = given.held - given.cost) ∧
        (0 ≤ run.bucket.tokens ∧ run.bucket.tokens ≤ capacity) ∧
        run.line.Pairwise (· < ·) ∧
        ∀ sleep ∈ run.sleeper, sleep.waitedSeconds ≤ cost sleep.ticket / ratePerSecond)
      (started ratePerSecond capacity startNs) events := by
  have hCapacity : 0 ≤ capacity := (hCost 0).1.trans (hCost 0).2
  have hBoth : Always (step cost)
      (fun run => run.Solvent cost ratePerSecond capacity ∧ run.Orderly)
      (started ratePerSecond capacity startNs) events := hTimely.always
    (fun run event hTimely h => ⟨h.1.step hRate hCost hTimely, h.2.step event⟩)
    ⟨started_solvent hRate hCapacity startNs, started_orderly ratePerSecond capacity startNs⟩
  intro before after hEvents
  obtain ⟨hSolvent, hOrderly⟩ := hBoth before after hEvents
  refine ⟨?_, ?_, ⟨hSolvent.level, hSolvent.metered.below⟩, hOrderly.sorted, ?_⟩
  · intro fromNs toNs hle
    have hWindow := hSolvent.metered.windows fromNs toNs hle
    rwa [div_mul_eq_mul_div, mul_div_assoc] at hWindow
  · intro given hGiven
    obtain ⟨hAsked, hHeld⟩ := hSolvent.covered given hGiven
    exact ⟨hAsked, max_eq_right (sub_nonneg.mpr hHeld)⟩
  · exact fun sleep hSleeper => hSolvent.waited_le hRate hSleeper

/-- The second call sleeps a second under the lock, and the third waits behind it. -/
theorem granted_within_windows_burst :
    let events := [.arrive 0, .arrive 0, .arrive 5, .wake 1000000000, .proceed 2 1000000000]
    Always (step fun _ => 10)
      (fun run =>
        (∀ fromNs toNs, fromNs ≤ toNs → total Grant.cost (within Grant.atNs fromNs toNs run.grants) ≤
          10 + 10 * ((toNs - fromNs) / 1000000000)) ∧
        (∀ given ∈ run.grants,
          given.cost = 10 ∧ max 0 (given.held - given.cost) = given.held - given.cost) ∧
        (0 ≤ run.bucket.tokens ∧ run.bucket.tokens ≤ 10) ∧
        run.line.Pairwise (· < ·) ∧
        ∀ sleep ∈ run.sleeper, sleep.waitedSeconds ≤ 10 / 10)
      (started 10 10 0) events := by
  refine granted_within_windows (by norm_num) (fun _ => ⟨by norm_num, le_rfl⟩) 0 _ ?_
  refine .cons ?_ <| .cons ?_ <| .cons ?_ <| .cons ?_ <| .cons ?_ throughout_nil
  · decide
  · decide +kernel
  · decide +kernel
  · decide +kernel
  · decide +kernel

example : ([.arrive 0, .arrive 0, .arrive 5, .wake 1000000000, .proceed 2 1000000000].foldl
    (step fun _ => 10) (started 10 10 0)).line = [0, 1, 2] := by decide +kernel

end BucketRun

end KalshiBot.Transport

import KalshiBot.Library.EarliestGrants
import KalshiBot.Transport.BudgetWindows

/-! # No request waits longer than it must

Where a sleep ends when it is over and the lock is handed on at once, the bucket is ahead of
every schedule that serves the same requests in their order and keeps the exchange's budget.
-/

namespace KalshiBot.Transport.BucketRun

open Runs RateBudget RollingWindow

set_option autoImplicit false

/-- The lock is handed on when it is released, a sleep ends in the nanosecond in which what it
asked for is over, and nobody is cancelled. -/
def Prompt (run : BucketRun) : BucketEvent → Prop
  | .arrive nowNs => run.OnClock nowNs
  | .proceed _ nowNs => nowNs = run.bucket.refilledAtNs
  | .wake nowNs => run.OnClock nowNs ∧ ∀ sleep ∈ run.sleeper, ∀ atNs, run.OnClock atNs →
      (sleep.waitedSeconds ≤ (atNs - run.bucket.refilledAtNs) / 1000000000 ↔ nowNs ≤ atNs)
  | .cancelQueued _ | .cancelAsleep => False

/-- The schedule serves no request before it is there. -/
def Serves (schedule : ℕ → ℤ) (run : BucketRun) : BucketEvent → Prop
  | .arrive nowNs => nowNs ≤ schedule run.arrived
  | _ => True

theorem Prompt.timely {run : BucketRun} {event : BucketEvent} (h : run.Prompt event) :
    run.Timely event := by
  cases event with
  | arrive nowNs => exact h
  | proceed ticket nowNs => exact h.symm.le
  | wake nowNs => exact ⟨h.1, fun sleep hSleep => (h.2 sleep hSleep nowNs h.1).mpr le_rfl⟩
  | cancelQueued ticket => exact h.elim
  | cancelAsleep => exact h.elim

/-- What keeps a run ahead of the schedule. -/
structure Ahead (cost : ℕ → ℚ) (schedule : ℕ → ℤ) (ratePerSecond capacity : ℚ) (run : BucketRun) :
    Prop where
  tickets : run.line = List.range run.arrived
  kept : ∀ given ∈ run.grants, given.atNs ≤ schedule given.ticket
  paced : Paced cost schedule capacity (ratePerSecond / 1000000000) run.grants.length
    run.bucket.tokens run.bucket.refilledAtNs
  waiting : ∀ ticket, run.grants.length ≤ ticket → ticket < run.arrived →
    run.bucket.refilledAtNs ≤ schedule ticket

variable {cost : ℕ → ℚ} {schedule : ℕ → ℤ} {ratePerSecond capacity : ℚ} {run : BucketRun}
  {ticket : ℕ} {nowNs : ℤ}

theorem started_ahead (startNs : ℤ) :
    (started ratePerSecond capacity startNs).Ahead cost schedule ratePerSecond capacity where
  tickets := rfl
  kept := List.forall_mem_nil _
  paced := Paced.start startNs
  waiting _ _ h := absurd h (Nat.not_lt_zero _)

/-- The refill of a bucket is the budget's wait. -/
theorem Solvent.refill_tokens (h : run.Solvent cost ratePerSecond capacity) (nowNs : ℤ) :
    (run.bucket.refill nowNs).tokens = min capacity
      (run.bucket.tokens + ratePerSecond / 1000000000 * (nowNs - run.bucket.refilledAtNs)) := by
  have hAdded : (nowNs - run.bucket.refilledAtNs : ℚ) / 1000000000 * ratePerSecond =
      ratePerSecond / 1000000000 * (nowNs - run.bucket.refilledAtNs) := by ring
  rw [← hAdded, ← h.sameCapacity, ← h.sameRate]
  rfl

namespace Ahead

/-- The tickets that still wait follow those that were granted. -/
theorem next (h : run.Ahead cost schedule ratePerSecond capacity) {rest : List ℕ}
    (hLine : run.line = run.grants.map Grant.ticket ++ ticket :: rest) :
    ticket = run.grants.length ∧ ticket < run.arrived := by
  have hRange := h.tickets.symm.trans hLine
  rw [List.range_eq_range'] at hRange
  have hTicket := List.eq_of_range'_eq_append_cons hRange
  have hMem : ticket ∈ run.line := hLine ▸ List.mem_append_right _ List.mem_cons_self
  rw [h.tickets] at hMem
  refine ⟨?_, List.mem_range.mp hMem⟩
  rw [hTicket, List.length_map, one_mul, zero_add]

/-- A grant that is in time leaves those behind it in time. -/
theorem grant (h : run.Ahead cost schedule ratePerSecond capacity)
    (hSolvent : run.Solvent cost ratePerSecond capacity) (hOrdered : Monotone schedule)
    {bucket : TokenBucket} {arrived : ℕ} (hTicket : ticket = run.grants.length) (hClock : run.OnClock nowNs)
    (hNow : nowNs ≤ schedule ticket) (hCovered : cost ticket ≤ (run.bucket.refill nowNs).tokens)
    (hRefilled : bucket.refilledAtNs = nowNs)
    (hTokens : bucket.tokens = max 0 ((run.bucket.refill nowNs).tokens - cost ticket))
    (hLine : ({ run with arrived }.grant cost bucket ticket nowNs).line = List.range arrived) :
    ({ run with arrived }.grant cost bucket ticket nowNs).Ahead cost schedule ratePerSecond
      capacity := by
  rw [max_eq_right (sub_nonneg.mpr hCovered)] at hTokens
  have hPaced := h.paced.wait hClock
  rw [← hSolvent.refill_tokens] at hPaced
  have hTaken := hPaced.take (hTicket ▸ hNow)
  have hCount : ({ run with arrived }.grant cost bucket ticket nowNs).grants.length =
      run.grants.length + 1 := by
    rw [BucketRun.grant, List.length_append]
    rfl
  refine ⟨hLine, ?_, ?_, ?_⟩
  · intro given hGiven
    obtain hOld | hNew := List.mem_append.mp hGiven
    · exact h.kept given hOld
    · rw [List.mem_singleton.mp hNew]
      exact hNow
  · rw [hCount]
    simp only [BucketRun.grant, hTokens, hRefilled]
    rwa [hTicket]
  · intro other hOther _
    have hAfter : ticket ≤ other := by omega
    simp only [BucketRun.grant, hRefilled]
    exact hNow.trans (hOrdered hAfter)

/-- Who enters in time is granted in time, or sleeps from a moment at which it was not late. -/
theorem settle_enter (h : run.Ahead cost schedule ratePerSecond capacity)
    (hSolvent : run.Solvent cost ratePerSecond capacity) (hOrdered : Monotone schedule)
    {waiters : List ℕ} {arrived : ℕ} (hTicket : ticket = run.grants.length)
    (hLine : run.grants.map Grant.ticket ++ ticket :: waiters = List.range arrived)
    (hClock : run.OnClock nowNs) (hNow : nowNs ≤ schedule ticket) :
    ({ run with arrived }.settle cost ticket nowNs
      ({ run.bucket with waiters }.enter (cost ticket) nowNs)).Ahead cost schedule ratePerSecond
        capacity := by
  have hTickets := (@BucketRun.settle_enter cost { run with arrived } { run.bucket with waiters }
    ticket nowNs).1.trans hLine
  obtain ⟨hCovered, hEnter⟩ | ⟨-, hEnter⟩ :=
    enter_cases { run.bucket with waiters } (cost ticket) nowNs
  · rw [hEnter] at hTickets ⊢
    exact h.grant hSolvent hOrdered hTicket hClock hNow hCovered rfl rfl hTickets
  · have hPaced := h.paced.wait hClock
    rw [← hSolvent.refill_tokens] at hPaced
    rw [hEnter] at hTickets ⊢
    refine ⟨hTickets, h.kept, hPaced, fun other hOther _ => ?_⟩
    exact hNow.trans (hOrdered (hTicket ▸ hOther))

theorem arrive (h : run.Ahead cost schedule ratePerSecond capacity)
    (hSolvent : run.Solvent cost ratePerSecond capacity) (hOrderly : run.Orderly)
    (hOrdered : Monotone schedule) (hClock : run.OnClock nowNs)
    (hServes : nowNs ≤ schedule run.arrived) :
    (run.step cost (.arrive nowNs)).Ahead cost schedule ratePerSecond capacity := by
  have hLine : run.line ++ [run.arrived] = List.range (run.arrived + 1) := by
    rw [h.tickets, List.range_succ]
  by_cases hBusy : run.bucket.locked ∨ run.bucket.waiters ≠ []
  · have hStep : run.step cost (.arrive nowNs) = { run with
        arrived := run.arrived + 1
        bucket := { run.bucket with waiters := run.bucket.waiters ++ [run.arrived] } } := by
      simp only [BucketRun.step, TokenBucket.acquire, if_pos hBusy, settle]
    rw [hStep]
    refine ⟨?_, h.kept, h.paced, fun ticket hFrom hTicket => ?_⟩
    · rw [← hLine, line, line]
      exact (List.append_assoc _ _ _).symm
    · obtain hOld | rfl := Nat.lt_succ_iff_lt_or_eq.mp hTicket
      · exact h.waiting ticket hFrom hOld
      · exact hClock.trans hServes
  · obtain ⟨hFree, hEmpty⟩ := not_or.mp hBusy
    have hAlone : run.line = run.grants.map Grant.ticket := by
      rw [line, hOrderly.awake hFree, not_not.mp hEmpty]
      simp
    have hTicket : run.arrived = run.grants.length := by
      have hLength := congrArg List.length (h.tickets.symm.trans hAlone)
      rwa [List.length_range, List.length_map] at hLength
    have hStep : run.step cost (.arrive nowNs) =
        { run with arrived := run.arrived + 1 }.settle cost run.arrived nowNs
          ({ run.bucket with waiters := [] }.enter (cost run.arrived) nowNs) := by
      rw [BucketRun.step, TokenBucket.acquire, if_neg hBusy, ← not_not.mp hEmpty]
    rw [hStep]
    exact h.settle_enter hSolvent hOrdered hTicket (hAlone ▸ hLine) hClock hServes

theorem proceed (h : run.Ahead cost schedule ratePerSecond capacity)
    (hSolvent : run.Solvent cost ratePerSecond capacity) (hOrderly : run.Orderly)
    (hOrdered : Monotone schedule) (hNow : nowNs = run.bucket.refilledAtNs) :
    (run.step cost (.proceed ticket nowNs)).Ahead cost schedule ratePerSecond capacity := by
  rw [BucketRun.step, TokenBucket.resumeQueued]
  split
  next hFirst =>
    obtain ⟨hFree, hHead⟩ := hFirst
    have hLine : run.line = run.grants.map Grant.ticket ++ ticket :: run.bucket.waiters.tail := by
      rw [line, hOrderly.awake hFree, List.cons_head?_tail hHead]
      simp
    obtain ⟨hTicket, hArrived⟩ := h.next hLine
    refine h.settle_enter hSolvent hOrdered hTicket (hLine.symm.trans h.tickets) hNow.ge ?_
    exact hNow ▸ h.waiting ticket hTicket.ge hArrived
  next => exact h

/-- The sleep is over before the schedule's time for the sleeper has passed. -/
theorem wake (h : run.Ahead cost schedule ratePerSecond capacity)
    (hSolvent : run.Solvent cost ratePerSecond capacity) (hRate : 0 < ratePerSecond)
    (hCost : ∀ ticket, 0 ≤ cost ticket ∧ cost ticket ≤ capacity)
    (hKeeps : KeepsBudget cost schedule capacity (ratePerSecond / 1000000000))
    (hPrompt : run.Prompt (.wake nowNs)) :
    (run.step cost (.wake nowNs)).Ahead cost schedule ratePerSecond capacity := by
  obtain ⟨hClock, hEnds⟩ := hPrompt
  cases hSleeper : run.sleeper with
  | none =>
    rw [BucketRun.step, hSleeper]
    exact h
  | some sleep =>
    have hLine : run.line =
        run.grants.map Grant.ticket ++ sleep.ticket :: run.bucket.waiters := by
      rw [line, hSleeper]
      simp
    obtain ⟨hTicket, hArrived⟩ := h.next hLine
    have hWaiting := h.waiting sleep.ticket hTicket.ge hArrived
    have hNow : nowNs ≤ schedule sleep.ticket := by
      refine (hEnds sleep hSleeper _ hWaiting).mp ?_
      obtain ⟨-, hWaited⟩ := hSolvent.sleeping sleep hSleeper
      have hDue := h.paced.due hKeeps (fun ticket => (hCost ticket).1) (hTicket ▸ hWaiting)
      rw [← hTicket] at hDue
      rw [hWaited, div_le_iff₀ hRate]
      linarith
    have hCovered := hSolvent.awake_covered hRate hSleeper (hCost _).2
      ((hEnds sleep hSleeper nowNs hClock).mpr le_rfl)
    rw [BucketRun.step, hSleeper]
    refine h.grant hSolvent hKeeps.ordered hTicket hClock hNow hCovered rfl rfl ?_
    rw [← h.tickets, hLine]
    simp [line, BucketRun.grant, TokenBucket.resumeAsleep, TokenBucket.withdraw, TokenBucket.refill]

end Ahead

/-- A limiter that grants in the order of arrival and keeps the budget in every window grants
nothing before the bucket does. -/
theorem granted_no_later (hRate : 0 < ratePerSecond)
    (hCost : ∀ ticket, 0 ≤ cost ticket ∧ cost ticket ≤ capacity) (startNs : ℤ)
    {events : List BucketEvent}
    (hPrompt : Throughout (step cost) Prompt (started ratePerSecond capacity startNs) events)
    (hServes : Throughout (step cost) (Serves schedule) (started ratePerSecond capacity startNs)
      events)
    (hKeeps : KeepsBudget cost schedule capacity (ratePerSecond / 1000000000)) :
    ∀ given ∈ (events.foldl (step cost) (started ratePerSecond capacity startNs)).grants,
      given.atNs ≤ schedule given.ticket := by
  have hCapacity : 0 ≤ capacity := (hCost 0).1.trans (hCost 0).2
  have hBoth : Throughout (step cost) (fun run event => run.Prompt event ∧ Serves schedule run event)
      (started ratePerSecond capacity startNs) events := fun before event after hEvents =>
    ⟨hPrompt before event after hEvents, hServes before event after hEvents⟩
  have hStep : ∀ (run : BucketRun) (event : BucketEvent),
      run.Prompt event ∧ Serves schedule run event →
      run.Ahead cost schedule ratePerSecond capacity ∧
        run.Solvent cost ratePerSecond capacity ∧ run.Orderly →
      (run.step cost event).Ahead cost schedule ratePerSecond capacity ∧
        (run.step cost event).Solvent cost ratePerSecond capacity ∧ (run.step cost event).Orderly := by
    rintro run event ⟨hPrompt, hServes⟩ ⟨hAhead, hSolvent, hOrderly⟩
    refine ⟨?_, hSolvent.step hRate hCost hPrompt.timely, hOrderly.step event⟩
    cases event with
    | arrive nowNs => exact hAhead.arrive hSolvent hOrderly hKeeps.ordered hPrompt hServes
    | proceed ticket nowNs => exact hAhead.proceed hSolvent hOrderly hKeeps.ordered hPrompt
    | wake nowNs => exact hAhead.wake hSolvent hRate hCost hKeeps hPrompt
    | cancelQueued ticket => exact hPrompt.elim
    | cancelAsleep => exact hPrompt.elim
  have hRun := hBoth.invariant hStep ⟨started_ahead startNs, started_solvent hRate hCapacity startNs,
    started_orderly ratePerSecond capacity startNs⟩
  exact hRun.1.kept

/-- One request a second, of the bucket's whole capacity. -/
theorem steady_metered (count : ℕ) :
    Metered (fun ticket : ℕ => (1000000000 * ticket : ℤ)) (fun _ => (10 : ℚ)) 10 (10 / 1000000000)
      (List.range (count + 1)) 0 (1000000000 * count) := by
  have hRate : (0 : ℚ) ≤ 10 / 1000000000 := by norm_num
  induction count with
  | zero =>
    have hFull : Metered (fun ticket : ℕ => (1000000000 * ticket : ℤ)) (fun _ => (10 : ℚ)) 10
        (10 / 1000000000) [] 10 0 := .start hRate (by norm_num) 0
    have hTaken := hFull.take (x := 0) hRate rfl (by norm_num) le_rfl
    rwa [sub_self] at hTaken
  | succ count ih =>
    have hLater : (1000000000 * count : ℤ) ≤ 1000000000 * (count + 1 : ℕ) := by
      push_cast
      omega
    have hAdded : (10 : ℚ) ≤ 0 + 10 / 1000000000 *
        (((1000000000 * (count + 1 : ℕ) : ℤ) : ℚ) - ((1000000000 * count : ℤ) : ℚ)) := by
      push_cast
      linarith
    have hWaited := ih.wait hRate hLater le_rfl hAdded
    have hTaken := hWaited.take (x := count + 1) hRate rfl (by norm_num) le_rfl
    rw [sub_self] at hTaken
    rwa [List.range_succ]

/-- The second call waits its second, and no limiter could let it go sooner. -/
theorem granted_no_later_steady :
    (([.arrive 0, .arrive 0, .wake 1000000000].foldl (step fun _ => 10)
      (started 10 10 0)).grants.map Grant.ticket = [0, 1]) ∧
    ∀ given ∈ ([.arrive 0, .arrive 0, .wake 1000000000].foldl (step fun _ => 10)
      (started 10 10 0)).grants, given.atNs ≤ 1000000000 * given.ticket := by
  refine ⟨by decide +kernel, ?_⟩
  have hRefilled : ((started 10 10 0).step (fun _ => 10) (.arrive 0)).bucket.refilledAtNs = 0 := by
    decide +kernel
  have hRefilled' : (((started 10 10 0).step (fun _ => 10) (.arrive 0)).step (fun _ => 10)
      (.arrive 0)).bucket.refilledAtNs = 0 := by decide +kernel
  have hSleeper : (((started 10 10 0).step (fun _ => 10) (.arrive 0)).step (fun _ => 10)
      (.arrive 0)).sleeper.map Sleep.waitedSeconds = some 1 := by decide +kernel
  have hArrived : ((started 10 10 0).step (fun _ => 10) (.arrive 0)).arrived = 1 := by
    decide +kernel
  have hPrompt : Throughout (step fun _ => 10) Prompt (started 10 10 0)
      [.arrive 0, .arrive 0, .wake 1000000000] := by
    refine .cons ?_ <| .cons ?_ <| .cons ⟨?_, fun sleep hSleep atNs _ => ?_⟩ throughout_nil
    · exact le_rfl
    · exact hRefilled.le
    · exact hRefilled'.le.trans (by decide)
    · have hWaited : sleep.waitedSeconds = 1 :=
        Option.some.inj ((congrArg (Option.map Sleep.waitedSeconds) hSleep).symm.trans hSleeper)
      rw [hWaited, hRefilled', le_div_iff₀ (by norm_num), Int.cast_zero, sub_zero, one_mul]
      exact_mod_cast Iff.rfl
  have hServes : Throughout (step fun _ => 10) (Serves fun ticket => 1000000000 * ticket)
      (started 10 10 0) [.arrive 0, .arrive 0, .wake 1000000000] := by
    refine .cons ?_ <| .cons ?_ <| .cons trivial throughout_nil
    · exact le_rfl
    · rw [Serves, hArrived]
      decide
  have hKeeps : KeepsBudget (fun _ => (10 : ℚ)) (fun ticket => 1000000000 * ticket) 10
      (10 / 1000000000) := by
    constructor
    · intro first later hLater
      have hCast : (first : ℤ) ≤ later := Int.ofNat_le.mpr hLater
      exact mul_le_mul_of_nonneg_left hCast (by norm_num)
    · intro count
      cases count with
      | zero => exact (Metered.start (by norm_num) (by norm_num) 0).windows
      | succ count => exact (steady_metered count).windows
  exact granted_no_later (by norm_num) (fun _ => ⟨by norm_num, le_rfl⟩) 0 hPrompt hServes hKeeps

end KalshiBot.Transport.BucketRun

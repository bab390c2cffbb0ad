import KalshiBot.Library.Backoff
import Mathlib.Data.NNRat.Defs
import Mathlib.Algebra.Order.Field.Rat
import Mathlib.Tactic.NormNum

/-! # The reconnect loop of the poller

`_run` asks for a connection again and again. A refused one is followed by a sleep that the
backoff and a random jitter set, and doubles the backoff; a connection that was made sets the
backoff back, and the loop asks again as soon as it is lost.
-/

namespace KalshiBot.Ipc

open Backoff

set_option autoImplicit false

def initialBackoff : ℚ := 1
def maxBackoff : ℚ := 30

/-- What `random.random()` returns. -/
abbrev Jitter : Type := {r : ℚ // 0 ≤ r ∧ r < 1}

/-- What becomes of a call of `open_unix_connection`: an `OSError`, with the jitter drawn for the
sleep and what the refusal and the wake-up take on top of it, or a connection and how long it
is held. -/
inductive Outcome where
  | refused (jitter : Jitter) (late : ℚ≥0)
  | connected (held : ℚ≥0)

structure Attempt where
  asked : ℚ
  outcome : Outcome

def Attempt.isRefused (attempt : Attempt) : Bool :=
  match attempt.outcome with
  | .refused _ _ => true
  | .connected _ => false

def Attempt.isConnected (attempt : Attempt) : Bool :=
  !attempt.isRefused

/-- It is a connection that is up at `moment`, or one made later. -/
def Attempt.lasts (attempt : Attempt) (moment : ℚ) : Prop :=
  ∃ held : ℚ≥0, attempt.outcome = .connected held ∧ moment ≤ attempt.asked + held

/-- The variables of `_run` at the head of its loop, and the clock. -/
structure ReconnectLoop where
  backoff : ℚ
  now : ℚ

namespace ReconnectLoop

def start (now : ℚ) : ReconnectLoop :=
  { backoff := initialBackoff, now := now }

def turn (s : ReconnectLoop) : Outcome → ReconnectLoop
  | .refused jitter late =>
    { backoff := min (s.backoff * 2) maxBackoff
      now := s.now + s.backoff * (1 / 2 + jitter) + late }
  | .connected held => { backoff := initialBackoff, now := s.now + held }

def run (s : ReconnectLoop) (outcomes : List Outcome) : ReconnectLoop :=
  outcomes.foldl turn s

/-- The attempts that the turns make, with their times. -/
def attempts (s : ReconnectLoop) : List Outcome → List Attempt
  | [] => []
  | outcome :: outcomes => ⟨s.now, outcome⟩ :: (s.turn outcome).attempts outcomes

/-- The loop after `failures` refusals in a row. -/
def After (s : ReconnectLoop) (failures : ℕ) : Prop :=
  s.backoff = delay initialBackoff maxBackoff failures

theorem start_after (now : ℚ) : (start now).After 0 := by
  have hOrder : initialBackoff ≤ maxBackoff := by norm_num [initialBackoff, maxBackoff]
  exact (delay_zero hOrder).symm

variable {s : ReconnectLoop} {failures : ℕ}

theorem After.refused (h : s.After failures) (jitter : Jitter) (late : ℚ≥0) :
    (s.turn (.refused jitter late)).After (failures + 1) := by
  have hCeiling : 0 ≤ maxBackoff := by norm_num [maxBackoff]
  have hNext : min (delay initialBackoff maxBackoff failures * 2) maxBackoff =
      delay initialBackoff maxBackoff (failures + 1) := delay_succ hCeiling failures
  rw [← h] at hNext
  exact hNext

theorem After.connected (s : ReconnectLoop) (held : ℚ≥0) : (s.turn (.connected held)).After 0 :=
  start_after _

theorem exists_after_run (h : s.After failures) (outcomes : List Outcome) :
    ∃ later, (s.run outcomes).After later := by
  induction outcomes generalizing s failures with
  | nil => exact ⟨failures, h⟩
  | cons outcome outcomes ih =>
    cases outcome with
    | refused jitter late => exact ih (h.refused jitter late)
    | connected held => exact ih (After.connected s held)

/-- A refusal is answered by a sleep between half and one and a half times the backoff. -/
theorem After.sleep (h : s.After failures) (jitter : Jitter) (late : ℚ≥0) :
    s.now + delay initialBackoff maxBackoff failures / 2 ≤ (s.turn (.refused jitter late)).now ∧
      (s.turn (.refused jitter late)).now <
        s.now + delay initialBackoff maxBackoff failures * (3 / 2) + late := by
  obtain ⟨r, hLow, hHigh⟩ := jitter
  have hPos : 0 < delay initialBackoff maxBackoff failures :=
    delay_pos (by norm_num [initialBackoff]) (by norm_num [maxBackoff]) failures
  have hBackoff : s.backoff = delay initialBackoff maxBackoff failures := h
  have hLate : (0 : ℚ) ≤ late := late.2
  have hLeast := mul_nonneg hPos.le hLow
  have hMost := mul_lt_mul_of_pos_left hHigh hPos
  simp only [turn, hBackoff]
  constructor <;> linarith

theorem now_le_turn (h : s.After failures) (outcome : Outcome) : s.now ≤ (s.turn outcome).now := by
  cases outcome with
  | refused jitter late =>
    have hPos : 0 < delay initialBackoff maxBackoff failures :=
      delay_pos (by norm_num [initialBackoff]) (by norm_num [maxBackoff]) failures
    linarith [(h.sleep jitter late).1]
  | connected held => exact le_add_of_nonneg_right held.2

theorem exists_after_turn (h : s.After failures) (outcome : Outcome) :
    ∃ later, (s.turn outcome).After later :=
  exists_after_run h [outcome]

theorem now_le_asked (h : s.After failures) (outcomes : List Outcome) :
    ∀ attempt ∈ s.attempts outcomes, s.now ≤ attempt.asked := by
  induction outcomes generalizing s failures with
  | nil => exact List.forall_mem_nil _
  | cons outcome outcomes ih =>
    obtain ⟨later, hLater⟩ := exists_after_turn h outcome
    refine List.forall_mem_cons.mpr ⟨le_rfl, fun attempt hAttempt => ?_⟩
    exact (now_le_turn h outcome).trans (ih hLater attempt hAttempt)

/-- What a row of refusals still saves against the ceiling: five doublings reach it. -/
def saved (failures : ℕ) : ℚ :=
  shortfall initialBackoff maxBackoff 5 failures

theorem saved_zero : saved 0 = 119 := by decide +kernel

theorem delay_add_saved (failures : ℕ) :
    delay initialBackoff maxBackoff failures + saved failures = 30 + saved (failures + 1) := by
  have hInitial : 0 ≤ initialBackoff := by norm_num [initialBackoff]
  have hSteps : delay initialBackoff maxBackoff 5 = maxBackoff := by decide +kernel
  exact delay_add_shortfall hInitial hSteps failures

theorem saved_nonneg (failures : ℕ) : 0 ≤ saved failures := shortfall_nonneg failures

theorem saved_le (failures : ℕ) : saved failures ≤ 119 :=
  (shortfall_le_zero failures).trans_eq saved_zero

def askedBy (last : ℚ) (attempts : List Attempt) : List Attempt :=
  attempts.filter fun attempt => attempt.asked ≤ last

theorem askedBy_of_late (h : s.After failures) {last : ℚ} (hLate : last < s.now)
    (outcomes : List Outcome) : askedBy last (s.attempts outcomes) = [] := by
  refine List.filter_eq_nil_iff.mpr fun attempt hAttempt hAsked => ?_
  exact absurd (of_decide_eq_true hAsked)
    (not_le.mpr (hLate.trans_le (now_le_asked h outcomes attempt hAttempt)))

/-- A refusal is paid for by the time until the next attempt, out of what its row still saves, or
by the connection before the row. -/
theorem refusals_by (h : s.After failures) {last : ℚ} (hNow : s.now ≤ last)
    (outcomes : List Outcome) :
    30 * ((askedBy last (s.attempts outcomes)).countP Attempt.isRefused : ℚ) ≤
      2 * (last - s.now) + 30 + saved failures +
        119 * ((askedBy last (s.attempts outcomes)).countP Attempt.isConnected : ℚ) := by
  induction outcomes generalizing s failures with
  | nil =>
    have hSaved := saved_nonneg failures
    simp only [attempts, askedBy, List.filter_nil, List.countP_nil, Nat.cast_zero, mul_zero,
      add_zero]
    linarith
  | cons outcome outcomes ih =>
    cases outcome with
    | refused jitter late =>
      have hNext := h.refused jitter late
      have hSleep := (h.sleep jitter late).1
      have hSaved := saved_nonneg failures
      have hPaid := delay_add_saved failures
      have hAsked : askedBy last (s.attempts (.refused jitter late :: outcomes)) =
          ⟨s.now, .refused jitter late⟩ ::
            askedBy last ((s.turn (.refused jitter late)).attempts outcomes) :=
        List.filter_cons_of_pos (decide_eq_true hNow)
      rw [hAsked, List.countP_cons_of_pos rfl, List.countP_cons_of_neg (by rintro ⟨⟩)]
      push_cast
      obtain hLater | hLate := le_or_gt (s.turn (.refused jitter late)).now last
      · have hRest := ih hNext hLater
        linarith
      · rw [askedBy_of_late hNext hLate]
        simp only [List.countP_nil, Nat.cast_zero, mul_zero, add_zero, zero_add, mul_one]
        linarith
    | connected held =>
      have hNext := After.connected s held
      have hLost := now_le_turn h (.connected held)
      have hSaved := saved_nonneg failures
      have hAsked : askedBy last (s.attempts (.connected held :: outcomes)) =
          ⟨s.now, .connected held⟩ ::
            askedBy last ((s.turn (.connected held)).attempts outcomes) :=
        List.filter_cons_of_pos (decide_eq_true hNow)
      rw [hAsked, List.countP_cons_of_neg (by rintro ⟨⟩), List.countP_cons_of_pos rfl]
      push_cast
      obtain hLater | hLate := le_or_gt (s.turn (.connected held)).now last
      · have hRest := ih hNext hLater
        rw [saved_zero] at hRest
        linarith
      · rw [askedBy_of_late hNext hLate]
        simp only [List.countP_nil, Nat.cast_zero, mul_zero, zero_add, mul_one]
        linarith

/-- The attempts asked from one moment to another, both included. -/
def askedWithin (first last : ℚ) (attempts : List Attempt) : List Attempt :=
  attempts.filter fun attempt => first ≤ attempt.asked && attempt.asked ≤ last

theorem askedWithin_of_from (h : s.After failures) {first : ℚ} (hFirst : first ≤ s.now) (last : ℚ)
    (outcomes : List Outcome) :
    askedWithin first last (s.attempts outcomes) = askedBy last (s.attempts outcomes) := by
  refine List.filter_congr fun attempt hAttempt => ?_
  have hAsked : first ≤ attempt.asked := hFirst.trans (now_le_asked h outcomes attempt hAttempt)
  rw [decide_eq_true hAsked, Bool.true_and]

theorem refusals_from (h : s.After failures) (outcomes : List Outcome) {first last : ℚ}
    (hOrder : first ≤ last) :
    15 * ((askedWithin first last (s.attempts outcomes)).countP Attempt.isRefused : ℚ) ≤
      last - first + 149 / 2 + 119 / 2 *
        ((askedWithin first last (s.attempts outcomes)).countP Attempt.isConnected : ℚ) := by
  induction outcomes generalizing s failures with
  | nil =>
    simp only [attempts, askedWithin, List.filter_nil, List.countP_nil, Nat.cast_zero, mul_zero,
      add_zero]
    linarith
  | cons outcome outcomes ih =>
    obtain hBefore | hFrom := lt_or_ge s.now first
    · obtain ⟨later, hLater⟩ := exists_after_turn h outcome
      have hSkipped : askedWithin first last (s.attempts (outcome :: outcomes)) =
          askedWithin first last ((s.turn outcome).attempts outcomes) := by
        refine List.filter_cons_of_neg fun hAsked => ?_
        rw [Bool.and_eq_true, decide_eq_true_eq] at hAsked
        exact absurd hAsked.1 (not_le.mpr hBefore)
      rw [hSkipped]
      exact ih hLater
    · rw [askedWithin_of_from h hFrom]
      obtain hBy | hLate := le_or_gt s.now last
      · have hRefusals := refusals_by h hBy (outcome :: outcomes)
        have hSaved := saved_le failures
        linarith
      · rw [askedBy_of_late h hLate]
        simp only [List.countP_nil, Nat.cast_zero, mul_zero, add_zero]
        linarith

/-- In any stretch of a run the poller is refused no more often than once in fifteen seconds, but
for five refusals at the beginning and four after each connection. -/
theorem refusals_within (now : ℚ) (outcomes : List Outcome) (first last : ℚ)
    (hOrder : first ≤ last) :
    15 * ((askedWithin first last ((start now).attempts outcomes)).countP Attempt.isRefused : ℚ) ≤
      last - first + 149 / 2 + 119 / 2 *
        ((askedWithin first last ((start now).attempts outcomes)).countP
          Attempt.isConnected : ℚ) :=
  refusals_from (start_after now) outcomes hOrder

theorem refusals_within_minute :
    15 * ((askedWithin 0 60 ((start 0).attempts [.refused ⟨0, Rat.le_refl, rfl⟩ 0, .connected 5,
        .refused ⟨0, Rat.le_refl, rfl⟩ 0])).countP Attempt.isRefused : ℚ) ≤
      60 - 0 + 149 / 2 + 119 / 2 *
        ((askedWithin 0 60 ((start 0).attempts [.refused ⟨0, Rat.le_refl, rfl⟩ 0, .connected 5,
          .refused ⟨0, Rat.le_refl, rfl⟩ 0])).countP Attempt.isConnected : ℚ) :=
  refusals_within 0 _ 0 60 (by norm_num)

/-- A socket that takes every connection and drops it at once is asked again without a pause. -/
theorem asked_of_dropped (now : ℚ) (count : ℕ) :
    ∀ attempt ∈ (start now).attempts (List.replicate count (.connected 0)),
      attempt.asked = now := by
  induction count with
  | zero => exact List.forall_mem_nil _
  | succ count ih =>
    have hTurn : (start now).turn (.connected 0) = start now := by
      simp only [turn, start, NNRat.coe_zero, add_zero]
    rw [List.replicate_succ, attempts, hTurn]
    exact List.forall_mem_cons.mpr ⟨rfl, ih⟩

/-- The longest that a loop sleeps, which wakes up at most `late` seconds after it should. -/
theorem After.sleep_lt (h : s.After failures) (jitter : Jitter) {late most : ℚ≥0}
    (hLate : late ≤ most) : (s.turn (.refused jitter late)).now < s.now + 45 + most := by
  have hCeiling : delay initialBackoff maxBackoff failures ≤ 30 := delay_le failures
  have hMost : (late : ℚ) ≤ most := hLate
  linarith [(h.sleep jitter late).2]

theorem connected_from (h : s.After failures) {outcomes : List Outcome} {moment : ℚ} {late : ℚ≥0}
    (hNow : s.now < moment + 45 + late)
    (hLate : ∀ jitter slow, .refused jitter slow ∈ outcomes → slow ≤ late)
    (hReachable : ∀ attempt ∈ s.attempts outcomes, moment ≤ attempt.asked → attempt.isConnected)
    (hLong : moment + 45 + late ≤ (s.run outcomes).now) :
    ∃ attempt ∈ s.attempts outcomes,
      attempt.lasts moment ∧ attempt.asked < moment + 45 + late := by
  induction outcomes generalizing s failures with
  | nil => exact absurd hLong (not_le.mpr hNow)
  | cons outcome outcomes ih =>
    have hRestLate : ∀ jitter slow, .refused jitter slow ∈ outcomes → slow ≤ late :=
      fun jitter slow hSlow => hLate jitter slow (List.mem_cons_of_mem _ hSlow)
    obtain ⟨hFirst, hRest⟩ := List.forall_mem_cons.mp hReachable
    have hLift : (∃ attempt ∈ (s.turn outcome).attempts outcomes,
          attempt.lasts moment ∧ attempt.asked < moment + 45 + late) →
        ∃ attempt ∈ s.attempts (outcome :: outcomes),
          attempt.lasts moment ∧ attempt.asked < moment + 45 + late :=
      fun ⟨attempt, hAttempt, hFound⟩ => ⟨attempt, List.mem_cons_of_mem _ hAttempt, hFound⟩
    cases outcome with
    | refused jitter slow =>
      have hEarly : s.now < moment := by
        refine lt_of_not_ge fun hAsked => ?_
        exact Bool.false_ne_true (hFirst hAsked)
      have hSleep := h.sleep_lt jitter (hLate jitter slow List.mem_cons_self)
      exact hLift (ih (h.refused jitter slow) (by linarith) hRestLate hRest hLong)
    | connected held =>
      obtain hHeld | hLost := le_or_gt moment (s.now + held)
      · exact ⟨⟨s.now, .connected held⟩, List.mem_cons_self, ⟨held, rfl, hHeld⟩, hNow⟩
      · have hNext : (s.turn (.connected held)).now < moment + 45 + late := by
          have hNonneg : (0 : ℚ) ≤ late := late.2
          have hTurn : (s.turn (.connected held)).now = s.now + held := rfl
          linarith
        exact hLift (ih (After.connected s held) hNext hRestLate hRest hLong)

/-- Once no attempt is refused any more, the poller is connected in less than 45 seconds, and what
its sleep overshoots by. -/
theorem connected_within (now : ℚ) (outcomes : List Outcome) (moment : ℚ) (late : ℚ≥0)
    (hMoment : now ≤ moment)
    (hLate : ∀ jitter slow, .refused jitter slow ∈ outcomes → slow ≤ late)
    (hReachable : ∀ attempt ∈ (start now).attempts outcomes,
      moment ≤ attempt.asked → attempt.isConnected)
    (hLong : moment + 45 + late ≤ ((start now).run outcomes).now) :
    ∃ attempt ∈ (start now).attempts outcomes,
      attempt.lasts moment ∧ attempt.asked < moment + 45 + late := by
  have hNonneg : (0 : ℚ) ≤ late := late.2
  have hNow : (start now).now < moment + 45 + late := by
    rw [start]
    linarith
  exact connected_from (start_after now) hNow hLate hReachable hLong

theorem connected_within_of_refused :
    ∃ attempt ∈ (start 0).attempts [.refused ⟨0, Rat.le_refl, rfl⟩ 0, .connected 60],
      attempt.lasts (1 / 4) ∧ attempt.asked < 1 / 4 + 45 + (0 : ℚ≥0) := by
  refine connected_within 0 _ (1 / 4) 0 (by norm_num) ?_ ?_ ?_
  · intro jitter slow hSlow
    obtain hFirst | hRest := List.mem_cons.mp hSlow
    · cases hFirst
      exact le_rfl
    · cases List.mem_singleton.mp hRest
  · simp only [attempts, turn, start, initialBackoff, List.forall_mem_cons]
    refine ⟨fun hAsked => absurd hAsked (by norm_num), fun _ => rfl, List.forall_mem_nil _⟩
  · simp only [run, turn, start, initialBackoff, List.foldl_cons, List.foldl_nil]
    norm_num

end ReconnectLoop

end KalshiBot.Ipc

import KalshiBot.Transport.Retry
import Mathlib.Algebra.Order.Field.Rat
import Mathlib.Data.List.Sort

/-! # The timings of a request

Every attempt of a request stamps the same object, as far as it comes. The stamps of an attempt
are readings of one clock, taken in the order of the constructors' arguments.
-/

namespace KalshiBot.Transport

open PythonText Retry

set_option autoImplicit false

structure RequestTimings where
  signStartNs : ℤ := 0
  signEndNs : ℤ := 0
  sentNs : ℤ := 0
  ackNs : ℤ := 0

namespace RequestTimings

def spanMs (startNs endNs : ℤ) : Option ℚ :=
  if startNs = 0 ∨ endNs = 0 then none else some ((endNs - startNs) / 1000000)

def signMs (timings : RequestTimings) : Option ℚ := spanMs timings.signStartNs timings.signEndNs
def dispatchSendMs (timings : RequestTimings) : Option ℚ := spanMs timings.signEndNs timings.sentNs
def dispatchAckMs (timings : RequestTimings) : Option ℚ := spanMs timings.sentNs timings.ackNs

def stamps (timings : RequestTimings) : List ℤ :=
  [timings.signStartNs, timings.signEndNs, timings.sentNs, timings.ackNs]

end RequestTimings

/-- How far an attempt comes, with the readings it takes on its way. -/
inductive Progress where
  | unsigned
  | signed (signStartNs signEndNs : ℤ)
  | sent (signStartNs signEndNs sentNs : ℤ)
  | bodyRead (signStartNs signEndNs sentNs ackNs : ℤ)

namespace Progress

def readings : Progress → List ℤ
  | .unsigned => []
  | .signed signStartNs signEndNs => [signStartNs, signEndNs]
  | .sent signStartNs signEndNs sentNs => [signStartNs, signEndNs, sentNs]
  | .bodyRead signStartNs signEndNs sentNs ackNs => [signStartNs, signEndNs, sentNs, ackNs]

def stamp (timings : RequestTimings) : Progress → RequestTimings
  | .unsigned => timings
  | .signed signStartNs signEndNs => { timings with signStartNs, signEndNs }
  | .sent signStartNs signEndNs sentNs => { timings with signStartNs, signEndNs, sentNs }
  | .bodyRead signStartNs signEndNs sentNs ackNs => { signStartNs, signEndNs, sentNs, ackNs }

def readBody : Progress → Bool
  | .bodyRead .. => true
  | _ => false

def wasSent : Progress → Bool
  | .sent .. | .bodyRead .. => true
  | _ => false

def onlySigned : Progress → Bool
  | .signed .. => true
  | _ => false

end Progress

/-- One call of `_request` under `with_retries`: only what went out is ever worth a retry. -/
structure TimedAttempt where
  progress : Progress
  result : Except TransportError PyValue
  read_of_ok : ∀ response, result = .ok response → progress.readBody = true
  sent_of_retried : isRetried isRetryable result = true → progress.wasSent = true

namespace TimedAttempt

def request (attempt : TimedAttempt) (timings : RequestTimings) :
    Except TransportError PyValue × RequestTimings :=
  (attempt.result, attempt.progress.stamp timings)

def retried (attempt : TimedAttempt) : Bool := isRetried isRetryable attempt.result

end TimedAttempt

def timedRequest (attempts : ℕ → TimedAttempt) : Except TransportError PyValue × RequestTimings :=
  withRetries (fun n timings => (attempts n).request timings) {}

/-- The attempts that are made of those that may follow one another. -/
def timedAttempts (attempts : ℕ → TimedAttempt) : List TimedAttempt :=
  made TimedAttempt.retried attempts (attemptLimit - 1) 1

/-- A strictly increasing clock that is never at zero. -/
def OnTickingClock (made : List TimedAttempt) : Prop :=
  (0 :: made.flatMap fun attempt => attempt.progress.readings).Pairwise (· < ·)

instance (made : List TimedAttempt) : Decidable (OnTickingClock made) :=
  inferInstanceAs (Decidable (List.Pairwise _ _))

structure RequestTimings.Describes (timings : RequestTimings) (final : TimedAttempt) : Prop where
  ordered : (timings.stamps.filter (· ≠ 0)).Pairwise (· ≤ ·)
  ack : timings.ackNs ≠ 0 → final.progress.readBody = true
  spans : ∀ span ∈ [timings.signMs, timings.dispatchSendMs, timings.dispatchAckMs],
    ∀ ms ∈ span, 0 ≤ ms

/-- No stamp of an earlier attempt is left where the final one did not come. -/
def Overwritten (earlier : List TimedAttempt) (final : TimedAttempt) : Prop :=
  final.progress.readBody = true ∨
    (∀ attempt ∈ earlier, attempt.progress.readBody = false) ∧
      (final.progress.onlySigned = true → earlier = [])

theorem timedRequest_eq (attempts : ℕ → TimedAttempt) :
    (timedAttempts attempts).getLast?.map TimedAttempt.result = some (timedRequest attempts).1 ∧
      (timedRequest attempts).2 =
        (timedAttempts attempts).foldl (fun timings attempt => attempt.progress.stamp timings) {} :=
  ⟨retrying_result_of_tape isRetryable TimedAttempt.result
      (fun attempt timings => attempt.progress.stamp timings) (fun _ _ => rfl) _ _ _,
    retrying_of_tape isRetryable TimedAttempt.result
      (fun attempt timings => attempt.progress.stamp timings) (fun _ _ => rfl) _ _ _⟩

section Clock

variable {earlier : List TimedAttempt} {final : TimedAttempt}

theorem OnTickingClock.split (h : OnTickingClock (earlier ++ [final])) :
    OnTickingClock earlier ∧ (0 :: final.progress.readings).Pairwise (· < ·) ∧
      ∀ attempt ∈ earlier, ∀ old ∈ attempt.progress.readings, ∀ new ∈ final.progress.readings,
        old < new := by
  rw [OnTickingClock, List.flatMap_append, List.flatMap_singleton, List.pairwise_cons,
    List.pairwise_append] at h
  obtain ⟨hPositive, hOld, hNew, hBefore⟩ := h
  refine ⟨List.pairwise_cons.mpr ⟨fun x hx => hPositive x (List.mem_append_left _ hx), hOld⟩,
    List.pairwise_cons.mpr ⟨fun x hx => hPositive x (List.mem_append_right _ hx), hNew⟩, ?_⟩
  intro attempt hAttempt old hMem
  exact hBefore old (List.mem_flatMap.mpr ⟨attempt, hAttempt, hMem⟩)

end Clock

namespace RequestTimings

variable {timings : RequestTimings}

theorem spanMs_nonneg {startNs endNs : ℤ} (h : startNs ≠ 0 → endNs ≠ 0 → startNs ≤ endNs) :
    ∀ ms ∈ spanMs startNs endNs, 0 ≤ ms := by
  intro ms hMs
  rw [spanMs] at hMs
  split at hMs
  · cases hMs
  · obtain ⟨hStart, hEnd⟩ := not_or.mp ‹_›
    cases hMs
    have hSpan : (0 : ℚ) ≤ endNs - startNs := sub_nonneg.mpr (Int.cast_le.mpr (h hStart hEnd))
    exact div_nonneg hSpan (by norm_num)

theorem ordered_iff : (timings.stamps.filter (· ≠ 0)).Pairwise (· ≤ ·) ↔
    ((timings.signStartNs ≠ 0 → timings.signEndNs ≠ 0 → timings.signStartNs ≤ timings.signEndNs) ∧
      (timings.signStartNs ≠ 0 → timings.sentNs ≠ 0 → timings.signStartNs ≤ timings.sentNs) ∧
      (timings.signStartNs ≠ 0 → timings.ackNs ≠ 0 → timings.signStartNs ≤ timings.ackNs)) ∧
    ((timings.signEndNs ≠ 0 → timings.sentNs ≠ 0 → timings.signEndNs ≤ timings.sentNs) ∧
      (timings.signEndNs ≠ 0 → timings.ackNs ≠ 0 → timings.signEndNs ≤ timings.ackNs)) ∧
    (timings.sentNs ≠ 0 → timings.ackNs ≠ 0 → timings.sentNs ≤ timings.ackNs) := by
  simp [stamps, List.pairwise_filter]

/-- The spans are those between neighbours, so the order of the stamps is all there is to show. -/
theorem describes_iff {final : TimedAttempt} : timings.Describes final ↔
    (timings.stamps.filter (· ≠ 0)).Pairwise (· ≤ ·) ∧
      (timings.ackNs ≠ 0 → final.progress.readBody = true) := by
  constructor
  · exact fun h => ⟨h.ordered, h.ack⟩
  · rintro ⟨hOrdered, hAck⟩
    refine ⟨hOrdered, hAck, ?_⟩
    obtain ⟨⟨hSign, -, -⟩, ⟨hSend, -⟩, hAnswer⟩ := ordered_iff.mp hOrdered
    simp only [List.mem_cons, forall_eq_or_imp]
    exact ⟨spanMs_nonneg hSign, spanMs_nonneg hSend, spanMs_nonneg hAnswer, List.forall_mem_nil _⟩

end RequestTimings

theorem Progress.stamp_sent {progress : Progress} (hSent : progress.wasSent = true)
    (hClock : (0 :: progress.readings).Pairwise (· < ·)) (timings : RequestTimings) :
    (0 < (progress.stamp timings).signStartNs ∧
      (progress.stamp timings).signStartNs < (progress.stamp timings).signEndNs ∧
      (progress.stamp timings).signEndNs < (progress.stamp timings).sentNs) ∧
    (progress.stamp timings).sentNs ∈ progress.readings ∧
    ((progress.stamp timings).ackNs = 0 ↔ timings.ackNs = 0 ∧ progress.readBody = false) := by
  cases progress with
  | unsigned => cases hSent
  | signed signStartNs signEndNs => cases hSent
  | sent signStartNs signEndNs sentNs =>
    simp only [readings, List.pairwise_cons, List.mem_cons, forall_eq_or_imp] at hClock
    refine ⟨⟨hClock.1.1, hClock.2.1.1, hClock.2.2.1.1⟩, by simp [stamp, readings], ?_⟩
    simp [stamp, readBody]
  | bodyRead signStartNs signEndNs sentNs ackNs =>
    simp only [readings, List.pairwise_cons, List.mem_cons, forall_eq_or_imp] at hClock
    refine ⟨⟨hClock.1.1, hClock.2.1.1, hClock.2.2.1.1⟩, by simp [stamp, readings], ?_⟩
    simpa [stamp, readBody] using hClock.1.2.2.2.1.ne'

/-- What the attempts that were sent leave: the stamps of the last one, and the last body read. -/
structure Left (earlier : List TimedAttempt) (timings : RequestTimings) : Prop where
  untouched : earlier = [] → timings = {}
  sent : earlier ≠ [] →
    (0 < timings.signStartNs ∧ timings.signStartNs < timings.signEndNs ∧
      timings.signEndNs < timings.sentNs) ∧
    ∃ attempt ∈ earlier, timings.sentNs ∈ attempt.progress.readings
  ack : timings.ackNs = 0 ↔ ∀ attempt ∈ earlier, attempt.progress.readBody = false

theorem left_foldl (earlier : List TimedAttempt)
    (hSent : ∀ attempt ∈ earlier, attempt.progress.wasSent = true) (hClock : OnTickingClock earlier) :
    Left earlier (earlier.foldl (fun timings attempt => attempt.progress.stamp timings) {}) := by
  induction earlier using List.reverseRecOn with
  | nil => exact ⟨fun _ => rfl, fun h => absurd rfl h, iff_of_true rfl (List.forall_mem_nil _)⟩
  | append_singleton earlier attempt ih =>
    obtain ⟨hBefore, hHere, -⟩ := hClock.split
    have hLeft := ih (fun x hx => hSent x (List.mem_append_left _ hx)) hBefore
    have hWasSent := hSent attempt (List.mem_append_right _ List.mem_cons_self)
    rw [List.foldl_append, List.foldl_cons, List.foldl_nil]
    obtain ⟨hStamps, hMem, hAck⟩ := Progress.stamp_sent hWasSent hHere
      (earlier.foldl (fun timings attempt => attempt.progress.stamp timings) {})
    refine ⟨fun h => absurd h (by simp), fun _ => ⟨hStamps, attempt, by simp, hMem⟩, ?_⟩
    rw [hAck, hLeft.ack, List.forall_mem_append, List.forall_mem_singleton]

theorem Left.describes_iff {earlier : List TimedAttempt} {final : TimedAttempt}
    {timings : RequestTimings} (h : Left earlier timings)
    (hClock : (0 :: final.progress.readings).Pairwise (· < ·))
    (hBefore : ∀ attempt ∈ earlier, ∀ old ∈ attempt.progress.readings,
      ∀ new ∈ final.progress.readings, old < new) :
    (final.progress.stamp timings).Describes final ↔ Overwritten earlier final := by
  rw [RequestTimings.describes_iff, RequestTimings.ordered_iff, Overwritten, ← h.ack]
  cases hProgress : final.progress with
  | unsigned =>
    by_cases hFirst : earlier = []
    · rw [h.untouched hFirst]
      simp [Progress.stamp, Progress.onlySigned]
    · obtain ⟨hStamps, -⟩ := h.sent hFirst
      simp only [Progress.stamp, Progress.readBody, Progress.onlySigned, Bool.false_eq_true, false_or,
        false_implies, and_true, imp_false]
      omega
  | signed signStartNs signEndNs =>
    simp only [hProgress, Progress.readings, List.pairwise_cons, List.mem_cons, forall_eq_or_imp]
      at hClock hBefore
    by_cases hFirst : earlier = []
    · rw [h.untouched hFirst]
      simp [Progress.stamp, Progress.readBody, Progress.onlySigned, hFirst]
      omega
    · -- what the attempt before has left as sent is older than this signature
      obtain ⟨hStamps, attempt, hMem, hSentNs⟩ := h.sent hFirst
      have hStale := (hBefore attempt hMem _ hSentNs).2.1
      simp only [Progress.stamp, Progress.readBody, Progress.onlySigned, hFirst, Bool.false_eq_true,
        false_or, forall_const, and_false, imp_false, iff_false]
      omega
  | sent signStartNs signEndNs sentNs =>
    simp only [hProgress, Progress.readings, List.pairwise_cons, List.mem_cons, forall_eq_or_imp]
      at hClock
    simp only [Progress.stamp, Progress.readBody, Progress.onlySigned, Bool.false_eq_true, false_or,
        false_implies, and_true, imp_false]
    omega
  | bodyRead signStartNs signEndNs sentNs ackNs =>
    simp only [hProgress, Progress.readings, List.pairwise_cons, List.mem_cons, forall_eq_or_imp]
      at hClock
    simp only [Progress.stamp, Progress.readBody, true_or, iff_true, implies_true, and_true]
    omega

/-- The timings are those of the final attempt exactly if nothing older shows through: the object
is not emptied between the attempts. -/
theorem timings_describe_iff (attempts : ℕ → TimedAttempt)
    (hClock : OnTickingClock (timedAttempts attempts)) :
    ∃ earlier final, timedAttempts attempts = earlier ++ [final] ∧
      (timedRequest attempts).1 = final.result ∧
      ((timedRequest attempts).2.Describes final ↔ Overwritten earlier final) := by
  obtain ⟨earlier, final, hMade, hRetried⟩ :=
    made_eq_append TimedAttempt.retried attempts (attemptLimit - 1) 1
  obtain ⟨hResult, hTimings⟩ := timedRequest_eq attempts
  have hMade : timedAttempts attempts = earlier ++ [final] := hMade
  rw [hMade] at hClock hResult hTimings
  obtain ⟨hOld, hNew, hBefore⟩ := hClock.split
  have hLeft := left_foldl earlier (fun x hx => x.sent_of_retried (hRetried x hx)) hOld
  refine ⟨earlier, final, hMade, ?_, ?_⟩
  · simpa using hResult.symm
  · rw [hTimings, List.foldl_append]
    exact hLeft.describes_iff hNew hBefore

/-- A `503` whose body was read, and then no answer in time. -/
def unavailableThenSilent : ℕ → TimedAttempt
  | 1 =>
    { progress := .bodyRead 1000 2000 3000 4000
      result := .error (.clientResponse 503)
      read_of_ok := fun response h => by cases h
      sent_of_retried := fun _ => rfl }
  | _ =>
    { progress := .sent 5000 6000 7000
      result := .error .timeout
      read_of_ok := fun response h => by cases h
      sent_of_retried := fun h => by cases h }

theorem timings_describe_iff_unavailableThenSilent :
    ∃ earlier final, timedAttempts unavailableThenSilent = earlier ++ [final] ∧
      (timedRequest unavailableThenSilent).1 = final.result ∧
      ((timedRequest unavailableThenSilent).2.Describes final ↔ Overwritten earlier final) :=
  timings_describe_iff unavailableThenSilent (by decide)

theorem timings_of_unavailableThenSilent :
    OnTickingClock (timedAttempts unavailableThenSilent) ∧
      timedAttempts unavailableThenSilent = [unavailableThenSilent 1, unavailableThenSilent 2] ∧
      (timedRequest unavailableThenSilent).2.stamps = [5000, 6000, 7000, 4000] ∧
      (timedRequest unavailableThenSilent).2.dispatchAckMs = some (-3 / 1000) ∧
      ¬(timedRequest unavailableThenSilent).2.Describes (unavailableThenSilent 2) := by
  refine ⟨by decide, rfl, rfl, by decide +kernel, fun h => ?_⟩
  have hRead := h.ack (by decide)
  cases hRead

end KalshiBot.Transport

import KalshiBot.Library.RateBudget
import Mathlib.Tactic.LinearCombination

/-! # The earliest grants of a budget

Requests are numbered and granted in order. A budget that grants as soon as its level covers
the cost is compared with any schedule that keeps the same bound on every window: since it was
last full, the budget has let nothing go to waste, so no schedule can be ahead of it.
-/

namespace KalshiBot.RateBudget

open RollingWindow

set_option autoImplicit false

variable {K : Type} [Field K] [LinearOrder K] [IsStrictOrderedRing K]
  (cost : ℕ → K) (schedule : ℕ → ℤ)

/-- The schedule grants in order and keeps every window within the budget. -/
structure KeepsBudget (capacity rate : K) : Prop where
  ordered : Monotone schedule
  windows : ∀ count, WindowsWithin schedule cost capacity rate (List.range count)

/-- What the first `count` requests have left at `now`: all of the budget since it was last full,
less what the requests since then have cost. The schedule has none of these before that. -/
def Paced (capacity rate : K) (count : ℕ) (level : K) (now : ℤ) : Prop :=
  ∃ (first length : ℕ) (full : ℤ), first + length = count ∧ full ≤ now ∧
    level + total cost (List.range' first length) = capacity + rate * (now - full) ∧
    ∀ ticket ∈ List.range' first length, full ≤ schedule ticket

variable {cost schedule} {capacity rate level : K} {count : ℕ} {now : ℤ}

omit [LinearOrder K] [IsStrictOrderedRing K] in
theorem Paced.start (now : ℤ) : Paced cost schedule capacity rate 0 capacity now := by
  refine ⟨0, 0, now, rfl, le_rfl, ?_, List.forall_mem_nil _⟩
  rw [List.range'_zero, total_nil, sub_self, mul_zero]

theorem Paced.wait (h : Paced cost schedule capacity rate count level now) {later : ℤ}
    (hLater : now ≤ later) :
    Paced cost schedule capacity rate count (min capacity (level + rate * (later - now))) later := by
  obtain hFull | hShort := le_total capacity (level + rate * (later - now))
  · refine ⟨count, 0, later, rfl, le_rfl, ?_, List.forall_mem_nil _⟩
    rw [min_eq_left hFull, List.range'_zero, total_nil, sub_self, mul_zero]
  · obtain ⟨first, length, full, hCount, hSince, hLevel, hBehind⟩ := h
    refine ⟨first, length, full, hCount, hSince.trans hLater, ?_, hBehind⟩
    rw [min_eq_right hShort]
    linear_combination hLevel

omit [LinearOrder K] [IsStrictOrderedRing K] in
theorem Paced.take (h : Paced cost schedule capacity rate count level now)
    (hNow : now ≤ schedule count) :
    Paced cost schedule capacity rate (count + 1) (level - cost count) now := by
  obtain ⟨first, length, full, rfl, hSince, hLevel, hBehind⟩ := h
  refine ⟨first, length + 1, full, rfl, hSince, ?_, ?_⟩
  · rw [List.range'_concat, total_append, total_singleton, one_mul]
    linear_combination hLevel
  · intro ticket hTicket
    rw [List.range'_concat, one_mul] at hTicket
    obtain hOld | hNew := List.mem_append.mp hTicket
    · exact hBehind ticket hOld
    · rw [List.mem_singleton.mp hNew]
      exact hSince.trans hNow

/-- By the time that the schedule has for a request, the budget covers its cost. -/
theorem Paced.due (h : Paced cost schedule capacity rate count level now)
    (hKeeps : KeepsBudget cost schedule capacity rate) (hCost : ∀ ticket, 0 ≤ cost ticket)
    (hNow : now ≤ schedule count) : cost count ≤ level + rate * (schedule count - now) := by
  obtain ⟨first, length, full, rfl, hSince, hLevel, hBehind⟩ := h
  have hWindow := hKeeps.windows (first + (length + 1)) full (schedule (first + length))
    (hSince.trans hNow)
  have hSplit : List.range (first + (length + 1)) =
      List.range first ++ List.range' first (length + 1) := by
    have hParts := @List.range'_append_1 0 first (length + 1)
    rw [zero_add] at hParts
    rw [List.range_eq_range', List.range_eq_range', hParts]
  have hInside : within schedule full (schedule (first + length)) (List.range' first (length + 1)) =
      List.range' first (length + 1) := by
    refine List.filter_eq_self.mpr fun ticket hTicket => ?_
    obtain ⟨-, hLast⟩ := List.mem_range'_1.mp hTicket
    have hUpper : schedule ticket ≤ schedule (first + length) := hKeeps.ordered (by omega)
    have hLower : full ≤ schedule ticket := by
      rw [List.range'_concat, one_mul] at hTicket
      obtain hOld | hNew := List.mem_append.mp hTicket
      · exact hBehind ticket hOld
      · rw [List.mem_singleton.mp hNew]
        exact hSince.trans hNow
    exact decide_eq_true ⟨hLower, hUpper⟩
  have hBefore : 0 ≤ total cost (within schedule full (schedule (first + length))
      (List.range first)) := by
    refine List.sum_nonneg fun price hPrice => ?_
    obtain ⟨ticket, -, rfl⟩ := List.mem_map.mp hPrice
    exact hCost ticket
  rw [hSplit, within, List.filter_append, ← within, ← within, hInside, total_append,
    List.range'_concat, total_append, total_singleton, one_mul] at hWindow
  linarith

end KalshiBot.RateBudget

import KalshiBot.Library.RollingWindow
import Mathlib.Tactic.Linarith
import Mathlib.Tactic.Ring

/-! # A budget that fills at a rate

Entries with a cost are taken from a level that rises at a constant rate up to a capacity.
Whatever the order of waiting and taking, no window of the log costs more than the capacity
and what the rate adds over the window.
-/

namespace KalshiBot.RateBudget

open RollingWindow

set_option autoImplicit false

variable {α K : Type} [Field K] [LinearOrder K] [IsStrictOrderedRing K]
  (time : α → ℤ) (cost : α → K)

/-- No window costs more than the capacity and what the rate adds over it. -/
def WindowsWithin (capacity rate : K) (log : List α) : Prop :=
  ∀ lo hi, lo ≤ hi → total cost (within time lo hi log) ≤ capacity + rate * (hi - lo)

/-- `level` is what is left of the budget at the moment `now`. -/
structure Metered (capacity rate : K) (log : List α) (level : K) (now : ℤ) : Prop where
  past : ∀ x ∈ log, time x ≤ now
  below : level ≤ capacity
  budget : ∀ floor ≤ now, total cost (since time floor log) + level ≤ capacity + rate * (now - floor)
  windows : WindowsWithin time cost capacity rate log

variable {time cost} {capacity rate level : K} {log : List α} {now : ℤ}

theorem since_of_past (h : ∀ x ∈ log, time x ≤ now) {floor : ℤ} (hFloor : now < floor) :
    since time floor log = [] := by
  refine List.filter_eq_nil_iff.mpr fun x hx => ?_
  have hPast := h x hx
  simp only [decide_eq_true_eq]
  omega

theorem within_of_past (h : ∀ x ∈ log, time x ≤ now) {lo hi : ℤ} (hHi : now ≤ hi) :
    within time lo hi log = since time lo log := by
  refine List.filter_congr fun x hx => ?_
  have hPast := h x hx
  simp only [decide_eq_decide]
  omega

theorem le_added {rate : K} (hRate : 0 ≤ rate) {lo hi : ℤ} (h : lo ≤ hi) : 0 ≤ rate * (hi - lo) :=
  mul_nonneg hRate (sub_nonneg.mpr (Int.cast_le.mpr h))

theorem Metered.start (hRate : 0 ≤ rate) (hCapacity : 0 ≤ capacity) (now : ℤ) :
    Metered time cost capacity rate [] capacity now where
  past := List.forall_mem_nil _
  below := le_rfl
  budget floor hFloor := by
    have hAdded := le_added hRate hFloor
    simp only [since, List.filter_nil, total_nil]
    linarith
  windows lo hi hle := by
    have hAdded := le_added hRate hle
    simp only [within, List.filter_nil, total_nil]
    linarith

theorem Metered.wait (h : Metered time cost capacity rate log level now) (hRate : 0 ≤ rate)
    {later : ℤ} (hLater : now ≤ later) {raised : K} (hBelow : raised ≤ capacity)
    (hRaised : raised ≤ level + rate * (later - now)) :
    Metered time cost capacity rate log raised later where
  past x hx := (h.past x hx).trans hLater
  below := hBelow
  budget floor hFloor := by
    obtain hOld | hNew := le_or_gt floor now
    · have hBudget := h.budget floor hOld
      calc total cost (since time floor log) + raised
          ≤ total cost (since time floor log) + level + rate * (later - now) := by linarith
        _ ≤ capacity + rate * (now - floor) + rate * (later - now) := by linarith
        _ = capacity + rate * (later - floor) := by ring
    · have hAdded := le_added hRate hFloor
      rw [since_of_past h.past hNew, total_nil]
      linarith
  windows := h.windows

/-- A window that ends before the new entry does not contain it; the budget pays for the others. -/
theorem Metered.take (h : Metered time cost capacity rate log level now) (hRate : 0 ≤ rate)
    {x : α} (hNow : time x = now) (hCost : 0 ≤ cost x) (hCovered : cost x ≤ level) :
    Metered time cost capacity rate (log ++ [x]) (level - cost x) now := by
  have hPast : ∀ y ∈ log ++ [x], time y ≤ now := by
    intro y hy
    obtain hy | hy := List.mem_append.mp hy
    · exact h.past y hy
    · rw [List.mem_singleton.mp hy, hNow]
  have hBudget : ∀ floor ≤ now,
      total cost (since time floor (log ++ [x])) + (level - cost x) ≤
        capacity + rate * (now - floor) := by
    intro floor hFloor
    have hHere : since time floor [x] = [x] := by simp [since, hNow, hFloor]
    have hBefore := h.budget floor hFloor
    rw [since_append, hHere, total_append, total_singleton]
    linarith
  refine ⟨hPast, (sub_le_self level hCost).trans h.below, hBudget, ?_⟩
  intro lo hi hle
  obtain hEarly | hLate := lt_or_ge hi now
  · have hOut : within time lo hi [x] = [] := by simp [within, hNow, hEarly]
    rw [within, List.filter_append]
    change total cost (within time lo hi log ++ within time lo hi [x]) ≤ _
    rw [hOut, List.append_nil]
    exact h.windows lo hi hle
  · rw [within_of_past hPast hLate]
    obtain hIn | hOut := le_or_gt lo now
    · have hBefore := hBudget lo hIn
      have hMore := le_added hRate hLate
      calc total cost (since time lo (log ++ [x]))
          ≤ capacity + rate * (now - lo) := by linarith
        _ ≤ capacity + rate * (now - lo) + rate * (hi - now) := by linarith
        _ = capacity + rate * (hi - lo) := by ring
    · have hAdded := le_added hRate hle
      have hCapacity : 0 ≤ capacity := (hCost.trans hCovered).trans h.below
      rw [since_of_past hPast hOut, total_nil]
      linarith

end KalshiBot.RateBudget

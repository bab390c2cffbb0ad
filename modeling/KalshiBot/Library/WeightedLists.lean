import Mathlib.Algebra.Order.BigOperators.Group.List
import Mathlib.Algebra.Order.Field.Basic
import Mathlib.Tactic.Ring

/-! # Weighted sums over a list

A function under a line that touches it at the average has a weighted sum under its value there.
-/

namespace KalshiBot.WeightedLists

set_option autoImplicit false

variable {α K : Type} [Field K]

def weighted (weight value : α → K) (entries : List α) : K :=
  (entries.map fun entry => weight entry * value entry).sum

def total (weight : α → K) (entries : List α) : K := (entries.map weight).sum

def average (weight value : α → K) (entries : List α) : K :=
  weighted weight value entries / total weight entries

variable {weight value : α → K} {entries : List α}

@[simp] theorem weighted_cons (entry : α) :
    weighted weight value (entry :: entries) =
      weight entry * value entry + weighted weight value entries := by
  simp only [weighted, List.map_cons, List.sum_cons]

@[simp] theorem total_cons (entry : α) :
    total weight (entry :: entries) = weight entry + total weight entries := by
  simp only [total, List.map_cons, List.sum_cons]

variable [LinearOrder K] [IsStrictOrderedRing K]

theorem total_nonneg (hWeight : ∀ entry ∈ entries, 0 ≤ weight entry) : 0 ≤ total weight entries := by
  refine List.sum_nonneg fun x hMem => ?_
  obtain ⟨entry, hEntry, rfl⟩ := List.mem_map.mp hMem
  exact hWeight entry hEntry

theorem weighted_le_line {f : K → K} {point slope : K}
    (hWeight : ∀ entry ∈ entries, 0 ≤ weight entry)
    (hLine : ∀ x, f x ≤ f point + slope * (x - point)) :
    weighted weight (fun entry => f (value entry)) entries ≤
      total weight entries * f point +
        slope * (weighted weight value entries - point * total weight entries) := by
  induction entries with
  | nil => simp [weighted, total]
  | cons entry entries ih =>
    obtain ⟨hHead, hTail⟩ := List.forall_mem_cons.mp hWeight
    have hEntry := mul_le_mul_of_nonneg_left (hLine (value entry)) hHead
    have hRest := ih hTail
    rw [weighted_cons, weighted_cons, total_cons]
    calc weight entry * f (value entry) + weighted weight (fun entry => f (value entry)) entries
        ≤ weight entry * (f point + slope * (value entry - point)) +
            (total weight entries * f point +
              slope * (weighted weight value entries - point * total weight entries)) :=
          add_le_add hEntry hRest
      _ = _ := by ring

theorem weighted_eq_zero (hWeight : ∀ entry ∈ entries, 0 ≤ weight entry)
    (hTotal : total weight entries = 0) : weighted weight value entries = 0 := by
  induction entries with
  | nil => rfl
  | cons entry entries ih =>
    obtain ⟨hHead, hTail⟩ := List.forall_mem_cons.mp hWeight
    rw [total_cons] at hTotal
    obtain ⟨hZero, hRestZero⟩ :=
      (add_eq_zero_iff_of_nonneg hHead (total_nonneg hTail)).mp hTotal
    rw [weighted_cons, hZero, zero_mul, zero_add, ih hTail hRestZero]

theorem average_mul_total (hWeight : ∀ entry ∈ entries, 0 ≤ weight entry) :
    average weight value entries * total weight entries = weighted weight value entries := by
  obtain hZero | hNonzero := eq_or_ne (total weight entries) 0
  · rw [hZero, mul_zero, weighted_eq_zero hWeight hZero]
  · exact div_mul_cancel₀ _ hNonzero

theorem weighted_le_of_average {f : K → K} {slope : K}
    (hWeight : ∀ entry ∈ entries, 0 ≤ weight entry)
    (hLine : ∀ x, f x ≤ f (average weight value entries) +
      slope * (x - average weight value entries)) :
    weighted weight (fun entry => f (value entry)) entries ≤
      total weight entries * f (average weight value entries) := by
  calc weighted weight (fun entry => f (value entry)) entries
      ≤ total weight entries * f (average weight value entries) +
          slope * (weighted weight value entries -
            average weight value entries * total weight entries) :=
        weighted_le_line hWeight hLine
    _ = total weight entries * f (average weight value entries) := by
        rw [average_mul_total hWeight, sub_self, mul_zero, add_zero]

end KalshiBot.WeightedLists

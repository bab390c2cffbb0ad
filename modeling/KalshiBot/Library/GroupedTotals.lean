import Mathlib.Algebra.BigOperators.Group.Finset.Piecewise
import KalshiBot.Library.Dicts
import KalshiBot.Library.RollingWindow

/-! # Totals by label

The entries of a log summed up label by label, and the dictionary of sums that a loop
over the log builds.
-/

namespace KalshiBot.RollingWindow

open PythonText

set_option autoImplicit false

variable {α κ R : Type} [DecidableEq κ] [AddCommMonoid R] (label : α → κ) (weight : α → R)

theorem total_filter_cons (p : α → Bool) (x : α) (log : List α) :
    total weight ((x :: log).filter p) =
      (if p x then weight x else 0) + total weight (log.filter p) := by
  rw [List.filter_cons]
  split <;> simp

theorem total_filter_or {p q : α → Bool} {log : List α}
    (hApart : ∀ x ∈ log, p x = true → q x = false) :
    total weight (log.filter fun x => p x || q x) =
      total weight (log.filter p) + total weight (log.filter q) := by
  induction log with
  | nil => simp
  | cons x log ih =>
    obtain ⟨hHead, hTail⟩ := List.forall_mem_cons.mp hApart
    simp only [total_filter_cons, ih hTail]
    cases hp : p x with
    | false =>
      simp only [Bool.false_or, Bool.false_eq_true, if_false, zero_add]
      rw [add_left_comm]
    | true =>
      simp only [Bool.true_or, if_true, hHead hp, Bool.false_eq_true, if_false, zero_add]
      rw [add_assoc]

/-- Every entry that counts is summed under its own label and no other. -/
theorem sum_total_filter (labels : Finset κ) (p : α → Bool) {log : List α}
    (hLabels : ∀ x ∈ log, p x = true → label x ∈ labels) :
    ∑ key ∈ labels, total weight (log.filter fun x => label x = key ∧ p x) =
      total weight (log.filter p) := by
  induction log with
  | nil => simp
  | cons x log ih =>
    obtain ⟨hHead, hTail⟩ := List.forall_mem_cons.mp hLabels
    simp only [total_filter_cons, Finset.sum_add_distrib, ih hTail]
    congr 1
    cases hp : p x with
    | false => simp
    | true =>
      simp only [and_true, decide_eq_true_eq, Finset.sum_ite_eq, hHead hp, if_true]

/-- One turn of a loop that sums the weights under their labels. -/
def sumInto (skip : α → Prop) [DecidablePred skip] (sums : Dict κ R) (x : α) : Dict κ R :=
  if skip x then sums else sums.insert (label x) ((sums.lookup (label x)).getD 0 + weight x)

theorem lookup_foldl_sumInto (skip : α → Prop) [DecidablePred skip] (log : List α)
    (sums : Dict κ R) (key : κ) :
    ((log.foldl (sumInto label weight skip) sums).lookup key).getD 0 =
      (sums.lookup key).getD 0 + total weight (log.filter fun x => label x = key ∧ ¬skip x) := by
  induction log generalizing sums with
  | nil => simp
  | cons x log ih =>
    rw [List.foldl_cons, ih, total_filter_cons, ← add_assoc, sumInto]
    congr 1
    split
    next hSkip => simp [hSkip]
    next hCount =>
      obtain rfl | hKey := eq_or_ne key (label x)
      · simp [hCount]
      · simp [AList.lookup_insert_ne hKey, hKey.symm]

theorem dlookup_getD_eq_total {l : List (Σ _ : κ, R)} (hKeys : l.NodupKeys) (key : κ) :
    (l.dlookup key).getD 0 = total Sigma.snd (l.filter fun entry => entry.1 = key) := by
  induction l with
  | nil => rfl
  | cons entry l ih =>
    obtain ⟨hNew, hRest⟩ := List.nodupKeys_cons.mp hKeys
    rw [total_filter_cons]
    obtain ⟨first, value⟩ := entry
    obtain rfl | hKey := eq_or_ne key first
    · have hNone := ih hRest
      rw [List.dlookup_eq_none.mpr hNew] at hNone
      rw [List.dlookup_cons_eq, ← hNone]
      simp
    · rw [List.dlookup_cons_ne _ _ hKey, ih hRest]
      simp [hKey.symm]

/-- What a dictionary holds under the labels that count. -/
theorem sum_lookup_getD (d : Dict κ R) (labels : Finset κ) {on : κ → Bool}
    (hLabels : ∀ key ∈ d, on key = true → key ∈ labels) :
    ∑ key ∈ labels with on key, (d.lookup key).getD 0 =
      total Sigma.snd (d.entries.filter fun entry => on entry.1) := by
  have hSum := sum_total_filter (fun entry : Σ _ : κ, R => entry.1) (fun entry => entry.2)
    (labels.filter fun key => on key = true) (fun entry => on entry.1)
    (fun entry (hEntry : entry ∈ d.entries) hOn => ?_)
  · rw [← hSum]
    refine Finset.sum_congr rfl fun key hKey => ?_
    rw [AList.lookup, dlookup_getD_eq_total d.nodupKeys]
    congr 1
    refine List.filter_congr fun entry _ => ?_
    have hOn := (Finset.mem_filter.mp hKey).2
    obtain hSame | hOther := eq_or_ne entry.1 key
    · simp [hSame, hOn]
    · simp [hOther]
  · exact Finset.mem_filter.mpr
      ⟨hLabels entry.1 (AList.mem_keys.mpr (List.mem_map_of_mem hEntry)) hOn, hOn⟩

end KalshiBot.RollingWindow

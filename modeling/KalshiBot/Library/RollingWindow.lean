import Mathlib.Algebra.Order.BigOperators.Group.List
import Mathlib.Algebra.Order.Ring.Int
import Mathlib.Data.Int.ConditionallyCompleteOrder
import Mathlib.Data.List.DropRight

/-! # Rolling windows over a log of timed entries

A log lists entries oldest first. The total of a window is the sum of the weights
of the entries whose time lies in it; with weight one it is their number. Nothing
here depends on what the entries are.
-/

namespace KalshiBot.RollingWindow

set_option autoImplicit false

variable {α R : Type} (time : α → ℤ) (weight : α → R)

def pruneBefore (floor : ℤ) (log : List α) : List α :=
  log.dropWhile fun x => time x < floor

def since (floor : ℤ) (log : List α) : List α :=
  log.filter fun x => floor ≤ time x

def within (lo hi : ℤ) (log : List α) : List α :=
  log.filter fun x => lo ≤ time x ∧ time x ≤ hi

def total [AddCommMonoid R] (log : List α) : R := (log.map weight).sum

theorem pruneBefore_suffix (floor : ℤ) (log : List α) :
    pruneBefore time floor log <:+ log := List.dropWhile_suffix _

theorem filter_pruneBefore (floor : ℤ) (p : α → Bool) (log : List α)
    (hp : ∀ x, time x < floor → p x = false) :
    (pruneBefore time floor log).filter p = log.filter p := by
  induction log with
  | nil => rfl
  | cons x log ih =>
    by_cases hx : time x < floor
    · simp only [pruneBefore, List.dropWhile_cons, hx, decide_true, if_true] at ih ⊢
      rw [ih, List.filter_cons_of_neg (by simp [hp x hx])]
    · simp [pruneBefore, hx]

theorem since_pruneBefore {floor lo : ℤ} (hlo : floor ≤ lo) (log : List α) :
    since time lo (pruneBefore time floor log) = since time lo log := by
  apply filter_pruneBefore
  intro x hx
  simp only [decide_eq_false_iff_not, not_le]
  omega

@[simp] theorem since_append (floor : ℤ) (a b : List α) :
    since time floor (a ++ b) = since time floor a ++ since time floor b :=
  List.filter_append a b

theorem filter_since {floor : ℤ} {p : α → Bool} (hp : ∀ x, p x = true → floor ≤ time x)
    (log : List α) : (since time floor log).filter p = log.filter p := by
  rw [since, List.filter_filter]
  apply List.filter_congr
  intro x _
  cases h : p x with
  | true => simp [hp x h]
  | false => rfl

theorem pruneBefore_eq_nil {floor : ℤ} {log : List α} (h : ∀ x ∈ log, time x < floor) :
    pruneBefore time floor log = [] := by
  simpa [pruneBefore, List.dropWhile_eq_nil_iff] using h

theorem pruneBefore_eq_self {floor : ℤ} {log : List α} (h : ∀ x ∈ log, floor ≤ time x) :
    pruneBefore time floor log = log := by
  cases log with
  | nil => rfl
  | cons x log => simp [pruneBefore, h x List.mem_cons_self]

theorem pruneBefore_pruneBefore {floor later : ℤ} (h : floor ≤ later) (log : List α) :
    pruneBefore time later (pruneBefore time floor log) = pruneBefore time later log := by
  induction log with
  | nil => rfl
  | cons x log ih =>
    by_cases hx : time x < floor
    · have hLater : time x < later := by omega
      simp only [pruneBefore, List.dropWhile_cons, hx, hLater, decide_true, if_true] at ih ⊢
      exact ih
    · simp [pruneBefore, hx]

theorem pruneBefore_append (floor : ℤ) (a b : List α) : pruneBefore time floor (a ++ b) =
    if pruneBefore time floor a = [] then pruneBefore time floor b
    else pruneBefore time floor a ++ b := by
  rw [pruneBefore, List.dropWhile_append]
  simp only [List.isEmpty_iff, pruneBefore]
  congr

/-- Pruning from this floor on cannot tell the two logs apart. -/
def SameFrom (floor : ℤ) (a b : List α) : Prop :=
  ∀ later, floor ≤ later → pruneBefore time later a = pruneBefore time later b

namespace SameFrom

variable {time} {floor : ℤ} {a b : List α}

theorem refl (floor : ℤ) (a : List α) : SameFrom time floor a a := fun _ _ => rfl

theorem mono (h : SameFrom time floor a b) {later : ℤ} (hLater : floor ≤ later) :
    SameFrom time later a b := fun floor' hFloor => h floor' (hLater.trans hFloor)

theorem append (h : SameFrom time floor a b) (x : List α) :
    SameFrom time floor (a ++ x) (b ++ x) := by
  intro later hLater
  rw [pruneBefore_append, pruneBefore_append, h later hLater]

theorem prune_left (h : SameFrom time floor a b) :
    SameFrom time floor (pruneBefore time floor a) b := by
  intro later hLater
  rw [pruneBefore_pruneBefore time hLater, h later hLater]

theorem filter_eq (h : SameFrom time floor a b) {p : α → Bool}
    (hp : ∀ x, time x < floor → p x = false) : a.filter p = b.filter p := by
  rw [← filter_pruneBefore time floor p a hp, ← filter_pruneBefore time floor p b hp,
    h floor le_rfl]

end SameFrom

/-- On a log in time order, dropping the old head drops every old entry. -/
theorem pruneBefore_eq_since {floor : ℤ} {log : List α}
    (h : log.Pairwise fun x y => time x ≤ time y) :
    pruneBefore time floor log = since time floor log := by
  induction log with
  | nil => rfl
  | cons x log ih =>
    obtain ⟨hx, hlog⟩ := List.pairwise_cons.mp h
    by_cases hold : time x < floor
    · simp only [pruneBefore, since, List.dropWhile_cons, hold, decide_true, if_true] at ih ⊢
      rw [ih hlog, List.filter_cons_of_neg (by simpa using hold)]
    · have hall : ∀ y ∈ x :: log, decide (floor ≤ time y) = true := by
        intro y hy
        rcases List.mem_cons.mp hy with rfl | hy
        · simpa using hold
        · have := hx y hy
          simp only [decide_eq_true_eq]
          omega
      rw [since, List.filter_eq_self.mpr hall]
      simp [pruneBefore, hold]

section Totals

variable [AddCommMonoid R]

@[simp] theorem total_nil : total weight [] = 0 := rfl

@[simp] theorem total_append (a b : List α) :
    total weight (a ++ b) = total weight a + total weight b := by
  simp [total]

@[simp] theorem total_singleton (x : α) : total weight [x] = weight x := by
  simp [total]

@[simp] theorem total_cons (x : α) (log : List α) :
    total weight (x :: log) = weight x + total weight log := by
  simp [total]

theorem total_perm {a b : List α} (h : a.Perm b) : total weight a = total weight b :=
  (h.map weight).sum_eq

theorem total_one (log : List α) : total (fun _ => (1 : ℤ)) log = log.length := by
  simp [total]

variable [PartialOrder R]

/-- Every entry's window, reaching `width` back from the entry, stays under the cap. -/
def WithinCap (width : ℤ) (cap : R) (log : List α) : Prop :=
  ∀ x ∈ log, total weight (within time (time x - width) (time x) log) ≤ cap

theorem withinCap_nil (width : ℤ) (cap : R) : WithinCap time weight width cap [] := by
  simp [WithinCap]

variable [IsOrderedAddMonoid R]

theorem total_nonneg {log : List α} (hw : ∀ x ∈ log, 0 ≤ weight x) : 0 ≤ total weight log :=
  List.sum_nonneg fun r hr => by
    obtain ⟨x, hx, rfl⟩ := List.mem_map.mp hr
    exact hw x hx

theorem total_filter_le {p q : α → Bool} {log : List α} (hw : ∀ x ∈ log, 0 ≤ weight x)
    (hpq : ∀ x ∈ log, p x = true → q x = true) :
    total weight (log.filter p) ≤ total weight (log.filter q) := by
  induction log with
  | nil => exact le_refl _
  | cons x log ih =>
    obtain ⟨hx, hlog⟩ := List.forall_mem_cons.mp hw
    have htail := ih hlog fun y hy => hpq y (List.mem_cons_of_mem _ hy)
    cases hp : p x with
    | true =>
      rw [List.filter_cons_of_pos hp, List.filter_cons_of_pos (hpq x List.mem_cons_self hp)]
      simpa using add_le_add_right htail (weight x)
    | false =>
      rw [List.filter_cons_of_neg (by simp [hp])]
      cases hq : q x with
      | true =>
        rw [List.filter_cons_of_pos hq, total_cons]
        exact htail.trans (le_add_of_nonneg_left hx)
      | false => rwa [List.filter_cons_of_neg (by simp [hq])]

theorem total_filter_le_total {log : List α} (hw : ∀ x ∈ log, 0 ≤ weight x) (p : α → Bool) :
    total weight (log.filter p) ≤ total weight log := by
  have h := total_filter_le weight hw (q := fun _ => true) fun x _ (_ : p x = true) => rfl
  rwa [List.filter_eq_self.mpr fun _ _ => rfl] at h

theorem total_sublist_le {a b : List α} (hw : ∀ x ∈ b, 0 ≤ weight x) (h : a.Sublist b) :
    total weight a ≤ total weight b := by
  induction h with
  | slnil => exact le_refl _
  | cons x _ ih =>
    obtain ⟨hx, hRest⟩ := List.forall_mem_cons.mp hw
    rw [total_cons]
    exact (ih hRest).trans (le_add_of_nonneg_left hx)
  | cons_cons x _ ih =>
    rw [total_cons, total_cons]
    exact add_le_add le_rfl (ih (List.forall_mem_cons.mp hw).2)

/-- Admission keeps the cap: if at some moment `now` no later than the new entry
the window ending there had room for it, every window still has. -/
theorem WithinCap.append {width now : ℤ} {cap : R} {log : List α} {a : α}
    (h : WithinCap time weight width cap log) (hw : ∀ x ∈ log ++ [a], 0 ≤ weight x)
    (hlog : ∀ x ∈ log, time x ≤ time a) (hnow : now ≤ time a)
    (hroom : total weight (since time (now - width) log) + weight a ≤ cap) :
    WithinCap time weight width cap (log ++ [a]) := by
  have hw' : ∀ x ∈ log, 0 ≤ weight x := fun x hx => hw x (List.mem_append_left _ hx)
  have hnew : total weight (within time (time a - width) (time a) (log ++ [a])) ≤ cap := by
    calc total weight (within time (time a - width) (time a) (log ++ [a]))
        = total weight (within time (time a - width) (time a) log) +
            total weight (within time (time a - width) (time a) [a]) := by
          rw [within, List.filter_append, total_append]; rfl
      _ ≤ total weight (since time (now - width) log) + weight a := by
          apply add_le_add
          · apply total_filter_le weight hw'
            intro x _ hx
            simp only [decide_eq_true_eq] at hx ⊢
            omega
          · refine (total_filter_le_total weight ?_ _).trans (total_singleton weight a).le
            exact fun x hx => hw x (List.mem_append_right _ hx)
      _ ≤ cap := hroom
  intro x hx
  rcases List.mem_append.mp hx with hx | hx
  · rcases (hlog x hx).lt_or_eq with hlt | heq
    · have hout : within time (time x - width) (time x) (log ++ [a]) =
          within time (time x - width) (time x) log := by
        simp [within, List.filter_append, hlt]
      rw [hout]
      exact h x hx
    · rw [heq]
      exact hnew
  · rw [List.mem_singleton.mp hx]
    exact hnew

/-- The same for the part of the log that carries one label. -/
theorem WithinCap.append_filter {width now : ℤ} {cap : R} {log : List α} {a : α} (p : α → Bool)
    (h : WithinCap time weight width cap (log.filter p)) (hw : ∀ x ∈ log ++ [a], 0 ≤ weight x)
    (hlog : ∀ x ∈ log, time x ≤ time a) (hnow : now ≤ time a)
    (hroom : p a = true → total weight (since time (now - width) (log.filter p)) + weight a ≤ cap) :
    WithinCap time weight width cap ((log ++ [a]).filter p) := by
  rw [List.filter_append]
  cases hp : p a with
  | true =>
    rw [List.filter_cons_of_pos hp, List.filter_nil]
    apply h.append time weight _ (fun x hx => hlog x (List.mem_of_mem_filter hx)) hnow (hroom hp)
    intro x hx
    rcases List.mem_append.mp hx with hx | hx
    · exact hw x (List.mem_append_left _ (List.mem_of_mem_filter hx))
    · exact hw x (List.mem_append_right _ hx)
  | false =>
    rw [List.filter_cons_of_neg (by simp [hp]), List.filter_nil, List.append_nil]
    exact h

end Totals

end KalshiBot.RollingWindow

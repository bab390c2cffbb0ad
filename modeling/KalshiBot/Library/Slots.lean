import Mathlib.Algebra.Order.Group.Int
import Mathlib.Data.Finset.Card
import Mathlib.Data.Finset.SDiff
import Mathlib.Data.List.Induction

/-! # A counter of held slots

Tasks take a slot and give it back, and a counter that never falls below zero follows them. It
counts the holders exactly when each task takes once and gives back what it holds.
-/

namespace KalshiBot.Slots

set_option autoImplicit false

inductive SlotOp where
  | take
  | release
  deriving DecidableEq

def SlotOp.applyTo (held : ℤ) : SlotOp → ℤ
  | take => held + 1
  | release => max 0 (held - 1)

variable {ι : Type}

abbrev SlotLog (ι : Type) := List (ι × SlotOp)

def counter (log : SlotLog ι) : ℤ := log.foldl (fun held entry => entry.2.applyTo held) 0

@[simp] theorem counter_snoc (log : SlotLog ι) (entry : ι × SlotOp) :
    counter (log ++ [entry]) = entry.2.applyTo (counter log) := by
  rw [counter, List.foldl_append]
  rfl

/-- Each slot is taken below the limit. -/
def Admitted (limit : ℤ) (log : SlotLog ι) : Prop :=
  ∀ before task after, log = before ++ (task, .take) :: after → counter before < limit

theorem Admitted.before {limit : ℤ} {log later : SlotLog ι} (h : Admitted limit (log ++ later)) :
    Admitted limit log := by
  rintro before task after rfl
  exact h before task (after ++ later) (by simp)

theorem Admitted.counter_le {limit : ℤ} {log : SlotLog ι} (h : Admitted limit log)
    (hLimit : 0 ≤ limit) : counter log ≤ limit := by
  induction log using List.reverseRecOn with
  | nil => exact hLimit
  | append_singleton log entry ih =>
    have hHere := ih h.before
    obtain ⟨task, op⟩ := entry
    rw [counter_snoc]
    cases op with
    | take =>
      have := h log task [] rfl
      simp only [SlotOp.applyTo]
      omega
    | release =>
      simp only [SlotOp.applyTo]
      omega

theorem Admitted.append {limit : ℤ} {log later : SlotLog ι} (h : Admitted limit log)
    (hLater : ∀ before task after, later = before ++ (task, .take) :: after →
      counter (log ++ before) < limit) : Admitted limit (log ++ later) := by
  intro before task after hLog
  obtain ⟨rest, hBefore, hRest⟩ | ⟨rest, hBefore, hRest⟩ := List.append_eq_append_iff.mp hLog
  · subst hBefore
    exact hLater rest task after hRest
  · cases rest with
    | nil =>
      obtain rfl : log = before := by simpa using hBefore
      have := hLater [] task after hRest.symm
      rwa [List.append_nil] at this
    | cons entry rest =>
      obtain ⟨rfl, rfl⟩ := List.cons.inj hRest
      exact h before task rest hBefore

def tasksOf (op : SlotOp) (log : SlotLog ι) : List ι :=
  (log.filter fun entry => entry.2 = op).map Prod.fst

theorem mem_tasksOf {op : SlotOp} {log : SlotLog ι} {task : ι} :
    task ∈ tasksOf op log ↔ (task, op) ∈ log := by
  simp [tasksOf]

variable [DecidableEq ι]

/-- The tasks that have taken a slot and not given it back. -/
def holders (log : SlotLog ι) : Finset ι :=
  (tasksOf .take log).toFinset \ (tasksOf .release log).toFinset

/-- No task takes twice or gives back a slot that it does not hold. -/
inductive Paired : SlotLog ι → Prop
  | nil : Paired []
  | take {log : SlotLog ι} {task : ι} (h : Paired log) (hNew : ∀ op, (task, op) ∉ log) :
      Paired (log ++ [(task, .take)])
  | release {log : SlotLog ι} {task : ι} (h : Paired log) (hHeld : task ∈ holders log) :
      Paired (log ++ [(task, .release)])

theorem mem_holders {log : SlotLog ι} {task : ι} :
    task ∈ holders log ↔ (task, .take) ∈ log ∧ (task, .release) ∉ log := by
  simp [holders, mem_tasksOf]

theorem holders_take {log : SlotLog ι} {task : ι} (hNew : ∀ op, (task, op) ∉ log) :
    holders (log ++ [(task, .take)]) = insert task (holders log) := by
  ext other
  obtain rfl | hOther := eq_or_ne other task
  · simp [mem_holders, hNew]
  · simp [mem_holders, hOther]

theorem holders_release (log : SlotLog ι) (task : ι) :
    holders (log ++ [(task, .release)]) = (holders log).erase task := by
  ext other
  obtain rfl | hOther := eq_or_ne other task
  · simp [mem_holders]
  · simp [mem_holders, hOther]

theorem Paired.counter_eq {log : SlotLog ι} (h : Paired log) : counter log = (holders log).card := by
  induction h with
  | nil => rfl
  | @take log task h hNew ih =>
    have hFresh : task ∉ holders log := fun hHeld => hNew _ (mem_holders.mp hHeld).1
    rw [counter_snoc, holders_take hNew, Finset.card_insert_of_notMem hFresh, ih]
    rfl
  | @release log task h hHeld ih =>
    have hSome := Finset.card_pos.mpr ⟨task, hHeld⟩
    rw [counter_snoc, holders_release, Finset.card_erase_of_mem hHeld, ih]
    simp only [SlotOp.applyTo]
    omega

theorem Paired.before {log later : SlotLog ι} (h : Paired (log ++ later)) : Paired log := by
  induction later using List.reverseRecOn with
  | nil => simpa using h
  | append_singleton later entry ih =>
    refine ih ?_
    rw [← List.append_assoc] at h
    generalize hLog : log ++ later ++ [entry] = whole at h
    cases h with
    | nil => simp at hLog
    | take h _ => exact (List.append_inj_left' hLog rfl) ▸ h
    | release h _ => exact (List.append_inj_left' hLog rfl) ▸ h

theorem Paired.holds {log later : SlotLog ι} {task : ι}
    (h : Paired (log ++ (task, .release) :: later)) : task ∈ holders log := by
  rw [List.append_cons] at h
  generalize hLog : log ++ [(task, SlotOp.release)] = whole at h
  cases h.before with
  | nil => simp at hLog
  | take _ _ => simp at hLog
  | release _ hHeld =>
    obtain ⟨rfl, hEntry⟩ := List.append_inj' hLog rfl
    simp only [List.cons.injEq, Prod.mk.injEq, and_true] at hEntry
    exact hEntry ▸ hHeld

end KalshiBot.Slots

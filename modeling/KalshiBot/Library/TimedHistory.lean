import Mathlib.Order.Defs.LinearOrder

/-! # What a value was and when

The changes of a value are listed with their moments, oldest first.
-/

namespace KalshiBot.TimedHistory

set_option autoImplicit false

variable {T α : Type}

def lastValue (initially : α) (changes : List (T × α)) : α :=
  changes.foldl (fun _ change => change.2) initially

variable [LE T] {initially value : α} {changes : List (T × α)} {moment : T}

/-- At a moment at which it changes a value is both what it was and what it becomes. -/
def HeldAt (initially : α) (changes : List (T × α)) (moment : T) (value : α) : Prop :=
  ∃ before after, changes = before ++ after ∧ (∀ change ∈ before, change.1 ≤ moment) ∧
    (∀ change ∈ after, moment ≤ change.1) ∧ lastValue initially before = value

theorem heldAt_lastValue (hPast : ∀ change ∈ changes, change.1 ≤ moment) :
    HeldAt initially changes moment (lastValue initially changes) :=
  ⟨changes, [], (List.append_nil _).symm, hPast, List.forall_mem_nil _, rfl⟩

theorem HeldAt.snoc (h : HeldAt initially changes moment value) {change : T × α}
    (hLater : moment ≤ change.1) : HeldAt initially (changes ++ [change]) moment value := by
  obtain ⟨before, after, rfl, hBefore, hAfter, hValue⟩ := h
  refine ⟨before, after ++ [change], by simp only [List.append_assoc], hBefore, ?_, hValue⟩
  intro other hMem
  obtain hMem | hMem := List.mem_append.mp hMem
  · exact hAfter other hMem
  · obtain rfl := List.mem_singleton.mp hMem
    exact hLater

theorem past_snoc {T : Type} [Preorder T] {changes : List (T × α)} {now later : T} {change : T × α}
    (hPast : ∀ earlier ∈ changes, earlier.1 ≤ now) (hNow : now ≤ later)
    (hChange : change.1 ≤ later) : ∀ earlier ∈ changes ++ [change], earlier.1 ≤ later := by
  intro earlier hMem
  obtain hMem | hMem := List.mem_append.mp hMem
  · exact le_trans (hPast earlier hMem) hNow
  · obtain rfl := List.mem_singleton.mp hMem
    exact hChange

end KalshiBot.TimedHistory

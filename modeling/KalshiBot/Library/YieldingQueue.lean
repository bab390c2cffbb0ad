import Mathlib.Data.List.Basic

/-! # A queue whose low items yield

A low item joins only while the queue is short. The low items then stay in the first places,
whatever else joins and leaves.
-/

namespace KalshiBot.YieldingQueue

set_option autoImplicit false

variable {α : Type} (low : α → Bool) (limit : ℕ)

def LowFirst (items : List α) : Prop := ∀ item ∈ items.drop limit, low item = false

variable {low limit} {items : List α} {item : α}

theorem lowFirst_nil : LowFirst low limit [] := by
  rw [LowFirst, List.drop_nil]
  exact List.forall_mem_nil _

theorem LowFirst.concat (h : LowFirst low limit items)
    (hAdmitted : low item = true → items.length < limit) : LowFirst low limit (items ++ [item]) := by
  intro other hMem
  rw [List.drop_append] at hMem
  obtain hOld | hNew := List.mem_append.mp hMem
  · exact h other hOld
  · obtain rfl := List.mem_singleton.mp (List.mem_of_mem_drop hNew)
    rw [← Bool.not_eq_true]
    intro hLow
    have hShort := hAdmitted hLow
    have hPositive : 0 < ([other].drop (limit - items.length)).length :=
      List.length_pos_of_mem hNew
    rw [List.length_drop, List.length_singleton] at hPositive
    omega

theorem LowFirst.tail (h : LowFirst low limit (item :: items)) : LowFirst low limit items := by
  intro other hMem
  refine h other (List.mem_of_mem_drop (i := 1) ?_)
  rwa [List.drop_drop, List.drop_succ_cons]

theorem LowFirst.index_lt (h : LowFirst low limit items) {i : ℕ} (hAt : items[i]? = some item)
    (hLow : low item = true) : i < limit := by
  by_contra hBeyond
  have hMem : item ∈ items.drop limit := by
    refine List.mem_of_getElem? (i := i - limit) ?_
    rw [List.getElem?_drop, Nat.add_sub_cancel' (Nat.le_of_not_lt hBeyond), hAt]
  rw [h item hMem] at hLow
  cases hLow

theorem LowFirst.length_filter_le (h : LowFirst low limit items) :
    (items.filter low).length ≤ limit := by
  have hNone : (items.drop limit).filter low = [] := by
    rw [List.filter_eq_nil_iff]
    intro other hMem
    rw [h other hMem]
    exact Bool.false_ne_true
  calc (items.filter low).length
      = ((items.take limit).filter low).length := by
        conv_lhs => rw [← List.take_append_drop limit items]
        rw [List.filter_append, hNone, List.append_nil]
    _ ≤ (items.take limit).length := List.length_filter_le _ _
    _ ≤ limit := List.length_take_le _ _

/-- What waits in front of any place. -/
theorem LowFirst.length_ahead_le (h : LowFirst low limit items) (i : ℕ) :
    ((items.take i).filter low).length ≤ limit :=
  Nat.le_trans ((List.take_sublist i items).filter low).length_le h.length_filter_le

end KalshiBot.YieldingQueue

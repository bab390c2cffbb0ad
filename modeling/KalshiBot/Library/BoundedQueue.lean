import Mathlib.Data.Int.Order.Basic

/-! # A bounded queue

First in, first out, holding at most `capacity` items; a capacity that is not positive
means no bound. The operations are the ones that never wait.
-/

namespace KalshiBot.Library

set_option autoImplicit false

structure BoundedQueue (α : Type) where
  capacity : ℤ
  items : List α
  bounded : 0 < capacity → (items.length : ℤ) ≤ capacity

namespace BoundedQueue

variable {α : Type}

def empty (capacity : ℤ) : BoundedQueue α where
  capacity
  items := []
  bounded := le_of_lt

def Full (q : BoundedQueue α) : Prop := 0 < q.capacity ∧ q.capacity ≤ q.items.length

instance (q : BoundedQueue α) : Decidable q.Full := inferInstanceAs (Decidable (_ ∧ _))

def put (q : BoundedQueue α) (item : α) (h : ¬q.Full) : BoundedQueue α where
  capacity := q.capacity
  items := q.items ++ [item]
  bounded hPos := by
    have hRoom : ¬q.capacity ≤ q.items.length := fun hLe => h ⟨hPos, hLe⟩
    rw [List.length_append, List.length_singleton]
    omega

def putNowait (q : BoundedQueue α) (item : α) : Option (BoundedQueue α) :=
  if h : q.Full then none else some (q.put item h)

def getNowait (q : BoundedQueue α) : Option (α × BoundedQueue α) :=
  match h : q.items with
  | [] => none
  | item :: rest => some (item, ⟨q.capacity, rest, fun hPos => by
      have := q.bounded hPos
      rw [h, List.length_cons] at this
      omega⟩)

theorem putNowait_eq_some {q q' : BoundedQueue α} {item : α} (h : q.putNowait item = some q') :
    ¬q.Full ∧ q'.capacity = q.capacity ∧ q'.items = q.items ++ [item] := by
  unfold putNowait at h
  split at h
  · cases h
  · cases h
    exact ⟨‹_›, rfl, rfl⟩

theorem putNowait_of_room {q : BoundedQueue α} (h : ¬q.Full) (item : α) :
    ∃ q', q.putNowait item = some q' ∧ q'.capacity = q.capacity ∧ q'.items = q.items ++ [item] :=
  ⟨q.put item h, dif_neg h, rfl, rfl⟩

theorem putNowait_eq_none {q : BoundedQueue α} {item : α} : q.putNowait item = none ↔ q.Full := by
  unfold putNowait
  split <;> simp [*]

theorem getNowait_eq_some {q q' : BoundedQueue α} {item : α} (h : q.getNowait = some (item, q')) :
    q'.capacity = q.capacity ∧ q.items = item :: q'.items := by
  unfold getNowait at h
  split at h
  · cases h
  · cases h
    exact ⟨rfl, ‹_›⟩

theorem getNowait_of_cons {q : BoundedQueue α} {item : α} {rest : List α}
    (h : q.items = item :: rest) :
    ∃ q', q.getNowait = some (item, q') ∧ q'.capacity = q.capacity ∧ q'.items = rest := by
  obtain ⟨capacity, items, bounded⟩ := q
  obtain rfl : items = item :: rest := h
  exact ⟨_, rfl, rfl, rfl⟩

end BoundedQueue

end KalshiBot.Library

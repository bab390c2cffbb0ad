import Mathlib.Data.List.Basic

/-! # A statement repeated until it changes nothing

The loop of a deletion in chunks: it adds up what every repetition reports and ends at the first
that reports nothing. In front of each one, others may have changed the state, finitely often.
-/

namespace KalshiBot.ChunkedLoop

set_option autoImplicit false

variable {σ ε : Type}

structure Statement (σ ε : Type) where
  run : σ → Except ε (σ × ℕ)
  size : σ → ℕ
  shrinks : ∀ s s' n, run s = .ok (s', n + 1) → size s' < size s

namespace Statement

def alone (statement : Statement σ ε) (s : σ) (total : ℕ) : Except ε (σ × ℕ) :=
  match h : statement.run s with
  | .error e => .error e
  | .ok (s', 0) => .ok (s', total)
  | .ok (s', n + 1) => statement.alone s' (total + (n + 1))
termination_by statement.size s
decreasing_by exact statement.shrinks s s' n h

/-- The loop among others; those it leaves come after it. -/
def among (statement : Statement σ ε) :
    List (σ → σ) → σ → ℕ → Except ε (σ × ℕ × List (σ → σ))
  | [], s, total => (statement.alone s total).map fun (s, total) => (s, total, [])
  | other :: others, s, total =>
    match statement.run (other s) with
    | .error e => .error e
    | .ok (s', 0) => .ok (s', total, others)
    | .ok (s', n + 1) => statement.among others s' (total + (n + 1))

variable {statement : Statement σ ε} {inv : σ → Prop}

theorem alone_of_done {s s' : σ} (h : statement.run s = .ok (s', 0)) (total : ℕ) :
    statement.alone s total = .ok (s', total) := by
  rw [alone]
  split
  next hRun => cases h.symm.trans hRun
  next hRun =>
    cases h.symm.trans hRun
    rfl
  next hRun => cases h.symm.trans hRun

theorem alone_of_more {s s' : σ} {n : ℕ} (h : statement.run s = .ok (s', n + 1)) (total : ℕ) :
    statement.alone s total = statement.alone s' (total + (n + 1)) := by
  rw [alone]
  split
  next hRun => cases h.symm.trans hRun
  next hRun => cases h.symm.trans hRun
  next hRun =>
    cases h.symm.trans hRun
    rfl

theorem alone_of_error {s : σ} {e : ε} (h : statement.run s = .error e) (total : ℕ) :
    statement.alone s total = .error e := by
  rw [alone]
  split
  next hRun =>
    cases h.symm.trans hRun
    rfl
  next hRun => cases h.symm.trans hRun
  next hRun => cases h.symm.trans hRun

/-- The loop ends, with a repetition that reports nothing. -/
theorem alone_eq_ok (hRun : ∀ s, inv s → ∃ s' n, statement.run s = .ok (s', n) ∧ inv s')
    {s : σ} (hs : inv s) (total : ℕ) :
    ∃ s' total' last, statement.alone s total = .ok (s', total') ∧ inv s' ∧ inv last ∧
      statement.run last = .ok (s', 0) := by
  obtain ⟨s', n, hStep, hs'⟩ := hRun s hs
  cases n with
  | zero => exact ⟨s', total, s, alone_of_done hStep total, hs', hs, hStep⟩
  | succ n =>
    have := statement.shrinks s s' n hStep
    obtain ⟨s'', total', last, hAlone, hLater⟩ := alone_eq_ok hRun hs' (total + (n + 1))
    exact ⟨s'', total', last, (alone_of_more hStep total).trans hAlone, hLater⟩
termination_by statement.size s

/-- What the repetitions report, they take from the measure. -/
theorem alone_total {measure : σ → ℕ}
    (hMeasure : ∀ s s' n, statement.run s = .ok (s', n) → measure s = measure s' + n)
    {s s' : σ} {total total' : ℕ} (h : statement.alone s total = .ok (s', total')) :
    total' + measure s' = total + measure s := by
  cases hStep : statement.run s with
  | error e =>
    rw [alone] at h
    split at h
    next => cases h
    next hRun => cases hStep.symm.trans hRun
    next hRun => cases hStep.symm.trans hRun
  | ok reported =>
    obtain ⟨middle, n⟩ := reported
    have hMeasured := hMeasure s middle n hStep
    cases n with
    | zero =>
      cases (alone_of_done hStep total).symm.trans h
      omega
    | succ n =>
      have := statement.shrinks s middle n hStep
      have hLater := alone_total hMeasure ((alone_of_more hStep total).symm.trans h)
      omega
termination_by statement.size s

theorem among_eq_ok (hRun : ∀ s, inv s → ∃ s' n, statement.run s = .ok (s', n) ∧ inv s')
    (others : List (σ → σ)) (hOthers : ∀ other ∈ others, ∀ s, inv s → inv (other s))
    {s : σ} (hs : inv s) (total : ℕ) :
    ∃ s' total' rest, statement.among others s total = .ok (s', total', rest) ∧ inv s' ∧
      rest.Sublist others := by
  induction others generalizing s total with
  | nil =>
    obtain ⟨s', total', -, hAlone, hs', -⟩ := alone_eq_ok hRun hs total
    exact ⟨s', total', [], by rw [among, hAlone]; rfl, hs', .slnil⟩
  | cons other others ih =>
    rw [List.forall_mem_cons] at hOthers
    obtain ⟨s', n, hStep, hs'⟩ := hRun (other s) (hOthers.1 s hs)
    cases n with
    | zero => exact ⟨s', total, others, by rw [among, hStep], hs', List.sublist_cons_self _ _⟩
    | succ n =>
      obtain ⟨s'', total', rest, hAmong, hs'', hRest⟩ := ih hOthers.2 hs' (total + (n + 1))
      exact ⟨s'', total', rest, by rw [among, hStep]; exact hAmong, hs'',
        hRest.trans (List.sublist_cons_self _ _)⟩

end Statement

end KalshiBot.ChunkedLoop

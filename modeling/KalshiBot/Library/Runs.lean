import Mathlib.Data.List.Induction
import Mathlib.Logic.Relation
import Mathlib.Order.Defs.PartialOrder

/-! # Runs of a transition system

A run is a finite sequence of steps: a chain of the reflexive and transitive closure of
a relation, or the fold of a step function over a list of events. What every step
keeps, every run keeps.
-/

namespace KalshiBot.Runs

open Relation

set_option autoImplicit false

variable {σ : Type}

section Relations

variable {step : σ → σ → Prop}

def Preserves (step : σ → σ → Prop) (inv : σ → Prop) : Prop :=
  ∀ s s', step s s' → inv s → inv s'

theorem Preserves.run {inv : σ → Prop} (h : Preserves step inv) {s s' : σ}
    (hRun : ReflTransGen step s s') (hs : inv s) : inv s' := by
  induction hRun with
  | refl => exact hs
  | tail _ hStep ih => exact h _ _ hStep ih

end Relations

section Events

variable {ε : Type} {step : σ → ε → σ} {condition : σ → ε → Prop} {start : σ} {events : List ε}
  {event : ε}

/-- Every event of the run meets the condition in the state in which it happens. -/
def Throughout (step : σ → ε → σ) (condition : σ → ε → Prop) (start : σ) (events : List ε) : Prop :=
  ∀ before event after, events = before ++ event :: after → condition (before.foldl step start) event

/-- Every state of the run, its first and its last among them. -/
def Always (step : σ → ε → σ) (property : σ → Prop) (start : σ) (events : List ε) : Prop :=
  ∀ before after, events = before ++ after → property (before.foldl step start)

theorem throughout_nil : Throughout step condition start [] := by
  intro before event after h
  cases List.append_eq_nil_iff.mp h.symm |>.2

theorem Throughout.cons (hHead : condition start event)
    (hTail : Throughout step condition (step start event) events) :
    Throughout step condition start (event :: events) := by
  rintro (_ | ⟨first, before⟩) e after h
  · obtain ⟨rfl, rfl⟩ := List.cons.inj h
    exact hHead
  · obtain ⟨rfl, hRest⟩ := List.cons.inj h
    exact hTail before e after hRest

theorem Throughout.before {later : List ε} (h : Throughout step condition start (events ++ later)) :
    Throughout step condition start events := by
  rintro before e after rfl
  exact h before e (after ++ later) (by simp)

theorem Throughout.last (h : Throughout step condition start (events ++ [event])) :
    condition (events.foldl step start) event :=
  h events event [] rfl

theorem Throughout.invariant {inv : σ → Prop}
    (hStep : ∀ s e, condition s e → inv s → inv (step s e)) (hStart : inv start)
    (h : Throughout step condition start events) : inv (events.foldl step start) := by
  induction events using List.reverseRecOn with
  | nil => exact hStart
  | append_singleton events event ih =>
    rw [List.foldl_append]
    exact hStep _ _ h.last (ih h.before)

theorem Throughout.always {inv : σ → Prop}
    (hStep : ∀ s e, condition s e → inv s → inv (step s e)) (hStart : inv start)
    (h : Throughout step condition start events) : Always step inv start events := by
  rintro before after rfl
  exact Throughout.invariant hStep hStart h.before

/-- A property that some steps keep and the others break holds all along the runs without such
a break. -/
theorem always_iff_throughout {property : σ → Prop} (hStart : property start)
    (hStep : ∀ before event after, events = before ++ event :: after →
      property (before.foldl step start) →
        (property (step (before.foldl step start) event) ↔ condition (before.foldl step start) event)) :
    Always step property start events ↔ Throughout step condition start events := by
  constructor
  · intro h before event after hEvents
    refine (hStep before event after hEvents (h before _ hEvents)).mp ?_
    have hNext := h (before ++ [event]) after (by simpa using hEvents)
    rwa [List.foldl_append] at hNext
  · intro h before
    induction before using List.reverseRecOn with
    | nil => exact fun _ _ => hStart
    | append_singleton before event ih =>
      intro after hEvents
      rw [List.append_assoc] at hEvents
      rw [List.foldl_append]
      exact (hStep before event after hEvents (ih _ hEvents)).mpr (h before event after hEvents)

/-- The second list is the first with hidden events put in, anywhere and any number of them. -/
inductive Inserted (hidden : ε → Prop) : List ε → List ε → Prop
  | nil : Inserted hidden [] []
  | keep (event : ε) {events events' : List ε} (h : Inserted hidden events events') :
      Inserted hidden (event :: events) (event :: events')
  | insert {event : ε} (hHidden : hidden event) {events events' : List ε}
      (h : Inserted hidden events events') : Inserted hidden events (event :: events')

/-- What every event keeps the same, and no hidden event makes different, is the same after the
two runs. -/
theorem Inserted.run {hidden : ε → Prop} {same : σ → σ → Prop}
    (hStep : ∀ s t e, same s t → same (step s e) (step t e))
    (hHidden : ∀ s t e, hidden e → same s t → same s (step t e)) {events events' : List ε}
    (h : Inserted hidden events events') {s t : σ} (hSame : same s t) :
    same (events.foldl step s) (events'.foldl step t) := by
  induction h generalizing s t with
  | nil => exact hSame
  | keep event _ ih => exact ih (hStep s t event hSame)
  | insert hEvent _ ih => exact ih (hHidden s t _ hEvent hSame)

end Events

section Answers

variable {ε ω T : Type} [Preorder T] {step : σ → ε → σ} {answer : σ → ε → ω}
  {time : ε → Option T} {hidden : ε → Prop}

/-- What each event of a run is answered, in the state in which it happens. -/
def answers (step : σ → ε → σ) (answer : σ → ε → ω) (s : σ) : List ε → List ω
  | [] => []
  | event :: events => answer s event :: answers step answer (step s event) events

/-- What is left of a list when the marked elements are taken out. -/
def unmarked {α : Type} (marked : List (α × Bool)) : List α :=
  (marked.filter fun x => !x.2).map Prod.fst

/-- The times that events carry never go back. -/
def Chronological (time : ε → Option T) (events : List ε) : Prop :=
  (events.filterMap time).Pairwise (· ≤ ·)

instance [DecidableLE T] (time : ε → Option T) (events : List ε) :
    Decidable (Chronological time events) :=
  inferInstanceAs (Decidable (List.Pairwise _ _))

theorem Chronological.le_of_head {event : ε} {events : List ε} {now later : T}
    (h : Chronological time (event :: events)) (hNow : time event = some now)
    (hLater : later ∈ events.filterMap time) : now ≤ later := by
  rw [Chronological, List.filterMap_cons_some hNow] at h
  exact (List.pairwise_cons.mp h).1 later hLater

theorem Chronological.tail {event : ε} {events : List ε}
    (h : Chronological time (event :: events)) : Chronological time events := by
  rw [Chronological, List.filterMap_cons] at h
  split at h
  · exact h
  · exact (List.pairwise_cons.mp h).2

section Unwinding

variable {alike : T → σ → σ → Prop}
  (hLater : ∀ now later s t, now ≤ later → alike now s t → alike later s t)
  (hAnswer : ∀ now s t e, (∀ moment ∈ time e, moment = now) → alike now s t → answer s e = answer t e)
  (hStep : ∀ now s t e, (∀ moment ∈ time e, moment = now) → alike now s t →
    alike now (step s e) (step t e))
  (hHidden : ∀ now s t e, hidden e → (∀ moment ∈ time e, moment = now) → alike now s t →
    alike now (step s e) t)

include hLater hAnswer hStep hHidden

theorem answers_unmarked_from {run : List (ε × Bool)} (hMarked : ∀ e, (e, true) ∈ run → hidden e)
    (hOrder : Chronological time (run.map Prod.fst)) {now : T} {s t : σ} (hAlike : alike now s t)
    (hNow : ∀ later ∈ (run.map Prod.fst).filterMap time, now ≤ later) :
    unmarked ((answers step answer s (run.map Prod.fst)).zip (run.map Prod.snd)) =
      answers step answer t (unmarked run) := by
  induction run generalizing now s t with
  | nil => rfl
  | cons head run ih =>
    obtain ⟨event, mark⟩ := head
    -- the moment of the event, which is any moment so far if it carries no time
    obtain ⟨here, hHere, hAfter, hAlike⟩ : ∃ here, (∀ moment ∈ time event, moment = here) ∧
        (∀ later ∈ (run.map Prod.fst).filterMap time, here ≤ later) ∧ alike here s t := by
      cases hTime : time event with
      | none =>
        refine ⟨now, nofun, fun later hMem => hNow later ?_, hAlike⟩
        rw [List.map_cons, List.filterMap_cons_none hTime]
        exact hMem
      | some here =>
        refine ⟨here, ?_, fun later hMem => hOrder.le_of_head hTime hMem, hLater now here s t ?_ hAlike⟩
        · rintro moment ⟨⟩
          rfl
        · refine hNow here ?_
          rw [List.map_cons, List.filterMap_cons_some hTime]
          exact List.mem_cons_self
    have hRest := fun e hMem => hMarked e (List.mem_cons_of_mem _ hMem)
    cases mark with
    | true =>
      exact ih hRest hOrder.tail
        (hHidden here s t event (hMarked event List.mem_cons_self) hHere hAlike) hAfter
    | false =>
      exact congrArg₂ List.cons (hAnswer here s t event hHere hAlike)
        (ih hRest hOrder.tail (hStep here s t event hHere hAlike) hAfter)

/-- Taking hidden events out of a run does not show in what the other events are answered, where
`alike now` is about what can be seen from `now` on. -/
theorem answers_unmarked [Nonempty T] {run : List (ε × Bool)}
    (hMarked : ∀ e, (e, true) ∈ run → hidden e)
    (hOrder : Chronological time (run.map Prod.fst)) {s : σ} (hAlike : ∀ now, alike now s s) :
    unmarked ((answers step answer s (run.map Prod.fst)).zip (run.map Prod.snd)) =
      answers step answer s (unmarked run) := by
  obtain ⟨now, hNow⟩ : ∃ now, ∀ later ∈ (run.map Prod.fst).filterMap time, now ≤ later := by
    rw [Chronological] at hOrder
    cases hTimes : (run.map Prod.fst).filterMap time with
    | nil => exact ⟨Classical.arbitrary T, nofun⟩
    | cons first rest =>
      rw [hTimes] at hOrder
      refine ⟨first, fun later hMem => ?_⟩
      obtain rfl | hMem := List.mem_cons.mp hMem
      · exact le_rfl
      · exact (List.pairwise_cons.mp hOrder).1 later hMem
  exact answers_unmarked_from hLater hAnswer hStep hHidden hMarked hOrder (hAlike now) hNow

end Unwinding

end Answers

end KalshiBot.Runs

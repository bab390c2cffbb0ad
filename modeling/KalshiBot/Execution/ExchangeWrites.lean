import KalshiBot.Execution.OrderDispatcher
import KalshiBot.Transport.Retry

/-! # Writes on the exchange under retries

Each dispatcher operation builds its request once and every attempt sends it again. An
order's client id makes a second creation harmless, and cancelling or reducing to a
count twice is the same as once. Nothing does this for a reduction by an amount.
-/

namespace KalshiBot.Execution

open PythonText Retry Transport

set_option autoImplicit false

inductive Write where
  | create (request : OrderRequest)
  | cancel (orderId : String) (exchangeIndex : ℤ)
  | reduceTo (orderId : String) (count : ℤ) (exchangeIndex : ℤ)
  | reduceBy (orderId : String) (amount : ℤ) (exchangeIndex : ℤ)

/-- What the dispatcher relies on: the exchange's states, what it makes of a write, and
the contracts an order has resting. -/
structure Exchange (σ : Type) where
  apply : Write → σ → σ
  resting : σ → String → Option ℤ
  create_once : ∀ request again s, again.clientOrderId = request.clientOrderId →
    apply (.create again) (apply (.create request) s) = apply (.create request) s
  cancel_twice : ∀ orderId i s,
    apply (.cancel orderId i) (apply (.cancel orderId i) s) = apply (.cancel orderId i) s
  reduceTo_twice : ∀ orderId count i s, apply (.reduceTo orderId count i)
    (apply (.reduceTo orderId count i) s) = apply (.reduceTo orderId count i) s
  resting_reduceBy : ∀ orderId amount i s,
    resting (apply (.reduceBy orderId amount i) s) orderId = (resting s orderId).map (· - amount)
  reduceBy_inert : ∀ orderId amount i s, amount = 0 ∨ resting s orderId = none →
    apply (.reduceBy orderId amount i) s = s

/-- The operations of the dispatcher, with the answer of the order guard. -/
inductive Operation where
  | dispatch (call : DispatchCall) (r : DispatchReadings)
  | cancel (orderId : String) (exchangeIndex : ℤ) (permitted : Bool)
  | decrease (orderId : String) (reduceTo reduceBy : Option ℤ) (exchangeIndex : ℤ)
      (permitted : Bool)

/-- The write that the operation requests, `none` if it raises before any request or is a
shadow fire. -/
def Operation.write? : Operation → Option Write
  | dispatch call r => (openDispatch call r).bind fun opened =>
      if opened.1.dryRun then none else some (.create opened.1.request)
  | cancel orderId exchangeIndex permitted =>
    if permitted then some (.cancel orderId exchangeIndex) else none
  | decrease orderId reduceTo reduceBy exchangeIndex permitted =>
    match reduceTo, reduceBy with
    | some count, none => if permitted then some (.reduceTo orderId count exchangeIndex) else none
    | none, some amount => if permitted then some (.reduceBy orderId amount exchangeIndex) else none
    | some _, some _ | none, none => none

variable {σ : Type}

/-- The exchange when the operation returns or raises. -/
def Operation.exchangeAfter (op : Operation) (exchange : Exchange σ) (attempts : ℕ → HttpAttempt)
    (s : σ) : σ :=
  match op.write? with
  | none => s
  | some w => (write (exchange.apply w) attempts s).2

def Operation.AppliedAtMostOnce (op : Operation) (exchange : Exchange σ) (s after : σ) : Prop :=
  after = s ∨ ∃ w, op.write? = some w ∧ after = exchange.apply w s

/-- The operation is no reduction by an amount, or one that changes nothing, or the
exchange applies at most one of the attempts that are made. -/
def Operation.SafeToRepeat (op : Operation) (exchange : Exchange σ) (attempts : ℕ → HttpAttempt)
    (s : σ) : Prop :=
  ∀ orderId amount i, op.write? = some (.reduceBy orderId amount i) →
    amount = 0 ∨ exchange.resting s orderId = none ∨
      (attemptsMade attempts).countP HttpAttempt.applied ≤ 1

namespace Exchange

variable (exchange : Exchange σ)

theorem apply_twice {w : Write} (h : ∀ orderId amount i, w ≠ .reduceBy orderId amount i) (s : σ) :
    exchange.apply w (exchange.apply w s) = exchange.apply w s := by
  cases w with
  | create request => exact exchange.create_once request request s rfl
  | cancel orderId i => exact exchange.cancel_twice orderId i s
  | reduceTo orderId count i => exact exchange.reduceTo_twice orderId count i s
  | reduceBy orderId amount i => exact absurd rfl (h orderId amount i)

theorem resting_iterate (orderId : String) (amount i : ℤ) (k : ℕ) (s : σ) :
    exchange.resting ((exchange.apply (.reduceBy orderId amount i))^[k] s) orderId =
      (exchange.resting s orderId).map (· - k * amount) := by
  induction k with
  | zero => simp
  | succ k ih =>
    rw [Function.iterate_succ_apply', exchange.resting_reduceBy, ih, Option.map_map]
    congr 1
    funext count
    simp only [Function.comp, Nat.cast_add, Nat.cast_one]
    ring

theorem eq_of_resting_iterate {orderId : String} {amount i count : ℤ} {s : σ} (hAmount : amount ≠ 0)
    (hResting : exchange.resting s orderId = some count) {k n : ℕ}
    (h : (exchange.apply (.reduceBy orderId amount i))^[k] s =
      (exchange.apply (.reduceBy orderId amount i))^[n] s) : k = n := by
  have hCount := congrArg (exchange.resting · orderId) h
  simp only [resting_iterate, hResting, Option.map_some, Option.some.injEq] at hCount
  have hProduct : (k : ℤ) * amount = n * amount := by omega
  exact_mod_cast mul_right_cancel₀ hAmount hProduct

end Exchange

/-- A write survives its retries as at most one, exactly when it is safe to repeat. -/
theorem appliedAtMostOnce_iff (exchange : Exchange σ) (op : Operation) (attempts : ℕ → HttpAttempt)
    (s : σ) : op.AppliedAtMostOnce exchange s (op.exchangeAfter exchange attempts s) ↔
      op.SafeToRepeat exchange attempts s := by
  cases hWrite : op.write? with
  | none =>
    refine iff_of_true (.inl ?_) ?_
    · rw [Operation.exchangeAfter, hWrite]
    · intro orderId amount i h
      cases hWrite.symm.trans h
  | some w =>
    simp only [Operation.AppliedAtMostOnce, Operation.SafeToRepeat, Operation.exchangeAfter, hWrite,
      write_state, Option.some.injEq, exists_eq_left']
    by_cases hAmount : ∃ orderId amount i, w = .reduceBy orderId amount i
    · obtain ⟨orderId, amount, i, rfl⟩ := hAmount
      constructor
      · intro h _ _ _ hSame
        obtain ⟨rfl, rfl, rfl⟩ := Write.reduceBy.inj hSame
        by_cases hZero : amount = 0
        · exact .inl hZero
        cases hResting : exchange.resting s orderId with
        | none => exact .inr (.inl rfl)
        | some count =>
          refine .inr (.inr ?_)
          obtain hBefore | hOnce := h
          · exact (exchange.eq_of_resting_iterate hZero hResting (n := 0) hBefore).le.trans
              zero_le_one
          · exact (exchange.eq_of_resting_iterate hZero hResting (n := 1) hOnce).le
      · intro h
        obtain hZero | hNone | hFew := h orderId amount i rfl
        · exact .inl (Function.iterate_fixed (exchange.reduceBy_inert _ _ _ _ (.inl hZero)) _)
        · exact .inl (Function.iterate_fixed (exchange.reduceBy_inert _ _ _ _ (.inr hNone)) _)
        · obtain hNever | hOnce := Nat.le_one_iff_eq_zero_or_eq_one.mp hFew
          · rw [hNever]
            exact .inl rfl
          · rw [hOnce]
            exact .inr rfl
    · refine iff_of_true ?_ fun orderId amount i h => absurd ⟨orderId, amount, i, h⟩ hAmount
      apply iterate_of_idempotent
      exact exchange.apply_twice fun orderId amount i h => hAmount ⟨orderId, amount, i, h⟩

/-- A book that behaves as the exchange is taken to. -/
structure Book where
  created : List String
  remaining : String → Option ℤ

def Book.update (book : Book) (orderId : String) (f : Option ℤ → Option ℤ) : Book :=
  { book with remaining := Function.update book.remaining orderId (f (book.remaining orderId)) }

def bookExchange : Exchange Book where
  apply
    | .create request, book =>
      if request.clientOrderId ∈ book.created then book
      else { book.update request.clientOrderId fun _ => (parseFloat request.count).map truncate with
        created := request.clientOrderId :: book.created }
    | .cancel orderId _, book => book.update orderId fun _ => none
    | .reduceTo orderId count _, book => book.update orderId (Option.map (min count))
    | .reduceBy orderId amount _, book => book.update orderId (Option.map (· - amount))
  resting book orderId := book.remaining orderId
  create_once request again book h := by
    by_cases hCreated : request.clientOrderId ∈ book.created <;> simp [h, hCreated]
  cancel_twice orderId i book := by simp [Book.update]
  reduceTo_twice orderId count i book := by
    simp [Book.update, Function.comp_def]
  resting_reduceBy orderId amount i book := by simp [Book.update]
  reduceBy_inert orderId amount i book h := by
    obtain rfl | hNone := h
    · simp [Book.update]
    · show book.update orderId (Option.map (· - amount)) = book
      rw [Book.update, hNone, Option.map_none, ← hNone, Function.update_eq_self]

/-- The first attempt is applied and answered with a `503`, the second succeeds. -/
def appliedThenRefused (n : ℕ) : HttpAttempt :=
  if n = 1 then ⟨.error (.clientResponse 503), true, nofun, by simp⟩
  else ⟨.ok (.dict []), true, fun _ _ => rfl, nofun⟩

theorem decrease_applied_twice :
    ¬(Operation.decrease "order-1" none (some 1) (-1) true).AppliedAtMostOnce bookExchange
      ⟨[], fun _ => some 5⟩
      ((Operation.decrease "order-1" none (some 1) (-1) true).exchangeAfter bookExchange
        appliedThenRefused ⟨[], fun _ => some 5⟩) := by
  have hAfter : ((Operation.decrease "order-1" none (some 1) (-1) true).exchangeAfter bookExchange
      appliedThenRefused ⟨[], fun _ => some 5⟩).remaining "order-1" = some 3 := by decide
  rintro (hBefore | ⟨w, hWrite, hOnce⟩)
  · rw [hBefore] at hAfter
    cases hAfter
  · obtain rfl := Option.some.inj hWrite
    rw [hOnce] at hAfter
    revert hAfter
    decide

end KalshiBot.Execution

import KalshiBot.Library.PythonText
import KalshiBot.Library.Retry

/-! # The retry policy of the transport

`with_retries` makes three attempts at most and repeats a request after a `429`, a
listed `5xx` or a connection failure, never after a timeout.
-/

namespace KalshiBot.Transport

open PythonText Retry

set_option autoImplicit false

/-- What an attempt can raise, as `is_retryable` tells the classes apart. -/
inductive TransportError where
  | clientResponse (status : ℕ)
  | serverTimeout
  | clientConnection
  | timeout
  | other

def retryableStatuses : List ℕ := [429, 500, 502, 503, 504]

def attemptLimit : ℕ := 3

def isRetryable : TransportError → Bool
  | .clientResponse status => status ∈ retryableStatuses
  | .serverTimeout => false
  | .clientConnection => true
  | .timeout | .other => false

def withRetries {σ : Type} (operation : ℕ → σ → Except TransportError PyValue × σ) (s : σ) :
    Except TransportError PyValue × σ :=
  retrying isRetryable operation (attemptLimit - 1) 1 s

/-- One HTTP attempt at a write: what the client sees of it, and whether the exchange
applied it. A success was applied and a `429` was not; any other failure leaves it open. -/
structure HttpAttempt where
  result : Except TransportError PyValue
  applied : Bool
  applied_of_ok : ∀ body, result = .ok body → applied = true
  not_applied_of_limited : result = .error (.clientResponse 429) → applied = false

/-- The attempts that are made of those that may follow one another. -/
def attemptsMade (attempts : ℕ → HttpAttempt) : List HttpAttempt :=
  made (fun attempt => isRetried isRetryable attempt.result) attempts (attemptLimit - 1) 1

def write {σ : Type} (apply : σ → σ) (attempts : ℕ → HttpAttempt) (s : σ) :
    Except TransportError PyValue × σ :=
  withRetries (fun n s => ((attempts n).result, if (attempts n).applied then apply s else s)) s

theorem write_state {σ : Type} (apply : σ → σ) (attempts : ℕ → HttpAttempt) (s : σ) :
    (write apply attempts s).2 = apply^[(attemptsMade attempts).countP HttpAttempt.applied] s := by
  rw [write, withRetries, retrying_of_tape isRetryable HttpAttempt.result
    (fun attempt s => if attempt.applied then apply s else s) fun _ _ => rfl]
  exact foldl_ite_eq_iterate HttpAttempt.applied apply _ s

end KalshiBot.Transport

import Mathlib.Logic.Function.Iterate

/-! # Bounded retries

An operation is tried again on a failure that the policy calls retryable, up to a
number of extra times. When what comes of a try does not depend on the state, the
tries made are a prefix of a tape and the state is what they leave one after another.
-/

namespace KalshiBot.Retry

set_option autoImplicit false

variable {σ ε α β : Type}

def retrying (retryable : ε → Bool) (operation : ℕ → σ → Except ε α × σ) :
    ℕ → ℕ → σ → Except ε α × σ
  | 0, n, s => operation n s
  | extra + 1, n, s =>
    match operation n s with
    | (.error e, s) =>
      if retryable e then retrying retryable operation extra (n + 1) s else (.error e, s)
    | (.ok a, s) => (.ok a, s)

def isRetried (retryable : ε → Bool) : Except ε α → Bool
  | .error e => retryable e
  | .ok _ => false

/-- The tries that are made: each one up to the first that asks for no other. -/
def made (again : β → Bool) (tape : ℕ → β) : ℕ → ℕ → List β
  | 0, n => [tape n]
  | extra + 1, n => if again (tape n) then tape n :: made again tape extra (n + 1) else [tape n]

theorem retrying_of_tape (retryable : ε → Bool) (result : β → Except ε α) (effect : β → σ → σ)
    {operation : ℕ → σ → Except ε α × σ} {tape : ℕ → β}
    (h : ∀ n s, operation n s = (result (tape n), effect (tape n) s)) (extra n : ℕ) (s : σ) :
    (retrying retryable operation extra n s).2 =
      (made (fun x => isRetried retryable (result x)) tape extra n).foldl (fun s x => effect x s)
        s := by
  induction extra generalizing n s with
  | zero => rw [retrying, made, h]; rfl
  | succ extra ih =>
    rw [retrying, made, h]
    cases hResult : result (tape n) with
    | ok a => simp [isRetried]
    | error e =>
      by_cases hAgain : retryable e
      · simp only [isRetried, hAgain, if_true, ih, List.foldl_cons]
      · simp only [isRetried, hAgain, Bool.false_eq_true, if_false, List.foldl_cons, List.foldl_nil]

theorem retrying_result_of_tape (retryable : ε → Bool) (result : β → Except ε α)
    (effect : β → σ → σ) {operation : ℕ → σ → Except ε α × σ} {tape : ℕ → β}
    (h : ∀ n s, operation n s = (result (tape n), effect (tape n) s)) (extra n : ℕ) (s : σ) :
    (made (fun x => isRetried retryable (result x)) tape extra n).getLast?.map result =
      some (retrying retryable operation extra n s).1 := by
  induction extra generalizing n s with
  | zero => rw [retrying, made, h]; rfl
  | succ extra ih =>
    rw [retrying, made, h]
    cases hResult : result (tape n) with
    | ok a => simp [isRetried, hResult]
    | error e =>
      by_cases hAgain : retryable e
      · obtain ⟨last, hLast, hSame⟩ := Option.map_eq_some_iff.mp (ih (n + 1) (effect (tape n) s))
        have hHead : isRetried retryable (Except.error e : Except ε α) = true := hAgain
        rw [if_pos hHead, List.getLast?_cons, hLast]
        simp only [hAgain, if_true, ← hSame]
        rfl
      · simp [isRetried, hAgain, hResult]

theorem made_eq_append (again : β → Bool) (tape : ℕ → β) (extra n : ℕ) :
    ∃ earlier last, made again tape extra n = earlier ++ [last] ∧ ∀ x ∈ earlier, again x = true := by
  induction extra generalizing n with
  | zero => exact ⟨[], tape n, rfl, List.forall_mem_nil _⟩
  | succ extra ih =>
    rw [made]
    cases hAgain : again (tape n) with
    | true =>
      obtain ⟨earlier, last, hMade, hEarlier⟩ := ih (n + 1)
      rw [if_pos rfl, hMade]
      exact ⟨tape n :: earlier, last, rfl, List.forall_mem_cons.mpr ⟨hAgain, hEarlier⟩⟩
    | false => exact ⟨[], tape n, if_neg Bool.false_ne_true, List.forall_mem_nil _⟩

/-- Applying one effect for some of the entries iterates it as often as they are. -/
theorem foldl_ite_eq_iterate (p : β → Bool) (f : σ → σ) (entries : List β) (s : σ) :
    entries.foldl (fun s x => if p x then f s else s) s = f^[entries.countP p] s := by
  induction entries generalizing s with
  | nil => rfl
  | cons x entries ih =>
    rw [List.foldl_cons, ih, List.countP_cons]
    split
    · rw [Function.iterate_add_apply, Function.iterate_one]
    · rfl

theorem iterate_of_idempotent {f : σ → σ} (h : ∀ s, f (f s) = f s) (n : ℕ) (s : σ) :
    f^[n] s = s ∨ f^[n] s = f s := by
  induction n with
  | zero => exact .inl rfl
  | succ n ih =>
    right
    rw [Function.iterate_succ_apply']
    obtain hBefore | hOnce := ih
    · rw [hBefore]
    · rw [hOnce, h]

end KalshiBot.Retry

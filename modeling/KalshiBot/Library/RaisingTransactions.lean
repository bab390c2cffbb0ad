import KalshiBot.Library.Transactions

/-! # Batches whose errors are not all handled

The inserts raise errors of several kinds, and only some of them are handled. One that is not
leaves the batch where it is; what its transaction has not committed is lost. On a batch without
such a job this is writing a batch where every error is handled.
-/

namespace KalshiBot.Sqlite.Connection

set_option autoImplicit false

variable {σ α ε : Type}

def tryModify (c : Connection σ) (statement : σ → Except ε σ) : Except ε (Connection σ) :=
  (statement c.view).map fun s => { c with pending := some s }

def tryInsertAll (insert : σ → α → Except ε σ) (c : Connection σ) (batch : List α) :
    Except ε (Connection σ) :=
  batch.foldlM (fun c job => c.tryModify fun s => insert s job) c

/-- The connection afterwards, and the error that escapes. -/
def tryWriteRow (insert : σ → α → Except ε σ) (caught : ε → Bool) (c : Connection σ) (job : α) :
    Connection σ × Option ε :=
  match c.tryModify fun s => insert s job with
  | .ok c' => (c'.commit, none)
  | .error e => (c.rollback, if caught e then none else some e)

def tryWriteRows (insert : σ → α → Except ε σ) (caught : ε → Bool) (c : Connection σ) :
    List α → Connection σ × Option ε
  | [] => (c, none)
  | job :: rest =>
    match c.tryWriteRow insert caught job with
    | (c, none) => c.tryWriteRows insert caught rest
    | (c, some e) => (c, some e)

def tryWriteBatch (insert : σ → α → Except ε σ) (caught : ε → Bool) (c : Connection σ)
    (batch : List α) : Connection σ × Option ε :=
  match c.tryInsertAll insert batch with
  | .ok c' => (c'.commit, none)
  | .error e => if caught e then c.rollback.tryWriteRows insert caught batch else (c.rollback, some e)

/-- The insert where all errors are one. -/
def accepting (insert : σ → α → Except ε σ) (s : σ) (job : α) : Option σ := (insert s job).toOption

variable {insert : σ → α → Except ε σ} {caught : ε → Bool} {escaping : α → Option ε}

/-- Whether an error escapes, and which, shows from the job alone. -/
def EscapesBy (insert : σ → α → Except ε σ) (caught : ε → Bool) (escaping : α → Option ε) : Prop :=
  ∀ s job e, insert s job = .error e ∧ caught e = false ↔ escaping job = some e

theorem tryModify_eq_error {c : Connection σ} {statement : σ → Except ε σ} {e : ε} :
    c.tryModify statement = .error e ↔ statement c.view = .error e := by
  rw [tryModify]
  cases hState : statement c.view with
  | ok s =>
    constructor
    · intro h
      cases h
    · intro h
      cases h
  | error e' =>
    constructor
    · intro h
      cases h
      rfl
    · intro h
      cases h
      rfl

theorem tryModify_toOption (c : Connection σ) (job : α) :
    (c.tryModify fun s => insert s job).toOption = c.modify fun s => accepting insert s job := by
  rw [tryModify, modify, accepting]
  cases insert c.view job <;> rfl

theorem tryInsertAll_toOption (c : Connection σ) (batch : List α) :
    (c.tryInsertAll insert batch).toOption = c.insertAll (accepting insert) batch := by
  induction batch generalizing c with
  | nil => rfl
  | cons job batch ih =>
    rw [tryInsertAll, insertAll, List.foldlM_cons, List.foldlM_cons, ← tryModify_toOption]
    cases hJob : c.tryModify fun s => insert s job with
    | error e => rfl
    | ok c' => exact ih c'

section Escaping

variable (hEscapes : EscapesBy insert caught escaping)

include hEscapes

theorem caught_of_quiet {s : σ} {job : α} {e : ε} (hQuiet : escaping job = none)
    (hError : insert s job = .error e) : caught e = true := by
  rw [← Bool.not_eq_false]
  intro hMissed
  cases hQuiet.symm.trans ((hEscapes s job e).mp ⟨hError, hMissed⟩)

theorem tryWriteRow_of_quiet (c : Connection σ) {job : α} (hQuiet : escaping job = none) :
    c.tryWriteRow insert caught job = (c.writeRow (accepting insert) job, none) := by
  rw [tryWriteRow, writeRow, ← tryModify_toOption]
  cases hJob : c.tryModify fun s => insert s job with
  | ok c' => rfl
  | error e =>
    have hCaught := caught_of_quiet hEscapes hQuiet (tryModify_eq_error.mp hJob)
    simp only [hCaught, if_true]
    rfl

theorem tryWriteRows_of_quiet (c : Connection σ) {batch : List α}
    (hQuiet : ∀ job ∈ batch, escaping job = none) :
    c.tryWriteRows insert caught batch = (batch.foldl (writeRow (accepting insert)) c, none) := by
  induction batch generalizing c with
  | nil => rfl
  | cons job batch ih =>
    obtain ⟨hJob, hRest⟩ := List.forall_mem_cons.mp hQuiet
    rw [tryWriteRows, tryWriteRow_of_quiet hEscapes c hJob]
    exact ih _ hRest

theorem tryInsertAll_caught {c : Connection σ} {batch : List α} {e : ε}
    (hQuiet : ∀ job ∈ batch, escaping job = none) (h : c.tryInsertAll insert batch = .error e) :
    caught e = true := by
  induction batch generalizing c with
  | nil => cases h
  | cons job batch ih =>
    obtain ⟨hJob, hRest⟩ := List.forall_mem_cons.mp hQuiet
    rw [tryInsertAll, List.foldlM_cons] at h
    cases hFirst : c.tryModify fun s => insert s job with
    | error e' =>
      rw [hFirst] at h
      cases h
      exact caught_of_quiet hEscapes hJob (tryModify_eq_error.mp hFirst)
    | ok c' =>
      rw [hFirst] at h
      exact ih hRest h

/-- Where no job raises what is not handled, the batch is written as if there were no such errors. -/
theorem tryWriteBatch_of_quiet (c : Connection σ) {batch : List α}
    (hQuiet : ∀ job ∈ batch, escaping job = none) :
    c.tryWriteBatch insert caught batch = (c.writeBatch (accepting insert) batch, none) := by
  rw [tryWriteBatch, writeBatch, ← tryInsertAll_toOption]
  cases hAll : c.tryInsertAll insert batch with
  | ok c' => rfl
  | error e =>
    simp only [tryInsertAll_caught hEscapes hQuiet hAll, if_true]
    exact tryWriteRows_of_quiet hEscapes c.rollback hQuiet

theorem tryInsertAll_of_escaping (c : Connection σ) {batch : List α}
    (hLoud : ∃ job ∈ batch, escaping job ≠ none) : ∃ e, c.tryInsertAll insert batch = .error e := by
  induction batch generalizing c with
  | nil => simp at hLoud
  | cons job batch ih =>
    rw [tryInsertAll, List.foldlM_cons]
    cases hFirst : c.tryModify fun s => insert s job with
    | error e => exact ⟨e, rfl⟩
    | ok c' =>
      obtain ⟨loud, hMem, hLoud⟩ := hLoud
      obtain rfl | hRest := List.mem_cons.mp hMem
      · obtain ⟨e, hSome⟩ := Option.ne_none_iff_exists'.mp hLoud
        have hError : (c.tryModify fun s => insert s loud) = .error e :=
          tryModify_eq_error.mpr ((hEscapes c.view loud e).mpr hSome).1
        cases hFirst.symm.trans hError
      · exact ih c' ⟨loud, hRest, hLoud⟩

theorem tryWriteRows_of_escaping (c : Connection σ) {batch : List α}
    (hLoud : ∃ job ∈ batch, escaping job ≠ none) :
    (c.tryWriteRows insert caught batch).2 ≠ none := by
  induction batch generalizing c with
  | nil => simp at hLoud
  | cons job batch ih =>
    rw [tryWriteRows]
    cases hHere : escaping job with
    | none =>
      rw [tryWriteRow_of_quiet hEscapes c hHere]
      obtain ⟨loud, hMem, hLoud⟩ := hLoud
      obtain rfl | hRest := List.mem_cons.mp hMem
      · exact absurd hHere hLoud
      · exact ih _ ⟨loud, hRest, hLoud⟩
    | some e =>
      obtain ⟨hError, hMissed⟩ := (hEscapes c.view job e).mpr hHere
      rw [tryWriteRow, tryModify_eq_error.mpr hError]
      simp only [hMissed, Bool.false_eq_true, if_false]
      exact Option.some_ne_none e

theorem tryWriteBatch_eq_none_iff (c : Connection σ) (batch : List α) :
    (c.tryWriteBatch insert caught batch).2 = none ↔ ∀ job ∈ batch, escaping job = none := by
  constructor
  · intro hNone
    by_contra hNot
    simp only [not_forall] at hNot
    obtain ⟨job, hMem, hLoud⟩ := hNot
    obtain ⟨e, hAll⟩ := tryInsertAll_of_escaping hEscapes c ⟨job, hMem, hLoud⟩
    rw [tryWriteBatch, hAll] at hNone
    cases hCaught : caught e with
    | true =>
      simp only [hCaught, if_true] at hNone
      exact tryWriteRows_of_escaping hEscapes c.rollback ⟨job, hMem, hLoud⟩ hNone
    | false =>
      simp only [hCaught, Bool.false_eq_true, if_false] at hNone
      cases hNone
  · intro hQuiet
    rw [tryWriteBatch_of_quiet hEscapes c hQuiet]

end Escaping

end KalshiBot.Sqlite.Connection

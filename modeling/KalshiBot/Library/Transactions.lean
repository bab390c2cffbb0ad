import Mathlib.Data.List.Basic

/-! # Transactions on a connection, and batches written through it

A batch goes into one transaction; if one of its statements raises, the transaction is
rolled back and every job gets a transaction of its own. Whichever way a batch goes,
it leaves what the jobs leave that are written one by one, those that raise skipped.
-/

namespace KalshiBot.Sqlite

set_option autoImplicit false

/-- `pending` is what the open transaction has made of the committed state; `commits` lists
the states committed so far. -/
structure Connection (σ : Type) where
  committed : σ
  pending : Option σ := none
  commits : List σ := []

namespace Connection

variable {σ α : Type}

def view (c : Connection σ) : σ := c.pending.getD c.committed

/-- A statement that changes rows, which opens a transaction if none is open. -/
def modify (c : Connection σ) (statement : σ → Option σ) : Option (Connection σ) :=
  (statement c.view).map fun s => { c with pending := some s }

def commit (c : Connection σ) : Connection σ :=
  match c.pending with
  | none => c
  | some s => { committed := s, pending := none, commits := c.commits ++ [s] }

def rollback (c : Connection σ) : Connection σ := { c with pending := none }

def begin (c : Connection σ) : Option (Connection σ) :=
  match c.pending with
  | none => some { c with pending := some c.committed }
  | some _ => none

/-- A statement that opens no transaction: outside of one it is committed at once. -/
def execute (c : Connection σ) (statement : σ → Option σ) : Option (Connection σ) :=
  match c.pending with
  | none => (statement c.committed).map fun s =>
    { committed := s, pending := none, commits := c.commits ++ [s] }
  | some s => (statement s).map fun s' => { c with pending := some s' }

def insertAll (insert : σ → α → Option σ) (c : Connection σ) (batch : List α) :
    Option (Connection σ) :=
  batch.foldlM (fun c job => c.modify fun s => insert s job) c

def writeRow (insert : σ → α → Option σ) (c : Connection σ) (job : α) : Connection σ :=
  match c.modify fun s => insert s job with
  | some c' => c'.commit
  | none => c.rollback

def writeBatch (insert : σ → α → Option σ) (c : Connection σ) (batch : List α) : Connection σ :=
  match c.insertAll insert batch with
  | some c' => c'.commit
  | none => batch.foldl (writeRow insert) c.rollback

/-- A job written where a failure leaves everything as it was. -/
def keep (insert : σ → α → Option σ) (s : σ) (job : α) : σ := (insert s job).getD s

theorem keep_of_eq_some {insert : σ → α → Option σ} {s s' : σ} {job : α}
    (h : insert s job = some s') : keep insert s job = s' := by
  rw [keep, h, Option.getD_some]

theorem view_insertAll (insert : σ → α → Option σ) {c c' : Connection σ} {batch : List α}
    (h : c.insertAll insert batch = some c') : c'.view = batch.foldl (keep insert) c.view ∧
      c'.committed = c.committed ∧ c'.commits = c.commits := by
  induction batch generalizing c with
  | nil =>
    cases h
    exact ⟨rfl, rfl, rfl⟩
  | cons job batch ih =>
    rw [insertAll, List.foldlM_cons, Option.bind_eq_bind, Option.bind_eq_some_iff] at h
    obtain ⟨mid, hJob, hRest⟩ := h
    obtain ⟨s, hInsert, rfl⟩ := Option.map_eq_some_iff.mp hJob
    obtain ⟨hView, hCommitted, hCommits⟩ := ih hRest
    refine ⟨?_, hCommitted, hCommits⟩
    rw [hView, List.foldl_cons, keep_of_eq_some hInsert]
    rfl

/-- No transaction is open, and the states committed so far satisfy the one predicate and
lie in the order of the other, the one committed now last. -/
structure InOrder (p : σ → Prop) (r : σ → σ → Prop) (c : Connection σ) : Prop where
  closed : c.pending = none
  now : p c.committed
  each : ∀ s ∈ c.commits, p s ∧ r s c.committed
  pairwise : c.commits.Pairwise r

section Order

variable {p : σ → Prop} {r : σ → σ → Prop} (hRefl : ∀ s, r s s)
  (hTrans : ∀ {s t u}, r s t → r t u → r s u)

include hRefl hTrans

theorem InOrder.commit {c : Connection σ} (h : c.InOrder p r) {s : σ} (hNow : p s)
    (hLater : r c.committed s) :
    ({ committed := s, pending := none, commits := c.commits ++ [s] } : Connection σ).InOrder p r where
  closed := rfl
  now := hNow
  each t hMem := by
    obtain hMem | hMem := List.mem_append.mp hMem
    · exact ⟨(h.each t hMem).1, hTrans (h.each t hMem).2 hLater⟩
    · rw [List.mem_singleton.mp hMem]
      exact ⟨hNow, hRefl s⟩
  pairwise := by
    rw [List.pairwise_append]
    refine ⟨h.pairwise, List.pairwise_singleton r s, fun t hMem u hLast => ?_⟩
    rw [List.mem_singleton.mp hLast]
    exact hTrans (h.each t hMem).2 hLater

variable {insert : σ → α → Option σ}

theorem InOrder.writeRow {c : Connection σ} (h : c.InOrder p r) {job : α}
    (hStep : ∀ s, p s → p (keep insert s job) ∧ r s (keep insert s job)) :
    (c.writeRow insert job).InOrder p r ∧
      (c.writeRow insert job).committed = keep insert c.committed job := by
  have hView : c.view = c.committed := by rw [view, h.closed]; rfl
  cases hInsert : insert c.committed job with
  | none =>
    have hRow : c.writeRow insert job = c.rollback := by
      simp only [Connection.writeRow, modify, hView, hInsert, Option.map_none]
    rw [hRow, keep, hInsert]
    exact ⟨⟨rfl, h.now, h.each, h.pairwise⟩, rfl⟩
  | some s =>
    have hKeep : keep insert c.committed job = s := keep_of_eq_some hInsert
    have hRow : c.writeRow insert job =
        { committed := s, pending := none, commits := c.commits ++ [s] } := by
      simp only [Connection.writeRow, modify, hView, hInsert, Option.map_some, Connection.commit]
    obtain ⟨hNow, hLater⟩ := hStep c.committed h.now
    rw [hRow, hKeep]
    exact ⟨h.commit hRefl hTrans (hKeep ▸ hNow) (hKeep ▸ hLater), rfl⟩

theorem keep_foldl {batch : List α}
    (hStep : ∀ job ∈ batch, ∀ s, p s → p (keep insert s job) ∧ r s (keep insert s job)) {s : σ}
    (h : p s) : p (batch.foldl (keep insert) s) ∧ r s (batch.foldl (keep insert) s) := by
  induction batch generalizing s with
  | nil => exact ⟨h, hRefl s⟩
  | cons job batch ih =>
    obtain ⟨hNow, hLater⟩ := hStep job List.mem_cons_self s h
    obtain ⟨hLast, hRest⟩ := ih (fun job hMem => hStep job (List.mem_cons_of_mem _ hMem)) hNow
    exact ⟨hLast, hTrans hLater hRest⟩

theorem InOrder.writeRows {c : Connection σ} (h : c.InOrder p r) {batch : List α}
    (hStep : ∀ job ∈ batch, ∀ s, p s → p (keep insert s job) ∧ r s (keep insert s job)) :
    (batch.foldl (Connection.writeRow insert) c).InOrder p r ∧
      (batch.foldl (Connection.writeRow insert) c).committed =
        batch.foldl (keep insert) c.committed := by
  induction batch generalizing c with
  | nil => exact ⟨h, rfl⟩
  | cons job batch ih =>
    obtain ⟨hRow, hCommitted⟩ := h.writeRow hRefl hTrans (hStep job List.mem_cons_self)
    rw [List.foldl_cons, List.foldl_cons, ← hCommitted]
    exact ih hRow fun job hMem => hStep job (List.mem_cons_of_mem _ hMem)

theorem InOrder.writeBatch {c : Connection σ} (h : c.InOrder p r) {batch : List α}
    (hStep : ∀ job ∈ batch, ∀ s, p s → p (keep insert s job) ∧ r s (keep insert s job)) :
    (c.writeBatch insert batch).InOrder p r ∧
      (c.writeBatch insert batch).committed = batch.foldl (keep insert) c.committed := by
  have hClosed : c.rollback.InOrder p r := ⟨rfl, h.now, h.each, h.pairwise⟩
  have hView : c.view = c.committed := by rw [view, h.closed]; rfl
  unfold Connection.writeBatch
  split
  next c' hAll =>
    obtain ⟨hLast, hCommitted, hCommits⟩ := view_insertAll insert hAll
    rw [hView] at hLast
    obtain ⟨hNow, hLater⟩ := keep_foldl hRefl hTrans hStep h.now
    rw [← hLast] at hNow hLater ⊢
    unfold Connection.commit
    split
    next hPending =>
      have hSame : c'.view = c'.committed := by rw [view, hPending]; rfl
      refine ⟨⟨hPending, hSame ▸ hNow, ?_, hCommits ▸ h.pairwise⟩, hSame.symm⟩
      rw [hCommits, hCommitted]
      exact h.each
    next s hPending =>
      have hSame : c'.view = s := by rw [view, hPending]; rfl
      rw [hCommits, hSame]
      exact ⟨h.commit hRefl hTrans (hSame ▸ hNow) (hSame ▸ hLater), rfl⟩
  next => exact hClosed.writeRows hRefl hTrans hStep

theorem InOrder.writeBatches {c : Connection σ} (h : c.InOrder p r) {batches : List (List α)}
    (hStep : ∀ job ∈ batches.flatten, ∀ s, p s → p (keep insert s job) ∧ r s (keep insert s job)) :
    (batches.foldl (Connection.writeBatch insert) c).InOrder p r ∧
      (batches.foldl (Connection.writeBatch insert) c).committed =
        batches.flatten.foldl (keep insert) c.committed := by
  induction batches generalizing c with
  | nil => exact ⟨h, rfl⟩
  | cons batch batches ih =>
    rw [List.flatten_cons] at hStep
    obtain ⟨hBatch, hCommitted⟩ := h.writeBatch hRefl hTrans fun job hMem =>
      hStep job (List.mem_append_left _ hMem)
    rw [List.foldl_cons, List.flatten_cons, List.foldl_append, ← hCommitted]
    exact ih hBatch fun job hMem => hStep job (List.mem_append_right _ hMem)

end Order

/-- Between transactions a batch leaves no transaction open, and what its jobs leave committed. -/
theorem writeBatch_of_closed (insert : σ → α → Option σ) {c : Connection σ} (h : c.pending = none)
    (batch : List α) : (c.writeBatch insert batch).pending = none ∧
      (c.writeBatch insert batch).committed = batch.foldl (keep insert) c.committed := by
  have hOpen : c.InOrder (fun _ => True) (fun _ _ => True) :=
    ⟨h, trivial, fun _ _ => ⟨trivial, trivial⟩, List.pairwise_of_forall fun _ _ => trivial⟩
  obtain ⟨hOrder, hCommitted⟩ := hOpen.writeBatch (fun _ => trivial) (fun _ _ => trivial)
    fun (job : α) (_ : job ∈ batch) (_ : σ) _ => ⟨trivial, trivial⟩
  exact ⟨hOrder.closed, hCommitted⟩

end Connection

end KalshiBot.Sqlite

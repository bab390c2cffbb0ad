import KalshiBot.Library.ChunkedLoop
import KalshiBot.Telemetry.Rows

/-! # Retention

`prune` on a database file that other processes write between its statements. Rows have their `id`
here, and foreign keys are on. The checkpoint at the end changes no row.
-/

namespace KalshiBot.Telemetry

open PythonText Sqlite ChunkedLoop

set_option autoImplicit false

/-- An entry of `_RETENTION`. -/
structure Retention where
  table : Table
  column : Column
  days : ℤ

def retention : List Retention :=
  [⟨.latencyEvents, .startedAtMs, 30⟩, ⟨.decisionResults, .tsMs, 30⟩,
    ⟨.marketSnapshots, .observedAtMs, 14⟩, ⟨.indexObservations, .observedAtMs, 14⟩]

def childTables : List Table :=
  [.ordersFired, .latencyEvents, .decisionResults, .marketSnapshots, .indexObservations]

def allTables : List Table :=
  [.ordersFired, .fills, .marketSnapshots, .latencyEvents, .indexObservations, .decisionResults,
    .heartbeats, .accountSnapshots]

def cutoff (nowMs : ℤ) (entry : Retention) : ℤ := nowMs - entry.days * 86400000

/-- `value < ?` in a `WHERE`. A text comes after every number. -/
def lessThan (bound : ℤ) : Value → Bool
  | .integer i => i < bound
  | .real q => q < bound
  | .null | .text _ => false

def numberOf : Value → ℚ
  | .integer i => i
  | .real q => q
  | .null | .text _ => 0

/-- `value IN (values)` in a `WHERE`. -/
def isIn (values : List Value) (value : Value) : Bool := value ≠ .null && value ∈ values

def IsOlder (nowMs : ℤ) (entry : Retention) (row : Sqlite.Row Column) : Bool :=
  lessThan (cutoff nowMs entry) (row entry.column)

/-- The primary keys of the tables that are pruned. -/
def Keyed (s : Store) : Prop :=
  ∀ entry ∈ retention, ((s.rows entry.table).map fun row => row .id).Nodup ∧
    ∀ row ∈ s.rows entry.table, row .id ≠ .null

theorem Keyed.update {s : Store} (h : Keyed s) (table : Table)
    (correlations : List (Sqlite.Row Column)) {rows : List (Sqlite.Row Column)}
    (hRows : (((s.rows table).map fun row => row .id).Nodup →
      (∀ row ∈ s.rows table, row .id ≠ .null) →
        (rows.map fun row => row .id).Nodup ∧ ∀ row ∈ rows, row .id ≠ .null)) :
    Keyed ⟨correlations, Function.update s.rows table rows⟩ := by
  intro entry hMem
  obtain ⟨hNodup, hNull⟩ := h entry hMem
  obtain hSame | hOther := eq_or_ne entry.table table
  · simp only [hSame, Function.update_self] at hNodup hNull ⊢
    exact hRows hNodup hNull
  · simp only [Function.update_of_ne hOther]
    exact ⟨hNodup, hNull⟩

structure KeyedStore where
  store : Store
  keyed : Keyed store

namespace KeyedStore

def rows (file : KeyedStore) : Table → List (Sqlite.Row Column) := file.store.rows
def correlations (file : KeyedStore) : List (Sqlite.Row Column) := file.store.correlations

theorem nodup_ids (file : KeyedStore) {entry : Retention} (h : entry ∈ retention) :
    ((file.rows entry.table).map fun row => row .id).Nodup := (file.keyed entry h).1

/-- `DELETE FROM table WHERE …` -/
def delete (file : KeyedStore) (table : Table) (p : Sqlite.Row Column → Bool) :
    KeyedStore where
  store :=
    ⟨file.store.correlations,
      Function.update file.store.rows table ((file.store.rows table).filter (!p ·))⟩
  keyed := file.keyed.update table _ fun hNodup hNull =>
    ⟨hNodup.sublist (List.filter_sublist.map _), fun row hRow =>
      hNull row (List.mem_of_mem_filter hRow)⟩

def deleteCorrelations (file : KeyedStore) (p : Sqlite.Row Column → Bool) : KeyedStore where
  store := { file.store with correlations := file.store.correlations.filter (!p ·) }
  keyed := file.keyed

end KeyedStore

/-- A row for a table that refers to a correlation, and does. -/
structure ChildInsert where
  table : Table
  row : Sqlite.Row Column
  isChild : table ∈ childTables
  references : row .correlationId ≠ .null

/-- The file, and what writers have committed to it since the prune began. -/
structure Pruning where
  file : KeyedStore
  written : List ChildInsert

/-- The correlation's insert and the row's, if its id is free. -/
def commitInsert (s : Pruning) (w : ChildInsert) : Pruning :=
  if h : w.row .id ≠ .null ∧ ∀ row ∈ s.file.store.rows w.table, row .id ≠ w.row .id then
    { file :=
        { store :=
            ⟨insertOrIgnore correlationConstraints s.file.store.correlations
              fun c => if c = .correlationId then w.row .correlationId else .null,
              Function.update s.file.store.rows w.table (s.file.store.rows w.table ++ [w.row])⟩
          keyed := s.file.keyed.update w.table _ fun hNodup hNull => by
            refine ⟨?_, ?_⟩
            · rw [List.map_append, List.map_singleton, List.nodup_append]
              refine ⟨hNodup, List.nodup_singleton _, fun id hId last hLast => ?_⟩
              obtain ⟨row, hRow, rfl⟩ := List.mem_map.mp hId
              rw [List.mem_singleton.mp hLast]
              exact h.2 row hRow
            · rw [List.forall_mem_append, List.forall_mem_singleton]
              exact ⟨hNull, h.1⟩ }
      written := s.written ++ [w] }
  else s

def commitBatch (batch : List ChildInsert) (s : Pruning) : Pruning := batch.foldl commitInsert s

inductive PruneError where
  /-- A Python integer of more than 64 bits. -/
  | overflow
  | foreignKey

/-- The order in which SQLite visits rows when nothing asks for one. -/
structure ScanOrder where
  visit : List (Sqlite.Row Column) → List (Sqlite.Row Column)
  perm : ∀ rows, (visit rows).Perm rows

def byColumn (column : Column) (row other : Sqlite.Row Column) : Bool :=
  numberOf (row column) ≤ numberOf (other column)

def oldIds (chunk : ℕ) (nowMs : ℤ) (entry : Retention) (file : KeyedStore) : List Value :=
  ((((file.rows entry.table).filter (IsOlder nowMs entry)).mergeSort (byColumn entry.column)).take
    chunk).map fun row => row .id

/-- One statement of `_delete_older_than`, and its `rowcount`. -/
def deleteOldChunk (chunk : ℕ) (nowMs : ℤ) (entry : Retention) (s : Pruning) :
    Except PruneError (Pruning × ℕ) :=
  if InRange (cutoff nowMs entry) then
    let file := s.file.delete entry.table fun row => isIn (oldIds chunk nowMs entry s.file) (row .id)
    .ok ({ s with file }, (s.file.rows entry.table).length - (file.rows entry.table).length)
  else .error .overflow

def refersTo (row correlation : Sqlite.Row Column) : Bool :=
  correlation .correlationId ≠ .null && row .correlationId = correlation .correlationId

def IsOrphan (file : KeyedStore) (correlation : Sqlite.Row Column) : Bool :=
  childTables.all fun table => !(file.rows table).any fun row => refersTo row correlation

def orphanIds (order : ScanOrder) (chunk : ℕ) (file : KeyedStore) : List Value :=
  (((order.visit file.correlations).filter (IsOrphan file)).take chunk).map fun c => c .correlationId

/-- What `REFERENCES correlations` asks for after a deletion: no row may have lost its
correlation. -/
def breaksReference (before after : KeyedStore) : Bool :=
  allTables.any fun table => .correlationId ∈ tableColumns table &&
    (after.rows table).any fun row =>
      before.correlations.any (refersTo row) && !after.correlations.any (refersTo row)

/-- One statement of `_delete_orphan_correlations`. -/
def deleteOrphanChunk (order : ScanOrder) (chunk : ℕ) (s : Pruning) :
    Except PruneError (Pruning × ℕ) :=
  let file := s.file.deleteCorrelations fun c =>
    isIn (orphanIds order chunk s.file) (c .correlationId)
  if breaksReference s.file file then .error .foreignKey
  else .ok ({ s with file }, s.file.correlations.length - file.correlations.length)

def deleteOlderThan (chunk : ℕ) (nowMs : ℤ) (entry : Retention) :
    ChunkedLoop.Statement Pruning PruneError where
  run := deleteOldChunk chunk nowMs entry
  size s := (s.file.rows entry.table).length
  shrinks s s' n h := by
    unfold deleteOldChunk at h
    split at h
    · obtain ⟨rfl, hCount⟩ := Prod.mk.inj (Except.ok.inj h)
      exact Nat.sub_pos_iff_lt.mp (hCount ▸ Nat.succ_pos n)
    · cases h

def deleteOrphanCorrelations (order : ScanOrder) (chunk : ℕ) :
    ChunkedLoop.Statement Pruning PruneError where
  run := deleteOrphanChunk order chunk
  size s := s.file.correlations.length
  shrinks s s' n h := by
    unfold deleteOrphanChunk at h
    simp only at h
    split at h
    · cases h
    · obtain ⟨rfl, hCount⟩ := Prod.mk.inj (Except.ok.inj h)
      exact Nat.sub_pos_iff_lt.mp (hCount ▸ Nat.succ_pos n)

structure PruneResult where
  deleted : List (Table × ℕ)
  correlations : ℕ

/-- The loop over `_RETENTION`. -/
def pruneTables (chunk : ℕ) (nowMs : ℤ) :
    List Retention → List (Pruning → Pruning) → Pruning →
      Except PruneError (List (Table × ℕ) × Pruning × List (Pruning → Pruning))
  | [], others, s => .ok ([], s, others)
  | entry :: entries, others, s => do
    let (s, total, others) ← (deleteOlderThan chunk nowMs entry).among others s 0
    let (deleted, s, others) ← pruneTables chunk nowMs entries others s
    return ((entry.table, total) :: deleted, s, others)

/-- `prune`, with the transactions that writers commit in front of each of its statements. -/
def prune (order : ScanOrder) (chunk : ℕ) (nowMs : ℤ) (writes : List (List ChildInsert))
    (s : Pruning) : Except PruneError (PruneResult × Pruning) := do
  let (deleted, s, others) ← pruneTables chunk nowMs retention (writes.map commitBatch) s
  let (s, total, _) ← (deleteOrphanCorrelations order chunk).among others s 0
  return (⟨deleted, total⟩, s)

end KalshiBot.Telemetry

import KalshiBot.Telemetry.Retention

/-! # Retention is exact

A chunk takes old rows and orphans only, and the last one finds none left. A correlation whose id is
null would be an orphan that `IN` never matches; no writer inserts one.
-/

namespace KalshiBot.Telemetry

open PythonText Sqlite ChunkedLoop

set_option autoImplicit false

theorem isIn_iff {values : List Value} {value : Value} :
    isIn values value ↔ value ≠ .null ∧ value ∈ values := by
  simp [isIn]

section OldRows

variable {chunk : ℕ} {nowMs : ℤ} {entry : Retention} {file : KeyedStore}

theorem mem_of_mem_oldIds {id : Value} (h : id ∈ oldIds chunk nowMs entry file) :
    ∃ row ∈ file.rows entry.table, IsOlder nowMs entry row ∧ row .id = id := by
  obtain ⟨row, hRow, rfl⟩ := List.mem_map.mp h
  obtain ⟨hMem, hOlder⟩ := List.mem_filter.mp (List.mem_mergeSort.mp (List.mem_of_mem_take hRow))
  exact ⟨row, hMem, hOlder, rfl⟩

theorem isOlder_of_isIn (hEntry : entry ∈ retention) {row : Sqlite.Row Column}
    (hRow : row ∈ file.rows entry.table) (h : isIn (oldIds chunk nowMs entry file) (row .id)) :
    IsOlder nowMs entry row := by
  obtain ⟨old, hOld, hOlder, hId⟩ := mem_of_mem_oldIds (isIn_iff.mp h).2
  rwa [List.inj_on_of_nodup_map (file.nodup_ids hEntry) hRow hOld hId.symm]

/-- The first of a chunk goes, so one that takes nothing has found nothing. -/
theorem not_isOlder_of_untouched (hChunk : 1 ≤ chunk) (hEntry : entry ∈ retention)
    (h : ∀ row ∈ file.rows entry.table, ¬isIn (oldIds chunk nowMs entry file) (row .id))
    {row : Sqlite.Row Column} (hRow : row ∈ file.rows entry.table) : ¬IsOlder nowMs entry row := by
  intro hOlder
  have hMem : row ∈ ((file.rows entry.table).filter (IsOlder nowMs entry)).mergeSort
      (byColumn entry.column) := List.mem_mergeSort.mpr (List.mem_filter.mpr ⟨hRow, hOlder⟩)
  cases hSorted : ((file.rows entry.table).filter (IsOlder nowMs entry)).mergeSort
      (byColumn entry.column) with
  | nil =>
    rw [hSorted] at hMem
    cases hMem
  | cons first rest =>
    obtain ⟨chunk, rfl⟩ := Nat.exists_eq_succ_of_ne_zero (Nat.one_le_iff_ne_zero.mp hChunk)
    have hFirst : first .id ∈ oldIds (chunk + 1) nowMs entry file := by
      rw [oldIds, hSorted, List.take_succ_cons, List.map_cons]
      exact List.mem_cons_self
    obtain ⟨old, hOld, -, hId⟩ := mem_of_mem_oldIds hFirst
    refine h old hOld (isIn_iff.mpr ⟨(file.keyed entry hEntry).2 old hOld, ?_⟩)
    rwa [hId]

end OldRows

section Orphans

variable {order : ScanOrder} {chunk : ℕ} {file : KeyedStore} {c : Sqlite.Row Column}

theorem refersTo_iff {row : Sqlite.Row Column} :
    refersTo row c ↔ c .correlationId ≠ .null ∧ row .correlationId = c .correlationId := by
  simp [refersTo]

theorem isOrphan_congr {c' : Sqlite.Row Column} (h : c .correlationId = c' .correlationId) :
    IsOrphan file c = IsOrphan file c' := by
  simp only [IsOrphan, refersTo, h]

theorem isOrphan_iff :
    IsOrphan file c ↔ ∀ table ∈ childTables, ∀ row ∈ file.rows table, ¬refersTo row c := by
  simp only [IsOrphan, List.all_eq_true, Bool.not_eq_true', List.any_eq_false]

theorem mem_of_mem_orphanIds {id : Value} (h : id ∈ orphanIds order chunk file) :
    ∃ orphan ∈ file.correlations, IsOrphan file orphan ∧ orphan .correlationId = id := by
  obtain ⟨orphan, hMem, rfl⟩ := List.mem_map.mp h
  obtain ⟨hVisited, hOrphan⟩ := List.mem_filter.mp (List.mem_of_mem_take hMem)
  exact ⟨orphan, (order.perm file.correlations).mem_iff.mp hVisited, hOrphan, rfl⟩

theorem isOrphan_of_isIn (h : isIn (orphanIds order chunk file) (c .correlationId)) :
    IsOrphan file c := by
  obtain ⟨orphan, -, hOrphan, hId⟩ := mem_of_mem_orphanIds (isIn_iff.mp h).2
  rwa [← isOrphan_congr hId]

theorem not_isOrphan_of_untouched (hChunk : 1 ≤ chunk)
    (hKeys : ∀ c ∈ file.correlations, c .correlationId ≠ .null)
    (h : ∀ c ∈ file.correlations, ¬isIn (orphanIds order chunk file) (c .correlationId))
    (hMem : c ∈ file.correlations) : ¬IsOrphan file c := by
  intro hOrphan
  have hFound : c ∈ (order.visit file.correlations).filter (IsOrphan file) :=
    List.mem_filter.mpr ⟨(order.perm file.correlations).mem_iff.mpr hMem, hOrphan⟩
  cases hVisited : (order.visit file.correlations).filter (IsOrphan file) with
  | nil =>
    rw [hVisited] at hFound
    cases hFound
  | cons first rest =>
    obtain ⟨chunk, rfl⟩ := Nat.exists_eq_succ_of_ne_zero (Nat.one_le_iff_ne_zero.mp hChunk)
    have hFirst : first .correlationId ∈ orphanIds order (chunk + 1) file := by
      rw [orphanIds, hVisited, List.take_succ_cons, List.map_cons]
      exact List.mem_cons_self
    obtain ⟨orphan, hIn, -, hId⟩ := mem_of_mem_orphanIds hFirst
    refine h orphan hIn (isIn_iff.mpr ⟨hKeys orphan hIn, ?_⟩)
    rwa [hId]

theorem mem_childTables_of_column {table : Table} (h : .correlationId ∈ tableColumns table) :
    table ∈ childTables := by
  cases table <;> first | decide | exact absurd h (by decide)

/-- An orphan has no row to lose it. -/
theorem not_breaksReference {p : Sqlite.Row Column → Bool}
    (h : ∀ c ∈ file.correlations, p c → IsOrphan file c) :
    breaksReference file (file.deleteCorrelations p) = false := by
  rw [Bool.eq_false_iff]
  intro hBreaks
  obtain ⟨table, -, hTable⟩ := List.any_eq_true.mp hBreaks
  obtain ⟨hColumn, hRows⟩ := Bool.and_eq_true_iff.mp hTable
  obtain ⟨row, hRow, hLost⟩ := List.any_eq_true.mp hRows
  obtain ⟨hHad, hHas⟩ := Bool.and_eq_true_iff.mp hLost
  obtain ⟨c, hMem, hRefers⟩ := List.any_eq_true.mp hHad
  rw [Bool.not_eq_true', List.any_eq_false] at hHas
  have hGone : p c = true := by
    by_contra hStays
    exact hHas c (List.mem_filter.mpr ⟨hMem, by simpa using hStays⟩) hRefers
  have hChild := mem_childTables_of_column (of_decide_eq_true hColumn)
  exact isOrphan_iff.mp (h c hMem hGone) table hChild row hRow hRefers

/-- No orphan chunk runs into the foreign key. -/
theorem deleteOrphanChunk_eq_ok (order : ScanOrder) (chunk : ℕ) (s : Pruning) :
    let file := s.file.deleteCorrelations fun c =>
      isIn (orphanIds order chunk s.file) (c .correlationId)
    deleteOrphanChunk order chunk s =
      .ok ({ s with file }, s.file.correlations.length - file.correlations.length) := by
  have hIntact : breaksReference s.file (s.file.deleteCorrelations fun c =>
      isIn (orphanIds order chunk s.file) (c .correlationId)) = false :=
    not_breaksReference fun c _ hTaken => isOrphan_of_isIn hTaken
  exact if_neg (Bool.eq_false_iff.mp hIntact)

end Orphans

/-- The row is past the retention of no table. -/
def KeptAt (nowMs : ℤ) (table : Table) (row : Sqlite.Row Column) : Prop :=
  ∀ entry ∈ retention, entry.table = table → ¬IsOlder nowMs entry row

/-- What writers have committed is there, up to rows past their retention, and so is every
correlation that it refers to. -/
def Survives (nowMs : ℤ) (s : Pruning) : Prop :=
  ∀ w ∈ s.written, KeptAt nowMs w.table w.row →
    w.row ∈ s.file.rows w.table ∧ ∃ c ∈ s.file.correlations, refersTo w.row c

section Writers

variable {chunk : ℕ} {nowMs : ℤ} {s : Pruning}

theorem mem_insertOrIgnore {k : Constraints Column} {rows : List (Sqlite.Row Column)}
    {row c : Sqlite.Row Column} (h : c ∈ rows) : c ∈ insertOrIgnore k rows row := by
  rw [insertOrIgnore, Sqlite.insert]
  split
  · exact List.mem_append_left _ h
  · exact h

theorem mem_update_append {rows : Table → List (Sqlite.Row Column)} {table other : Table}
    {row new : Sqlite.Row Column} (h : row ∈ rows other) :
    row ∈ Function.update rows table (rows table ++ [new]) other := by
  obtain rfl | hNe := eq_or_ne other table
  · rw [Function.update_self]
    exact List.mem_append_left _ h
  · rwa [Function.update_of_ne hNe]

theorem exists_refersTo_insertOrIgnore {row : Sqlite.Row Column} (h : row .correlationId ≠ .null)
    (correlations : List (Sqlite.Row Column)) :
    ∃ c ∈ insertOrIgnore correlationConstraints correlations
      (fun c => if c = .correlationId then row .correlationId else .null), refersTo row c := by
  let correlation : Sqlite.Row Column := fun c =>
    if c = .correlationId then row .correlationId else .null
  have hPresent : rowsWith .correlationId (correlation .correlationId)
      (insertOrIgnore correlationConstraints correlations correlation) ≠ [] :=
    rowsWith_insertOrIgnore_ne_nil rfl h rfl
  obtain ⟨c, hMem⟩ := List.exists_mem_of_ne_nil _ hPresent
  obtain ⟨hIn, hSame⟩ := List.mem_filter.mp hMem
  have hKey : c .correlationId = row .correlationId := of_decide_eq_true hSame
  exact ⟨c, hIn, refersTo_iff.mpr ⟨hKey ▸ h, hKey.symm⟩⟩

theorem Survives.commitInsert (h : Survives nowMs s) (w : ChildInsert) :
    Survives nowMs (commitInsert s w) := by
  unfold Telemetry.commitInsert
  split
  · intro written hMem hKept
    obtain hOld | hNew := List.mem_append.mp hMem
    · obtain ⟨hRow, c, hCorrelation, hRefers⟩ := h written hOld hKept
      exact ⟨mem_update_append hRow, c, mem_insertOrIgnore hCorrelation, hRefers⟩
    · rw [List.mem_singleton.mp hNew]
      refine ⟨?_, exists_refersTo_insertOrIgnore w.references _⟩
      simp only [KeyedStore.rows, Function.update_self]
      exact List.mem_append_right _ (List.mem_singleton_self _)
  · exact h

theorem Survives.commitBatch (h : Survives nowMs s) (batch : List ChildInsert) :
    Survives nowMs (commitBatch batch s) := by
  induction batch generalizing s with
  | nil => exact h
  | cons w batch ih => exact ih (h.commitInsert w)

theorem Survives.deleteOldChunk (h : Survives nowMs s) {entry : Retention}
    (hEntry : entry ∈ retention) (hCutoff : InRange (cutoff nowMs entry)) :
    ∃ s' n, deleteOldChunk chunk nowMs entry s = .ok (s', n) ∧ Survives nowMs s' := by
  refine ⟨_, _, if_pos hCutoff, fun w hMem hKept => ?_⟩
  obtain ⟨hRow, hCorrelation⟩ := h w hMem hKept
  refine ⟨?_, hCorrelation⟩
  simp only [KeyedStore.rows, KeyedStore.delete]
  obtain hSame | hNe := eq_or_ne w.table entry.table
  · rw [hSame, Function.update_self]
    refine List.mem_filter.mpr ⟨hSame ▸ hRow, ?_⟩
    rw [Bool.not_eq_true', Bool.eq_false_iff]
    intro hTaken
    exact hKept entry hEntry hSame.symm (isOlder_of_isIn hEntry (hSame ▸ hRow) hTaken)
  · rwa [Function.update_of_ne hNe]

theorem Survives.deleteOrphanChunk (h : Survives nowMs s) (order : ScanOrder) :
    ∃ s' n, deleteOrphanChunk order chunk s = .ok (s', n) ∧ Survives nowMs s' := by
  refine ⟨_, _, deleteOrphanChunk_eq_ok order chunk s, fun w hMem hKept => ?_⟩
  obtain ⟨hRow, c, hCorrelation, hRefers⟩ := h w hMem hKept
  refine ⟨hRow, c, List.mem_filter.mpr ⟨hCorrelation, ?_⟩, hRefers⟩
  rw [Bool.not_eq_true', Bool.eq_false_iff]
  intro hTaken
  exact isOrphan_iff.mp (isOrphan_of_isIn hTaken) w.table w.isChild w.row hRow hRefers

end Writers

section Loops

variable {chunk : ℕ} {nowMs : ℤ} {inv : Pruning → Prop}

/-- The loop over the tables keeps what every statement and every writer keeps. -/
theorem pruneTables_eq_ok (entries : List Retention)
    (hOld : ∀ entry ∈ entries, ∀ s, inv s →
      ∃ s' n, deleteOldChunk chunk nowMs entry s = .ok (s', n) ∧ inv s')
    {others : List (Pruning → Pruning)} (hOthers : ∀ other ∈ others, ∀ s, inv s → inv (other s))
    {s : Pruning} (hs : inv s) :
    ∃ deleted s' rest, pruneTables chunk nowMs entries others s = .ok (deleted, s', rest) ∧
      inv s' ∧ rest.Sublist others := by
  induction entries generalizing others s with
  | nil => exact ⟨[], s, others, rfl, hs, List.Sublist.refl _⟩
  | cons entry entries ih =>
    rw [List.forall_mem_cons] at hOld
    obtain ⟨s', total, rest, hLoop, hs', hRest⟩ :=
      (deleteOlderThan chunk nowMs entry).among_eq_ok hOld.1 others hOthers hs 0
    obtain ⟨deleted, s'', rest', hTables, hs'', hRest'⟩ :=
      ih hOld.2 (fun other hMem => hOthers other (hRest.subset hMem)) hs'
    refine ⟨(entry.table, total) :: deleted, s'', rest', ?_, hs'', hRest'.trans hRest⟩
    rw [pruneTables, hLoop]
    change (pruneTables chunk nowMs entries rest s' >>= _) = _
    rw [hTables]
    rfl

theorem prune_eq_ok (order : ScanOrder)
    (hOld : ∀ entry ∈ retention, ∀ s, inv s →
      ∃ s' n, deleteOldChunk chunk nowMs entry s = .ok (s', n) ∧ inv s')
    (hOrphans : ∀ s, inv s → ∃ s' n, deleteOrphanChunk order chunk s = .ok (s', n) ∧ inv s')
    (hWriters : ∀ batch s, inv s → inv (commitBatch batch s)) (writes : List (List ChildInsert))
    {s : Pruning} (hs : inv s) :
    ∃ result s', prune order chunk nowMs writes s = .ok (result, s') ∧ inv s' := by
  have hOthers : ∀ other ∈ writes.map commitBatch, ∀ s, inv s → inv (other s) := by
    intro other hMem s hs
    obtain ⟨batch, -, rfl⟩ := List.mem_map.mp hMem
    exact hWriters batch s hs
  obtain ⟨deleted, middle, rest, hTables, hMiddle, hRest⟩ :=
    pruneTables_eq_ok retention hOld hOthers hs
  obtain ⟨s', total, rest', hLoop, hs', -⟩ :=
    (deleteOrphanCorrelations order chunk).among_eq_ok hOrphans rest
      (fun other hMem => hOthers other (hRest.subset hMem)) hMiddle 0
  refine ⟨⟨deleted, total⟩, s', ?_, hs'⟩
  rw [prune, hTables]
  change ((deleteOrphanCorrelations order chunk).among rest middle 0 >>= _) = _
  rw [hLoop]
  rfl

theorem prune_survives (order : ScanOrder) (chunk : ℕ) (writes : List (List ChildInsert))
    (file : KeyedStore) (hNow : ∀ entry ∈ retention, InRange (cutoff nowMs entry)) :
    ∃ result s', prune order chunk nowMs writes ⟨file, []⟩ = .ok (result, s') ∧
      Survives nowMs s' :=
  prune_eq_ok order (fun entry hMem _ hs => hs.deleteOldChunk hMem (hNow entry hMem))
    (fun _ hs => hs.deleteOrphanChunk order) (fun batch _ hs => hs.commitBatch batch) writes nofun

end Loops

/-- What is left of a file that nobody else writes, and what the result says of it. -/
structure Exact (nowMs : ℤ) (before after : KeyedStore) (result : PruneResult) : Prop where
  pruned : ∀ entry ∈ retention,
    after.rows entry.table = (before.rows entry.table).filter (!IsOlder nowMs entry ·)
  kept : ∀ table ∉ retention.map Retention.table, after.rows table = before.rows table
  correlations : after.correlations = before.correlations.filter (!IsOrphan after ·)
  deleted : result.deleted = retention.map fun entry =>
    (entry.table, (before.rows entry.table).length - (after.rows entry.table).length)
  deletedCorrelations :
    result.correlations = before.correlations.length - after.correlations.length

section Alone

variable {chunk : ℕ} {nowMs : ℤ} {entry : Retention}

structure OldRowsGone (nowMs : ℤ) (entry : Retention) (before s : Pruning) : Prop where
  rows : (s.file.rows entry.table).filter (!IsOlder nowMs entry ·) =
    (before.file.rows entry.table).filter (!IsOlder nowMs entry ·)
  others : ∀ table ≠ entry.table, s.file.rows table = before.file.rows table
  correlations : s.file.correlations = before.file.correlations

theorem OldRowsGone.step (hEntry : entry ∈ retention) (hCutoff : InRange (cutoff nowMs entry))
    {before s : Pruning} (h : OldRowsGone nowMs entry before s) :
    ∃ s' n, deleteOldChunk chunk nowMs entry s = .ok (s', n) ∧ OldRowsGone nowMs entry before s' := by
  refine ⟨_, _, if_pos hCutoff, ?_, ?_, h.correlations⟩
  · rw [← h.rows]
    simp only [KeyedStore.rows, KeyedStore.delete, Function.update_self, List.filter_filter]
    refine List.filter_congr fun row hRow => ?_
    cases hOlder : IsOlder nowMs entry row with
    | true => rfl
    | false =>
      have hLeft : ¬isIn (oldIds chunk nowMs entry s.file) (row .id) := fun hTaken =>
        Bool.eq_false_iff.mp hOlder (isOlder_of_isIn hEntry hRow hTaken)
      rw [Bool.eq_false_iff.mpr hLeft]
      rfl
  · intro table hNe
    rw [← h.others table hNe]
    exact Function.update_of_ne hNe _ _

theorem filter_eq_of_length {α : Type} {l : List α} {p : α → Bool}
    (h : l.length - (l.filter p).length = 0) : ∀ a ∈ l, p a := by
  have hLe := List.length_filter_le p l
  exact List.length_filter_eq_length_iff.mp (by omega)

/-- The last statement has deleted nothing, so there was nothing old. -/
theorem no_older_of_done (hChunk : 1 ≤ chunk) (hEntry : entry ∈ retention) {s s' : Pruning}
    (h : deleteOldChunk chunk nowMs entry s = .ok (s', 0)) :
    ∀ row ∈ s'.file.rows entry.table, ¬IsOlder nowMs entry row := by
  unfold deleteOldChunk at h
  split at h
  · obtain ⟨rfl, hCount⟩ := Prod.mk.inj (Except.ok.inj h)
    simp only [KeyedStore.rows, KeyedStore.delete, Function.update_self] at hCount ⊢
    have hUntouched := filter_eq_of_length hCount
    intro row hRow
    refine not_isOlder_of_untouched hChunk hEntry (fun other hOther hTaken => ?_)
      (List.mem_of_mem_filter hRow)
    have hStays := hUntouched other hOther
    rw [hTaken] at hStays
    cases hStays
  · cases h

theorem deleteOldChunk_total {s s' : Pruning} {n : ℕ}
    (h : deleteOldChunk chunk nowMs entry s = .ok (s', n)) :
    (s.file.rows entry.table).length = (s'.file.rows entry.table).length + n := by
  unfold deleteOldChunk at h
  split at h
  · obtain ⟨rfl, hCount⟩ := Prod.mk.inj (Except.ok.inj h)
    have hLe : ((s.file.delete entry.table fun row =>
        isIn (oldIds chunk nowMs entry s.file) (row .id)).rows entry.table).length ≤
          (s.file.rows entry.table).length := by
      simp only [KeyedStore.rows, KeyedStore.delete, Function.update_self]
      exact List.length_filter_le _ _
    simp only at hCount ⊢
    omega
  · cases h

theorem deleteOlderThan_alone (hChunk : 1 ≤ chunk) (hEntry : entry ∈ retention)
    (hCutoff : InRange (cutoff nowMs entry)) (s : Pruning) :
    ∃ s' total, (deleteOlderThan chunk nowMs entry).alone s 0 = .ok (s', total) ∧
      s'.file.rows entry.table =
        (s.file.rows entry.table).filter (!IsOlder nowMs entry ·) ∧
      (∀ table ≠ entry.table, s'.file.rows table = s.file.rows table) ∧
      s'.file.correlations = s.file.correlations ∧
      total = (s.file.rows entry.table).length - (s'.file.rows entry.table).length := by
  obtain ⟨s', total, last, hLoop, hs', -, hDone⟩ :=
    (deleteOlderThan chunk nowMs entry).alone_eq_ok
      (fun _ (hs : OldRowsGone nowMs entry s _) => hs.step hEntry hCutoff)
      ⟨rfl, fun _ _ => rfl, rfl⟩ 0
  have hNew := no_older_of_done hChunk hEntry hDone
  have hTotal := Statement.alone_total (fun _ _ _ => deleteOldChunk_total) hLoop
  refine ⟨s', total, hLoop, ?_, hs'.others, hs'.correlations, by omega⟩
  rw [← hs'.rows]
  refine (List.filter_eq_self.mpr fun row hRow => ?_).symm
  rw [Bool.eq_false_iff.mpr (hNew row hRow)]
  rfl

theorem pruneTables_alone (hChunk : 1 ≤ chunk) (entries : List Retention)
    (hEntries : ∀ entry ∈ entries, entry ∈ retention ∧ InRange (cutoff nowMs entry))
    (hTables : (entries.map Retention.table).Nodup) (s : Pruning) :
    ∃ deleted s', pruneTables chunk nowMs entries [] s = .ok (deleted, s', []) ∧
      (∀ entry ∈ entries, s'.file.rows entry.table =
        (s.file.rows entry.table).filter (!IsOlder nowMs entry ·)) ∧
      (∀ table ∉ entries.map Retention.table, s'.file.rows table = s.file.rows table) ∧
      s'.file.correlations = s.file.correlations ∧
      deleted = entries.map fun entry => (entry.table,
        (s.file.rows entry.table).length - (s'.file.rows entry.table).length) := by
  induction entries generalizing s with
  | nil => exact ⟨[], s, rfl, List.forall_mem_nil _, fun _ _ => rfl, rfl, rfl⟩
  | cons entry entries ih =>
    rw [List.forall_mem_cons] at hEntries
    rw [List.map_cons, List.nodup_cons] at hTables
    obtain ⟨middle, total, hLoop, hGone, hOthers, hCorrelations, hTotal⟩ :=
      deleteOlderThan_alone hChunk hEntries.1.1 hEntries.1.2 s
    obtain ⟨deleted, s', hLater, hGone', hOthers', hCorrelations', hDeleted⟩ :=
      ih hEntries.2 hTables.2 middle
    have hSame : s'.file.rows entry.table = middle.file.rows entry.table :=
      hOthers' entry.table hTables.1
    have hBefore : ∀ other ∈ entries, middle.file.rows other.table = s.file.rows other.table := by
      intro other hMem
      refine hOthers other.table fun hEq => hTables.1 ?_
      exact hEq ▸ List.mem_map_of_mem hMem
    refine ⟨(entry.table, total) :: deleted, s', ?_, ?_, ?_, hCorrelations'.trans hCorrelations, ?_⟩
    · rw [pruneTables, Statement.among, hLoop]
      change (pruneTables chunk nowMs entries [] middle >>= _) = _
      rw [hLater]
      rfl
    · rw [List.forall_mem_cons]
      refine ⟨hSame.trans hGone, fun other hMem => ?_⟩
      rw [hGone' other hMem, hBefore other hMem]
    · intro table hNot
      rw [List.map_cons, List.mem_cons, not_or] at hNot
      rw [hOthers' table hNot.2, hOthers table hNot.1]
    · rw [List.map_cons, hTotal, hSame, hDeleted]
      congr 1
      refine List.map_congr_left fun other hMem => ?_
      rw [hBefore other hMem]

structure OrphansGone (before s : Pruning) : Prop where
  rows : s.file.rows = before.file.rows
  correlations : s.file.correlations.filter (!IsOrphan before.file ·) =
    before.file.correlations.filter (!IsOrphan before.file ·)
  keys : ∀ c ∈ s.file.correlations, c .correlationId ≠ .null

theorem isOrphan_of_rows {file file' : KeyedStore} (h : file.rows = file'.rows) :
    IsOrphan file = IsOrphan file' := by
  funext c
  simp only [IsOrphan, h]

theorem OrphansGone.step (order : ScanOrder) {before s : Pruning} (h : OrphansGone before s) :
    ∃ s' n, deleteOrphanChunk order chunk s = .ok (s', n) ∧ OrphansGone before s' := by
  refine ⟨_, _, deleteOrphanChunk_eq_ok order chunk s, h.rows, ?_, fun c hMem => ?_⟩
  · rw [← h.correlations]
    simp only [KeyedStore.correlations, KeyedStore.deleteCorrelations, List.filter_filter]
    refine List.filter_congr fun c hMem => ?_
    cases hOrphan : IsOrphan before.file c with
    | true => rfl
    | false =>
      have hLeft : ¬isIn (orphanIds order chunk s.file) (c .correlationId) := fun hTaken => by
        have hIs := isOrphan_of_isIn hTaken
        rw [isOrphan_of_rows h.rows, hOrphan] at hIs
        cases hIs
      rw [Bool.eq_false_iff.mpr hLeft]
      rfl
  · exact h.keys c (List.mem_of_mem_filter hMem)

theorem no_orphan_of_done (order : ScanOrder) (hChunk : 1 ≤ chunk) {s s' : Pruning}
    (hKeys : ∀ c ∈ s.file.correlations, c .correlationId ≠ .null)
    (h : deleteOrphanChunk order chunk s = .ok (s', 0)) :
    ∀ c ∈ s'.file.correlations, ¬IsOrphan s'.file c := by
  rw [deleteOrphanChunk_eq_ok] at h
  obtain ⟨rfl, hCount⟩ := Prod.mk.inj (Except.ok.inj h)
  have hUntouched := filter_eq_of_length hCount
  have hLeft : ∀ c ∈ s.file.correlations,
      ¬isIn (orphanIds order chunk s.file) (c .correlationId) := by
    intro c hMem hTaken
    have hStays : (!isIn (orphanIds order chunk s.file) (c .correlationId)) = true :=
      hUntouched c hMem
    rw [hTaken] at hStays
    cases hStays
  have hNone : ∀ c ∈ s.file.correlations, ¬IsOrphan s.file c := fun c hMem =>
    not_isOrphan_of_untouched hChunk hKeys hLeft hMem
  exact fun c hMem => hNone c (List.mem_of_mem_filter hMem)

theorem deleteOrphanChunk_total {order : ScanOrder} {s s' : Pruning} {n : ℕ}
    (h : deleteOrphanChunk order chunk s = .ok (s', n)) :
    s.file.correlations.length = s'.file.correlations.length + n := by
  rw [deleteOrphanChunk_eq_ok] at h
  obtain ⟨rfl, hCount⟩ := Prod.mk.inj (Except.ok.inj h)
  have hLe : (s.file.deleteCorrelations fun c =>
      isIn (orphanIds order chunk s.file) (c .correlationId)).correlations.length ≤
        s.file.correlations.length := List.length_filter_le _ _
  simp only at hCount ⊢
  omega

theorem deleteOrphans_alone (order : ScanOrder) (hChunk : 1 ≤ chunk) (s : Pruning)
    (hKeys : ∀ c ∈ s.file.correlations, c .correlationId ≠ .null) :
    ∃ s' total, (deleteOrphanCorrelations order chunk).alone s 0 = .ok (s', total) ∧
      s'.file.rows = s.file.rows ∧
      s'.file.correlations = s.file.correlations.filter (!IsOrphan s'.file ·) ∧
      total = s.file.correlations.length - s'.file.correlations.length := by
  obtain ⟨s', total, last, hLoop, hs', hLast, hDone⟩ :=
    (deleteOrphanCorrelations order chunk).alone_eq_ok
      (fun _ (hs : OrphansGone s _) => hs.step order) ⟨rfl, rfl, hKeys⟩ 0
  have hNone := no_orphan_of_done order hChunk hLast.keys hDone
  have hTotal := Statement.alone_total (fun _ _ _ => deleteOrphanChunk_total) hLoop
  refine ⟨s', total, hLoop, hs'.rows, ?_, by omega⟩
  rw [isOrphan_of_rows hs'.rows, ← hs'.correlations]
  refine (List.filter_eq_self.mpr fun c hMem => ?_).symm
  rw [← isOrphan_of_rows hs'.rows, Bool.eq_false_iff.mpr (hNone c hMem)]
  rfl

theorem prune_alone (order : ScanOrder) (hChunk : 1 ≤ chunk)
    (hNow : ∀ entry ∈ retention, InRange (cutoff nowMs entry)) (file : KeyedStore)
    (hKeys : ∀ c ∈ file.correlations, c .correlationId ≠ .null) :
    ∃ result s', prune order chunk nowMs [] ⟨file, []⟩ = .ok (result, s') ∧
      Exact nowMs file s'.file result := by
  obtain ⟨deleted, middle, hTables, hGone, hOthers, hCorrelations, hDeleted⟩ :=
    pruneTables_alone hChunk retention (fun entry hMem => ⟨hMem, hNow entry hMem⟩) (by decide)
      ⟨file, []⟩
  obtain ⟨s', total, hLoop, hRows, hKept, hTotal⟩ :=
    deleteOrphans_alone order hChunk middle (hCorrelations ▸ hKeys)
  refine ⟨⟨deleted, total⟩, s', ?_, ?_, ?_, ?_, ?_, ?_⟩
  · rw [prune, List.map_nil, hTables]
    change ((deleteOrphanCorrelations order chunk).among [] middle 0 >>= _) = _
    rw [Statement.among, hLoop]
    rfl
  · rw [hRows]
    exact hGone
  · rw [hRows]
    exact hOthers
  · rw [hKept, hCorrelations]
  · rw [hRows]
    exact hDeleted
  · rw [hTotal, hCorrelations]

end Alone

theorem prune_correct (order : ScanOrder) (chunk : ℕ) (nowMs : ℤ) (file : KeyedStore)
    (writes : List (List ChildInsert)) (hChunk : 1 ≤ chunk)
    (hNow : ∀ entry ∈ retention, InRange (cutoff nowMs entry)) :
    ∃ result s', prune order chunk nowMs writes ⟨file, []⟩ = .ok (result, s') ∧
      Survives nowMs s' ∧
      (writes = [] → (∀ c ∈ file.correlations, c .correlationId ≠ .null) →
        Exact nowMs file s'.file result) := by
  obtain ⟨result, s', hPrune, hSurvives⟩ := prune_survives order chunk writes file hNow
  refine ⟨result, s', hPrune, hSurvives, ?_⟩
  rintro rfl hKeys
  obtain ⟨result', s'', hAlone, hExact⟩ := prune_alone order hChunk hNow file hKeys
  cases hPrune.symm.trans hAlone
  exact hExact

section NullKey

variable {chunk : ℕ} {nowMs : ℤ} {s : Pruning} {c : Sqlite.Row Column}

theorem mem_correlations_commitBatch (h : c ∈ s.file.correlations) (batch : List ChildInsert) :
    c ∈ (commitBatch batch s).file.correlations := by
  induction batch generalizing s with
  | nil => exact h
  | cons w batch ih =>
    refine ih (s := commitInsert s w) ?_
    unfold commitInsert
    split
    · exact mem_insertOrIgnore h
    · exact h

theorem mem_correlations_of_null (order : ScanOrder) (hNull : c .correlationId = .null)
    (h : c ∈ s.file.correlations) :
    ∃ s' n, deleteOrphanChunk order chunk s = .ok (s', n) ∧ c ∈ s'.file.correlations := by
  refine ⟨_, _, deleteOrphanChunk_eq_ok order chunk s, List.mem_filter.mpr ⟨h, ?_⟩⟩
  rw [Bool.not_eq_true', Bool.eq_false_iff]
  intro hTaken
  exact (isIn_iff.mp hTaken).1 hNull

/-- No row refers to null, and `IN` matches it with nothing. -/
theorem not_exact_of_null (order : ScanOrder) (chunk : ℕ) {file : KeyedStore}
    (hNow : ∀ entry ∈ retention, InRange (cutoff nowMs entry)) (hMem : c ∈ file.correlations)
    (hNull : c .correlationId = .null) :
    ∃ result s', prune order chunk nowMs [] ⟨file, []⟩ = .ok (result, s') ∧
      ¬Exact nowMs file s'.file result := by
  obtain ⟨result, s', hPrune, hLeft⟩ : ∃ result s',
      prune order chunk nowMs [] ⟨file, []⟩ = .ok (result, s') ∧ c ∈ s'.file.correlations := by
    refine prune_eq_ok order (fun entry hEntry s hs => ?_)
      (fun s hs => mem_correlations_of_null order hNull hs)
      (fun batch s hs => mem_correlations_commitBatch hs batch) [] hMem
    exact ⟨_, _, if_pos (hNow entry hEntry), hs⟩
  refine ⟨result, s', hPrune, fun hExact => ?_⟩
  rw [hExact.correlations] at hLeft
  have hOrphan : IsOrphan s'.file c := isOrphan_iff.mpr fun table _ row _ hRefers =>
    (refersTo_iff.mp hRefers).1 hNull
  have hReferenced := (List.mem_filter.mp hLeft).2
  rw [hOrphan] at hReferenced
  cases hReferenced

/-- A bound that is no 64-bit integer stops the first statement. -/
theorem prune_overflow (order : ScanOrder) (chunk : ℕ)
    (hNow : ¬InRange (cutoff nowMs ⟨.latencyEvents, .startedAtMs, 30⟩)) (s : Pruning) :
    prune order chunk nowMs [] s = .error .overflow := by
  have hAlone : (deleteOlderThan chunk nowMs ⟨.latencyEvents, .startedAtMs, 30⟩).alone s 0 =
      .error .overflow := Statement.alone_of_error (if_neg hNow) 0
  rw [prune, List.map_nil, retention, pruneTables, Statement.among, hAlone]
  rfl

end NullKey

def insertionOrder : ScanOrder := ⟨id, List.Perm.refl⟩

def unkeyedFile : KeyedStore where
  store := ⟨[fun _ => .null], fun _ => []⟩
  keyed := by
    unfold Keyed
    decide

theorem unkeyedFile_not_exact :
    (∃ result s', prune insertionOrder 5000 1767225600000 [] ⟨unkeyedFile, []⟩ = .ok (result, s') ∧
      ¬Exact 1767225600000 unkeyedFile s'.file result) ∧
    prune insertionOrder 5000 (2 ^ 64) [] ⟨unkeyedFile, []⟩ = .error .overflow :=
  ⟨not_exact_of_null insertionOrder 5000 (by decide) List.mem_cons_self rfl,
    prune_overflow insertionOrder 5000 (by decide) _⟩

def correlationRow (correlation : String) : Sqlite.Row Column := fun c =>
  if c = .correlationId then .text correlation else .null

def latencyRow (id : ℤ) (correlation : String) (startedAt : ℤ) : Sqlite.Row Column
  | .id => .integer id
  | .correlationId => .text correlation
  | .startedAtMs => .integer startedAt
  | _ => .null

def sampleFile : KeyedStore where
  store :=
    { correlations := [correlationRow "a", correlationRow "b", correlationRow "c"]
      rows := Function.update (fun _ => []) .latencyEvents
        [latencyRow 1 "a" 1700000000000, latencyRow 2 "b" 1767000000000] }
  keyed := by
    unfold Keyed
    decide

def sampleInsert : ChildInsert where
  table := .latencyEvents
  row := latencyRow 3 "c" 1767000000000
  isChild := by decide
  references := by decide

theorem sampleFile_pruned :
    (∃ result s', prune insertionOrder 1 1767225600000 [] ⟨sampleFile, []⟩ = .ok (result, s') ∧
      Exact 1767225600000 sampleFile s'.file result) ∧
    ∃ result s', prune insertionOrder 1 1767225600000 [[sampleInsert]] ⟨sampleFile, []⟩ =
      .ok (result, s') ∧ Survives 1767225600000 s' := by
  constructor
  · obtain ⟨result, s', hPrune, -, hExact⟩ := prune_correct insertionOrder 1 1767225600000 sampleFile
      [] le_rfl (by decide)
    exact ⟨result, s', hPrune, hExact rfl (by decide)⟩
  · obtain ⟨result, s', hPrune, hSurvives, -⟩ := prune_correct insertionOrder 1 1767225600000
      sampleFile [[sampleInsert]] le_rfl (by decide)
    exact ⟨result, s', hPrune, hSurvives⟩

end KalshiBot.Telemetry

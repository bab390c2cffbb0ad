import KalshiBot.Telemetry.OrderTrail

/-! # The whole table of orders

Where no job is lost, every job of an order changes `orders_fired` in one place: an order
that is fired adds a row, and its resolution rewrites that row where it stands.
-/

namespace KalshiBot.Telemetry

open PythonText Sqlite Execution

set_option autoImplicit false

variable {castText : String → ℚ} {s : Store} {row : Row} {bound : Sqlite.Row Column}

theorem conflict_orders (hText : ∃ id, bound .clientOrderId = .text id) (other : Sqlite.Row Column) :
    (constraints castText .ordersFired).conflict bound other ↔
      other .clientOrderId = bound .clientOrderId := by
  obtain ⟨id, hId⟩ := hText
  rw [conflict_iff rfl, hId]
  constructor
  · rintro ⟨hSame, -⟩
    exact hSame.symm
  · intro hSame
    exact ⟨hSame.symm, by rintro ⟨⟩⟩

theorem rows_keep_fired (hBound : bindRow (tableColumns .ordersFired) row = some bound)
    (hAdmits : (constraints castText .ordersFired).admits bound)
    (hText : ∃ id, bound .clientOrderId = .text id)
    (hFresh : ∀ other ∈ s.rows .ordersFired, other .clientOrderId ≠ bound .clientOrderId) :
    (Connection.keep (insertJob castText) s ⟨.insertInto .ordersFired, row⟩).rows .ordersFired =
      s.rows .ordersFired ++ [bound] := by
  have hNull : bound .clientOrderId ≠ .null := by
    obtain ⟨id, hId⟩ := hText
    rw [hId]
    rintro ⟨⟩
  have hAbsent : rowsWith .clientOrderId (bound .clientOrderId) (s.rows .ordersFired) = [] :=
    List.filter_eq_nil_iff.mpr fun other hMem => by simpa using hFresh other hMem
  have hRows : insertVerb castText .ordersFired (s.rows .ordersFired) bound =
      some (s.rows .ordersFired ++ [bound]) := insert_of_absent rfl hNull hAdmits hAbsent
  obtain ⟨s', hInsert, hLast⟩ := execute_of_statement (by decide) hBound hRows
  have hJob : insertJob castText s ⟨.insertInto .ordersFired, row⟩ = some s' := hInsert
  rw [Connection.keep_of_eq_some hJob, hLast]

/-- A row that the table may refuse is added at the end or not at all. -/
theorem rows_keep_fired_cases (row : Row) (s : Store) :
    (Connection.keep (insertJob castText) s ⟨.insertInto .ordersFired, row⟩).rows .ordersFired =
        s.rows .ordersFired ∨
      ∃ bound, bindRow (tableColumns .ordersFired) row = some bound ∧
        (constraints castText .ordersFired).admits bound ∧
        ¬(s.rows .ordersFired).any ((constraints castText .ordersFired).conflict bound) ∧
        (Connection.keep (insertJob castText) s ⟨.insertInto .ordersFired, row⟩).rows .ordersFired =
          s.rows .ordersFired ++ [bound] := by
  rw [Connection.keep]
  cases hInsert : insertJob castText s ⟨.insertInto .ordersFired, row⟩ with
  | none => exact .inl rfl
  | some s' =>
    obtain ⟨bound, hBound, hRows, -⟩ := execute_eq_some hInsert
    obtain ⟨hLast, hAdmits, hFree⟩ := insert_eq_some hRows
    exact .inr ⟨bound, hBound, hAdmits, hFree, hLast⟩

theorem rows_keep_resolution (hBound : bindRow (tableColumns .ordersFired) row = some bound)
    (hAdmits : (constraints castText .ordersFired).admits bound)
    (hText : ∃ id, bound .clientOrderId = .text id)
    (hRows : ∀ other ∈ s.rows .ordersFired, (constraints castText .ordersFired).admits other)
    (hPresent : ∃ other ∈ s.rows .ordersFired, other .clientOrderId = bound .clientOrderId) :
    (Connection.keep (insertJob castText) s ⟨.orderResolution, row⟩).rows .ordersFired =
      (s.rows .ordersFired).map fun other =>
        if other .clientOrderId = bound .clientOrderId then overwrite updatable bound other
        else other := by
  have hAny : (s.rows .ordersFired).any ((constraints castText .ordersFired).conflict bound) := by
    obtain ⟨other, hMem, hSame⟩ := hPresent
    exact List.any_eq_true.mpr ⟨other, hMem, (conflict_orders hText other).mpr hSame⟩
  have hAll : ((s.rows .ordersFired).filter
      ((constraints castText .ordersFired).conflict bound)).all fun other =>
        (constraints castText .ordersFired).admits (overwrite updatable bound other) := by
    refine List.all_eq_true.mpr fun other hMem => ?_
    exact admits_overwrite castText .ordersFired updatable hAdmits
      (hRows other (List.mem_filter.mp hMem).1)
  have hUpsert : upsert (constraints castText .ordersFired) updatable (s.rows .ordersFired) bound =
      some ((s.rows .ordersFired).map fun other =>
        if (constraints castText .ordersFired).conflict bound other then
          overwrite updatable bound other
        else other) := by
    rw [upsert, hAdmits, Bool.not_true, if_neg Bool.false_ne_true, if_pos hAny, if_pos hAll]
  obtain ⟨s', hInsert, hLast⟩ := execute_of_statement (by decide) hBound hUpsert
  have hJob : insertJob castText s ⟨.orderResolution, row⟩ = some s' := hInsert
  rw [Connection.keep_of_eq_some hJob, hLast]
  simp only [conflict_orders hText]

/-- The orders of the table keep to its constraints, and no two have one id. -/
structure OrderTable (castText : String → ℚ) (s : Store) : Prop where
  admits : ∀ row ∈ s.rows .ordersFired, (constraints castText .ordersFired).admits row
  texts : ∀ row ∈ s.rows .ordersFired, ∃ id, row .clientOrderId = .text id
  distinct : ((s.rows .ordersFired).map fun row => row .clientOrderId).Nodup

theorem OrderTable.appended {s' : Store} (h : OrderTable castText s)
    (hRows : s'.rows .ordersFired = s.rows .ordersFired ++ [bound])
    (hAdmits : (constraints castText .ordersFired).admits bound)
    (hText : ∃ id, bound .clientOrderId = .text id)
    (hFresh : ∀ other ∈ s.rows .ordersFired, other .clientOrderId ≠ bound .clientOrderId) :
    OrderTable castText s' where
  admits row hMem := by
    rw [hRows] at hMem
    obtain hOld | hNew := List.mem_append.mp hMem
    · exact h.admits row hOld
    · rwa [List.mem_singleton.mp hNew]
  texts row hMem := by
    rw [hRows] at hMem
    obtain hOld | hNew := List.mem_append.mp hMem
    · exact h.texts row hOld
    · rwa [List.mem_singleton.mp hNew]
  distinct := by
    rw [hRows, List.map_append, List.nodup_append]
    refine ⟨h.distinct, List.nodup_singleton _, ?_⟩
    rintro a hOld b hNew rfl
    obtain ⟨other, hMem, hEq⟩ := List.mem_map.mp hOld
    rw [List.map_singleton, List.mem_singleton] at hNew
    exact hFresh other hMem (hEq.trans hNew)

theorem OrderTable.resolved {s' : Store} (h : OrderTable castText s)
    (hAdmits : (constraints castText .ordersFired).admits bound)
    (hRows : s'.rows .ordersFired = (s.rows .ordersFired).map fun other =>
      if other .clientOrderId = bound .clientOrderId then overwrite updatable bound other
      else other) : OrderTable castText s' := by
  have hId : ∀ other : Sqlite.Row Column,
      (if other .clientOrderId = bound .clientOrderId then overwrite updatable bound other
        else other) .clientOrderId = other .clientOrderId := by
    intro other
    split
    · exact if_neg (by decide)
    · rfl
  constructor
  · intro row hMem
    rw [hRows] at hMem
    obtain ⟨other, hOld, rfl⟩ := List.mem_map.mp hMem
    split
    · exact admits_overwrite castText .ordersFired updatable hAdmits (h.admits other hOld)
    · exact h.admits other hOld
  · intro row hMem
    rw [hRows] at hMem
    obtain ⟨other, hOld, rfl⟩ := List.mem_map.mp hMem
    rw [hId]
    exact h.texts other hOld
  · rw [hRows, List.map_map]
    exact (List.map_congr_left fun other _ => hId other) ▸ h.distinct

end KalshiBot.Telemetry

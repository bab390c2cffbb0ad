import KalshiBot.Library.Sqlite

/-! # Inserts into a table that has rows already

A run of inserts from an empty table is followed by the same run behind older rows, under
constraints that allow at least as much.
-/

namespace KalshiBot.Sqlite

set_option autoImplicit false

section Constraints

variable {C : Type} {k today : Constraints C} {rows rows' : List (Row C)} {row : Row C}

/-- The same column is unique, and no row is turned away that was let in. -/
structure Constraints.Relaxes (k today : Constraints C) : Prop where
  unique : k.unique = today.unique
  admits : ∀ row, today.admits row → k.admits row

theorem Constraints.relaxes_refl (k : Constraints C) : k.Relaxes k := ⟨rfl, fun _ h => h⟩

theorem Constraints.Relaxes.conflict (h : k.Relaxes today) : k.conflict = today.conflict := by
  funext row other
  rw [Constraints.conflict, h.unique, ← Constraints.conflict]

theorem insert_of_relaxes (h : k.Relaxes today) (hInsert : insert today rows row = some rows') :
    insert k rows row = some rows' := by
  obtain ⟨rfl, hAdmits, hFree⟩ := insert_eq_some hInsert
  rw [insert, h.conflict, h.admits row hAdmits, Bool.eq_false_iff.mpr hFree]
  rfl

theorem upsert_of_relaxes [DecidableEq C] {columns : List C} (h : k.Relaxes today)
    (hUpsert : upsert today columns rows row = some rows') :
    upsert k columns rows row = some rows' := by
  unfold upsert at hUpsert ⊢
  rw [h.conflict]
  split at hUpsert
  · cases hUpsert
  next hAdmits =>
    have hAdmitted : k.admits row := h.admits row (by simpa using hAdmits)
    rw [hAdmitted, Bool.not_true, if_neg Bool.false_ne_true]
    split at hUpsert
    next hTaken =>
      rw [if_pos hTaken]
      split at hUpsert
      next hUpdated =>
        rw [if_pos (List.all_eq_true.mpr fun other hMem =>
          h.admits _ (List.all_eq_true.mp hUpdated other hMem))]
        exact hUpsert
      · cases hUpsert
    next hFree =>
      rw [if_neg hFree]
      exact hUpsert

theorem conflict_trans {mid other : Row C} (h : k.conflict row mid) (hOther : k.conflict mid other) :
    k.conflict row other := by
  obtain ⟨c, hUnique, hSame⟩ := (Option.any_eq_true _ _).mp h
  rw [conflict_iff hUnique] at h hOther ⊢
  exact ⟨h.1.trans hOther.1, h.2⟩

end Constraints

section Older

variable {C : Type} {k : Constraints C} {old rows : List (Row C)} {row : Row C}

theorem any_conflict_append (hFree : ¬old.any (k.conflict row)) :
    (old ++ rows).any (k.conflict row) = rows.any (k.conflict row) := by
  rw [List.any_append, Bool.eq_false_iff.mpr hFree, Bool.false_or]

theorem insert_older (hFree : ¬old.any (k.conflict row)) :
    insert k (old ++ rows) row = (insert k rows row).map (old ++ ·) := by
  rw [insert, insert, any_conflict_append hFree, List.append_assoc]
  split <;> rfl

theorem upsert_older [DecidableEq C] {columns : List C} (hFree : ¬old.any (k.conflict row)) :
    upsert k columns (old ++ rows) row = (upsert k columns rows row).map (old ++ ·) := by
  have hOld : ∀ other ∈ old, ¬k.conflict row other := by
    simpa only [List.any_eq_true, not_exists, not_and] using hFree
  have hNone : old.filter (k.conflict row) = [] := List.filter_eq_nil_iff.mpr hOld
  have hSame : (old.map fun other =>
      if k.conflict row other then overwrite columns row other else other) = old :=
    (List.map_congr_left fun other hMem => if_neg (hOld other hMem)).trans (List.map_id _)
  rw [upsert, upsert, any_conflict_append hFree, List.filter_append, hNone, List.nil_append,
    List.map_append, hSame, List.append_assoc]
  repeat' split
  all_goals rfl

theorem not_any_conflict (h : k.unique = none) : ¬old.any (k.conflict row) := by
  intro hAny
  obtain ⟨other, -, hConflict⟩ := List.any_eq_true.mp hAny
  rw [Constraints.conflict, h] at hConflict
  cases hConflict

theorem insert_of_run {today : Constraints C} {rows' : List (Row C)} (h : k.Relaxes today)
    (hFree : ¬old.any (today.conflict row)) (hInsert : insert today rows row = some rows') :
    insert k (old ++ rows) row = some (old ++ rows') := by
  rw [← h.conflict] at hFree
  rw [insert_older hFree, insert_of_relaxes h hInsert, Option.map_some]

theorem upsert_of_run [DecidableEq C] {columns : List C} {today : Constraints C}
    {rows' : List (Row C)} (h : k.Relaxes today) (hFree : ¬old.any (today.conflict row))
    (hUpsert : upsert today columns rows row = some rows') :
    upsert k columns (old ++ rows) row = some (old ++ rows') := by
  rw [← h.conflict] at hFree
  rw [upsert_older hFree, upsert_of_relaxes h hUpsert, Option.map_some]

def newcomers (k : Constraints C) (old rows : List (Row C)) : List (Row C) :=
  rows.filter fun row => !old.any (k.conflict row)

/-- The older rows that no row conflicts with. -/
def survivors (k : Constraints C) (old rows : List (Row C)) : List (Row C) :=
  old.filter fun other => !rows.any fun row => k.conflict row other

theorem insertOrIgnore_of_refused (h : k.admits row = false) : insertOrIgnore k rows row = rows := by
  rw [insertOrIgnore, insert, h]
  rfl

theorem insertOrIgnore_of_taken (h : rows.any (k.conflict row)) :
    insertOrIgnore k rows row = rows := by
  rw [insertOrIgnore, insert, h, Bool.not_true, Bool.and_false]
  rfl

theorem insertOrIgnore_of_free (hAdmits : k.admits row) (h : ¬rows.any (k.conflict row)) :
    insertOrIgnore k rows row = rows ++ [row] := by
  rw [insertOrIgnore, insert, hAdmits, Bool.eq_false_iff.mpr h]
  rfl

theorem newcomers_append (later : List (Row C)) :
    newcomers k old (rows ++ later) = newcomers k old rows ++ newcomers k old later :=
  List.filter_append rows later

/-- A row that is kept out by another is kept out by that one or by an older row. -/
theorem any_conflict_newcomers (h : rows.any (k.conflict row)) :
    (old ++ newcomers k old rows).any (k.conflict row) := by
  obtain ⟨other, hMem, hConflict⟩ := List.any_eq_true.mp h
  rw [List.any_append, Bool.or_eq_true]
  cases hOld : old.any (k.conflict other) with
  | true =>
    obtain ⟨older, hOlder, hTaken⟩ := List.any_eq_true.mp hOld
    exact .inl (List.any_eq_true.mpr ⟨older, hOlder, conflict_trans hConflict hTaken⟩)
  | false =>
    refine .inr (List.any_eq_true.mpr ⟨other, List.mem_filter.mpr ⟨hMem, ?_⟩, hConflict⟩)
    rw [hOld]
    rfl

theorem insertOrIgnore_older : insertOrIgnore k (old ++ newcomers k old rows) row =
    old ++ newcomers k old (insertOrIgnore k rows row) := by
  cases hAdmits : k.admits row with
  | false => rw [insertOrIgnore_of_refused hAdmits, insertOrIgnore_of_refused hAdmits]
  | true =>
    by_cases hTaken : rows.any (k.conflict row)
    · rw [insertOrIgnore_of_taken hTaken, insertOrIgnore_of_taken (any_conflict_newcomers hTaken)]
    rw [insertOrIgnore_of_free hAdmits hTaken, newcomers_append]
    by_cases hOld : old.any (k.conflict row)
    · have hNone : newcomers k old [row] = [] := by
        rw [newcomers, List.filter_singleton, hOld]
        rfl
      rw [hNone, List.append_nil, insertOrIgnore_of_taken]
      rw [List.any_append, hOld, Bool.true_or]
    · have hOne : newcomers k old [row] = [row] := by
        rw [newcomers, List.filter_singleton, Bool.eq_false_iff.mpr hOld]
        rfl
      rw [hOne, insertOrIgnore_of_free hAdmits, List.append_assoc]
      rw [any_conflict_append hOld]
      intro hNew
      obtain ⟨other, hMem, hConflict⟩ := List.any_eq_true.mp hNew
      exact hTaken (List.any_eq_true.mpr ⟨other, List.mem_of_mem_filter hMem, hConflict⟩)

/-- Of the older rows, the same are gone as if it had been in front of them alone. -/
theorem survivors_replace : survivors k old (rows.filter (!k.conflict row ·) ++ [row]) =
    (survivors k old rows).filter (!k.conflict row ·) := by
  rw [survivors, survivors, List.filter_filter]
  refine List.filter_congr fun other _ => ?_
  rw [List.any_append, List.any_cons, List.any_nil, Bool.or_false]
  cases hRow : k.conflict row other with
  | true => rw [Bool.or_true, Bool.not_true, Bool.false_and]
  | false =>
    rw [Bool.or_false, Bool.not_false, Bool.true_and, List.any_filter]
    congr 2
    funext mid
    cases hMid : k.conflict mid other with
    | false => rw [Bool.and_false]
    | true =>
      have hFree : k.conflict row mid = false := by
        rw [Bool.eq_false_iff]
        intro hConflict
        cases hRow.symm.trans (conflict_trans hConflict hMid)
      rw [hFree]
      rfl

theorem insertOrReplace_older : insertOrReplace k (survivors k old rows ++ rows) row =
    (insertOrReplace k rows row).map fun rows => survivors k old rows ++ rows := by
  rw [insertOrReplace, insertOrReplace]
  split
  · rw [Option.map_some, survivors_replace, List.filter_append, List.append_assoc]
  · rfl

end Older

section Offers

variable {C : Type} {k : Constraints C} {c : C} {rows : List (Row C)}

theorem rowsWith_insertOrIgnore_of_ne {row : Row C} {v : Value} (hOther : row c ≠ v) :
    rowsWith c v (insertOrIgnore k rows row) = rowsWith c v rows := by
  rw [insertOrIgnore]
  cases hInsert : insert k rows row with
  | none => rfl
  | some rows' => exact rowsWith_insert_of_ne hInsert hOther

/-- Of the rows offered under a key, the first that is admitted stays, unless the key is taken. -/
theorem rowsWith_insertOrIgnores (hUnique : k.unique = some c)
    (hKey : ∀ row, k.admits row → row c ≠ .null) (offers : List (Row C)) (v : Value) :
    rowsWith c v (offers.foldl (insertOrIgnore k) rows) =
      if rowsWith c v rows = [] then (rowsWith c v (offers.filter k.admits)).head?.toList
      else rowsWith c v rows := by
  induction offers generalizing rows with
  | nil =>
    rw [List.foldl_nil]
    split
    next hNone => rw [hNone]; rfl
    next => rfl
  | cons row offers ih =>
    rw [List.foldl_cons, ih]
    cases hAdmits : k.admits row with
    | false =>
      rw [insertOrIgnore_of_refused hAdmits, List.filter_cons_of_neg (by simp [hAdmits])]
    | true =>
      rw [List.filter_cons_of_pos hAdmits]
      have hTaken := @any_conflict_iff C k c rows row hUnique (hKey row hAdmits)
      by_cases hSame : row c = v
      · subst hSame
        have hFirst : rowsWith c (row c) (row :: offers.filter k.admits) =
            row :: rowsWith c (row c) (offers.filter k.admits) :=
          List.filter_cons_of_pos (by simp)
        by_cases hFree : rowsWith c (row c) rows = []
        · have hHere : rowsWith c (row c) [row] = [row] := List.filter_cons_of_pos (by simp)
          rw [insertOrIgnore_of_free hAdmits (hTaken.not.mpr (not_not.mpr hFree)), rowsWith_append,
            hFree, hHere, hFirst, List.nil_append, if_neg (List.cons_ne_nil row []), if_pos rfl]
          rfl
        · rw [insertOrIgnore_of_taken (hTaken.mpr hFree), if_neg hFree, if_neg hFree]
      · have hRest : rowsWith c v (row :: offers.filter k.admits) =
            rowsWith c v (offers.filter k.admits) :=
          List.filter_cons_of_neg (by simpa using hSame)
        rw [rowsWith_insertOrIgnore_of_ne hSame, hRest]

end Offers

/-- A run whose every step another follows is followed by it. -/
theorem foldlM_of_step {α σ τ : Type} {f : σ → α → Option σ} {g : τ → α → Option τ} {m : σ → τ}
    {l : List α} (hStep : ∀ a ∈ l, ∀ s s', f s a = some s' → g (m s) a = some (m s')) {s s' : σ}
    (h : l.foldlM f s = some s') : l.foldlM g (m s) = some (m s') := by
  induction l generalizing s with
  | nil =>
    cases h
    rfl
  | cons a l ih =>
    rw [List.forall_mem_cons] at hStep
    rw [List.foldlM_cons, Option.bind_eq_bind, Option.bind_eq_some_iff] at h ⊢
    obtain ⟨mid, hFirst, hRest⟩ := h
    exact ⟨m mid, hStep.1 s mid hFirst, ih hStep.2 hRest⟩

end KalshiBot.Sqlite

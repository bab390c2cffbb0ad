import Mathlib.Data.Rat.Defs
import Mathlib.Data.List.Basic

/-! # Rows of an SQL table and the inserts into it

A row gives a value for every column. A table has at most one unique column, in which
null conflicts with nothing; `admits` is what its `NOT NULL` and `CHECK` constraints
allow. A statement that raises is `none`.
-/

namespace KalshiBot.Sqlite

set_option autoImplicit false

inductive Value where
  | null
  | integer (i : ℤ)
  | real (q : ℚ)
  | text (s : String)
  deriving DecidableEq

variable {C : Type}

abbrev Row (C : Type) := C → Value

structure Constraints (C : Type) where
  unique : Option C
  admits : Row C → Bool

/-- The two rows cannot both be in the table. -/
def Constraints.conflict (k : Constraints C) (row other : Row C) : Bool :=
  k.unique.any fun c => row c = other c && row c ≠ .null

def insert (k : Constraints C) (rows : List (Row C)) (row : Row C) : Option (List (Row C)) :=
  if k.admits row && !rows.any (k.conflict row) then some (rows ++ [row]) else none

def insertOrIgnore (k : Constraints C) (rows : List (Row C)) (row : Row C) : List (Row C) :=
  (insert k rows row).getD rows

def insertOrReplace (k : Constraints C) (rows : List (Row C)) (row : Row C) :
    Option (List (Row C)) :=
  if k.admits row then some (rows.filter (fun other => !k.conflict row other) ++ [row]) else none

/-- The other row with the given columns taken from the first. -/
def overwrite [DecidableEq C] (columns : List C) (row other : Row C) : Row C := fun c =>
  if c ∈ columns then row c else other c

/-- `INSERT … ON CONFLICT DO UPDATE SET` the given columns to those of the row offered. -/
def upsert [DecidableEq C] (k : Constraints C) (columns : List C) (rows : List (Row C))
    (row : Row C) : Option (List (Row C)) :=
  if !k.admits row then none
  else if rows.any (k.conflict row) then
    if (rows.filter (k.conflict row)).all fun other => k.admits (overwrite columns row other) then
      some (rows.map fun other => if k.conflict row other then overwrite columns row other else other)
    else none
  else some (rows ++ [row])

def rowsWith (c : C) (v : Value) (rows : List (Row C)) : List (Row C) :=
  rows.filter fun row => row c = v

section Unique

variable {k : Constraints C} {c : C} {v : Value} {rows rows' : List (Row C)} {row : Row C}

theorem conflict_iff (hUnique : k.unique = some c) (other : Row C) :
    k.conflict row other ↔ row c = other c ∧ row c ≠ .null := by
  simp [Constraints.conflict, hUnique]

theorem any_conflict_iff (hUnique : k.unique = some c) (hNull : row c ≠ .null) :
    rows.any (k.conflict row) ↔ rowsWith c (row c) rows ≠ [] := by
  rw [rowsWith, ne_eq, List.filter_eq_nil_iff, List.any_eq_true]
  simp [conflict_iff hUnique, hNull, eq_comm]

theorem insert_eq_some (h : insert k rows row = some rows') :
    rows' = rows ++ [row] ∧ k.admits row ∧ ¬rows.any (k.conflict row) := by
  unfold insert at h
  split at h
  next hFits =>
    cases h
    simpa using hFits
  · cases h

theorem rowsWith_append (c : C) (v : Value) (rows later : List (Row C)) :
    rowsWith c v (rows ++ later) = rowsWith c v rows ++ rowsWith c v later :=
  List.filter_append rows later

theorem rowsWith_insert_of_ne (h : insert k rows row = some rows') (hOther : row c ≠ v) :
    rowsWith c v rows' = rowsWith c v rows := by
  rw [(insert_eq_some h).1, rowsWith_append]
  simp [rowsWith, hOther]

theorem insert_of_absent (hUnique : k.unique = some c) (hNull : row c ≠ .null)
    (hAdmits : k.admits row) (hAbsent : rowsWith c (row c) rows = []) :
    insert k rows row = some (rows ++ [row]) := by
  have hFree : ¬rows.any (k.conflict row) := by
    rw [any_conflict_iff hUnique hNull]
    exact not_not.mpr hAbsent
  simp [insert, hAdmits, hFree]

theorem insert_of_present (hUnique : k.unique = some c) (hNull : row c ≠ .null)
    (hPresent : rowsWith c (row c) rows ≠ []) : insert k rows row = none := by
  have hTaken := (any_conflict_iff hUnique hNull).mpr hPresent
  simp [insert, hTaken]

theorem rowsWith_insertOrIgnore_ne_nil (hUnique : k.unique = some c) (hNull : row c ≠ .null)
    (hAdmits : k.admits row) : rowsWith c (row c) (insertOrIgnore k rows row) ≠ [] := by
  by_cases hAbsent : rowsWith c (row c) rows = []
  · rw [insertOrIgnore, insert_of_absent hUnique hNull hAdmits hAbsent, Option.getD_some,
      rowsWith_append]
    simp [rowsWith]
  · rw [insertOrIgnore, insert_of_present hUnique hNull hAbsent]
    exact hAbsent

variable [DecidableEq C] {columns : List C}

theorem upsert_of_absent (hUnique : k.unique = some c) (hNull : row c ≠ .null)
    (hAdmits : k.admits row) (hAbsent : rowsWith c (row c) rows = []) :
    upsert k columns rows row = some (rows ++ [row]) := by
  have hFree : ¬rows.any (k.conflict row) := by
    rw [any_conflict_iff hUnique hNull]
    exact not_not.mpr hAbsent
  simp [upsert, hAdmits, hFree]

/-- An update that leaves the column alone moves no row to another key. -/
theorem rowsWith_overwrite (hKey : c ∉ columns) :
    rowsWith c v (rows.map fun other =>
        if k.conflict row other then overwrite columns row other else other) =
      (rowsWith c v rows).map fun other =>
        if k.conflict row other then overwrite columns row other else other := by
  rw [rowsWith, List.filter_map]
  congr 1
  apply List.filter_congr
  intro other _
  simp only [Function.comp_apply]
  split
  · rw [overwrite, if_neg hKey]
  · rfl

theorem rowsWith_upsert_of_ne (hUnique : k.unique = some c) (hKey : c ∉ columns)
    (h : upsert k columns rows row = some rows') (hOther : row c ≠ v) :
    rowsWith c v rows' = rowsWith c v rows := by
  unfold upsert at h
  split at h
  · cases h
  · split at h
    · split at h
      · cases h
        rw [rowsWith_overwrite hKey]
        refine (List.map_congr_left fun other hOther' => ?_).trans (List.map_id _)
        have hValue : other c = v := by simpa using (List.mem_filter.mp hOther').2
        have hFree : ¬k.conflict row other := fun hConflict =>
          hOther (((conflict_iff hUnique other).mp hConflict).1.trans hValue)
        rw [if_neg hFree, id_eq]
      · cases h
    · cases h
      rw [rowsWith_append]
      simp [rowsWith, hOther]

theorem upsert_of_present (hUnique : k.unique = some c) (hKey : c ∉ columns) (hNull : row c ≠ .null)
    (hAdmits : k.admits row) {old : Row C} (hPresent : rowsWith c (row c) rows = [old])
    (hUpdated : k.admits (overwrite columns row old)) :
    ∃ rows', upsert k columns rows row = some rows' ∧
      rowsWith c (row c) rows' = [overwrite columns row old] := by
  have hTaken : rows.any (k.conflict row) := by
    rw [any_conflict_iff hUnique hNull, hPresent]
    exact List.cons_ne_nil old []
  have hConflicts : rows.filter (k.conflict row) = [old] := by
    rw [← hPresent, rowsWith]
    apply List.filter_congr
    intro other _
    rw [Bool.eq_iff_iff, conflict_iff hUnique]
    simp [hNull, eq_comm]
  have hOld : k.conflict row old := by
    have hMem : old ∈ rows.filter (k.conflict row) := hConflicts ▸ List.mem_cons_self
    exact (List.mem_filter.mp hMem).2
  refine ⟨_, by simp [upsert, hAdmits, hTaken, hConflicts, hUpdated]; rfl, ?_⟩
  rw [rowsWith_overwrite hKey, hPresent, List.map_singleton, if_pos hOld]

end Unique

end KalshiBot.Sqlite

import KalshiBot.Library.Sqlite
import Mathlib.Data.List.Induction

/-! # Rows that replace older ones

Under a key, a run of `INSERT OR REPLACE` leaves the last row offered that the table admits.
-/

namespace KalshiBot.Sqlite

set_option autoImplicit false

variable {C : Type} {k : Constraints C} {c : C} {v : Value} {rows : List (Row C)} {row : Row C}

/-- A replacement that a constraint refuses changes nothing. -/
def replaceIn (k : Constraints C) (rows : List (Row C)) (row : Row C) : List (Row C) :=
  (insertOrReplace k rows row).getD rows

theorem replaceIn_of_refused (h : k.admits row = false) : replaceIn k rows row = rows := by
  rw [replaceIn, insertOrReplace, h, if_neg Bool.false_ne_true, Option.getD_none]

theorem replaceIn_of_admits (h : k.admits row = true) :
    replaceIn k rows row = rows.filter (fun other => !k.conflict row other) ++ [row] := by
  rw [replaceIn, insertOrReplace, h, if_pos rfl, Option.getD_some]

theorem rowsWith_replaceIn (hUnique : k.unique = some c) (hKey : v ≠ .null)
    (hAdmits : k.admits row = true) :
    rowsWith c v (replaceIn k rows row) = if row c = v then [row] else rowsWith c v rows := by
  rw [replaceIn_of_admits hAdmits, rowsWith_append]
  by_cases hSame : row c = v
  · have hOthers : rowsWith c v (rows.filter fun other => !k.conflict row other) = [] := by
      refine List.filter_eq_nil_iff.mpr fun other hOther hValue => ?_
      have hFree := (List.mem_filter.mp hOther).2
      have hConflict : k.conflict row other = true := by
        refine (conflict_iff hUnique other).mpr ⟨?_, hSame.symm ▸ hKey⟩
        exact hSame.trans (of_decide_eq_true hValue).symm
      rw [hConflict] at hFree
      cases hFree
    have hHere : rowsWith c v [row] = [row] := List.filter_cons_of_pos (decide_eq_true hSame)
    rw [hOthers, hHere, if_pos hSame, List.nil_append]
  · have hKept : rowsWith c v (rows.filter fun other => !k.conflict row other) =
        rowsWith c v rows := by
      rw [rowsWith, rowsWith, List.filter_filter]
      refine List.filter_congr fun other _ => ?_
      by_cases hValue : other c = v
      · have hFree : k.conflict row other = false := by
          refine Bool.eq_false_iff.mpr fun hConflict => hSame ?_
          exact ((conflict_iff hUnique other).mp hConflict).1.trans hValue
        rw [hFree, Bool.not_false, Bool.and_true]
      · rw [decide_eq_false hValue, Bool.false_and]
    have hHere : rowsWith c v [row] = [] := List.filter_cons_of_neg (by simpa using hSame)
    rw [hKept, hHere, if_neg hSame, List.append_nil]

/-- The last of the offers, or the older rows where there is none. -/
def latest (older offers : List (Row C)) : List (Row C) :=
  offers.getLast?.elim older fun last => [last]

theorem rowsWith_replaceIns (hUnique : k.unique = some c) (hKey : v ≠ .null)
    (offers : List (Row C)) :
    rowsWith c v (offers.foldl (replaceIn k) rows) =
      latest (rowsWith c v rows) (rowsWith c v (offers.filter k.admits)) := by
  induction offers using List.reverseRecOn with
  | nil => rfl
  | append_singleton offers row ih =>
    rw [List.foldl_append, List.foldl_cons, List.foldl_nil, List.filter_append]
    cases hAdmits : k.admits row with
    | false =>
      rw [replaceIn_of_refused hAdmits, ih, List.filter_cons_of_neg (by simp [hAdmits]),
        List.filter_nil, List.append_nil]
    | true =>
      rw [rowsWith_replaceIn hUnique hKey hAdmits, List.filter_cons_of_pos hAdmits,
        List.filter_nil, rowsWith_append]
      by_cases hSame : row c = v
      · have hHere : rowsWith c v [row] = [row] := List.filter_cons_of_pos (decide_eq_true hSame)
        rw [if_pos hSame, hHere, latest, List.getLast?_concat, Option.elim_some]
      · have hHere : rowsWith c v [row] = [] := List.filter_cons_of_neg (by simpa using hSame)
        rw [if_neg hSame, hHere, List.append_nil, ih]

end KalshiBot.Sqlite

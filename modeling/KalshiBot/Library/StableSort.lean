import Mathlib.Data.List.Sort
import Mathlib.Order.Defs.LinearOrder

/-! # Stable sorting by a key

A sorted list is determined by the entries of each key in their order.
-/

namespace KalshiBot.StableSort

set_option autoImplicit false

variable {α K : Type} [LinearOrder K] (key : α → K)

def KeyLe (a b : α) : Prop := key a ≤ key b

instance : DecidableRel (KeyLe key) := fun a b => inferInstanceAs (Decidable (key a ≤ key b))

instance : Std.Total (KeyLe key) := ⟨fun a b => le_total (key a) (key b)⟩

instance : IsTrans α (KeyLe key) := ⟨fun _ _ _ => le_trans⟩

def sortBy (entries : List α) : List α := entries.insertionSort (KeyLe key)

/-- The entries with one key, in their order. -/
def ties (k : K) (entries : List α) : List α := entries.filter fun entry => key entry = k

variable {key} {entries entries' : List α}

theorem sortBy_perm (entries : List α) : (sortBy key entries).Perm entries :=
  List.perm_insertionSort (KeyLe key) entries

theorem sortBy_pairwise (entries : List α) : (sortBy key entries).Pairwise (KeyLe key) :=
  List.pairwise_insertionSort (KeyLe key) entries

theorem ties_cons (k : K) (entry : α) (entries : List α) :
    ties key k (entry :: entries) =
      if key entry = k then entry :: ties key k entries else ties key k entries := by
  simp only [ties, List.filter_cons, decide_eq_true_eq]

theorem mem_ties {k : K} {entry : α} :
    entry ∈ ties key k entries ↔ entry ∈ entries ∧ key entry = k := by
  rw [ties, List.mem_filter, decide_eq_true_eq]

theorem ties_sortBy (k : K) (entries : List α) :
    ties key k (sortBy key entries) = ties key k entries := by
  have hTied : (ties key k entries).Pairwise (KeyLe key) := by
    refine List.pairwise_of_forall_mem_list fun a ha b hb => ?_
    exact ((mem_ties.mp ha).2.trans (mem_ties.mp hb).2.symm).le
  have hSublist : (ties key k entries).Sublist (sortBy key entries) :=
    List.sublist_insertionSort hTied List.filter_sublist
  have hFiltered := hSublist.filter fun entry => key entry = k
  have hAgain : (ties key k entries).filter (fun entry => key entry = k) = ties key k entries := by
    rw [ties, List.filter_filter]
    simp only [Bool.and_self]
  rw [hAgain] at hFiltered
  have hPerm : (sortBy key entries).Perm entries := sortBy_perm entries
  have hLength := (hPerm.filter fun entry => key entry = k).length_eq
  exact (hFiltered.eq_of_length hLength.symm).symm

theorem head_le_of_ties {entry entry' : α}
    (hSorted : (entry' :: entries').Pairwise (KeyLe key))
    (hTies : ∀ k, ties key k (entry :: entries) = ties key k (entry' :: entries')) :
    key entry' ≤ key entry := by
  have hMem : entry ∈ ties key (key entry) (entry :: entries) :=
    mem_ties.mpr ⟨List.mem_cons_self, rfl⟩
  rw [hTies] at hMem
  obtain rfl | hLater := List.mem_cons.mp (mem_ties.mp hMem).1
  · exact le_rfl
  · exact (List.pairwise_cons.mp hSorted).1 entry hLater

theorem eq_of_ties (hSorted : entries.Pairwise (KeyLe key)) (hSorted' : entries'.Pairwise (KeyLe key))
    (hTies : ∀ k, ties key k entries = ties key k entries') : entries = entries' := by
  induction entries generalizing entries' with
  | nil =>
    cases entries' with
    | nil => rfl
    | cons entry' rest' =>
      have hHead := hTies (key entry')
      rw [ties_cons, if_pos rfl] at hHead
      cases hHead
  | cons entry rest ih =>
    cases entries' with
    | nil =>
      have hHead := hTies (key entry)
      rw [ties_cons, if_pos rfl] at hHead
      cases hHead
    | cons entry' rest' =>
      have hKey : key entry = key entry' :=
        le_antisymm (head_le_of_ties hSorted fun k => (hTies k).symm)
          (head_le_of_ties hSorted' hTies)
      have hHead := hTies (key entry)
      rw [ties_cons, ties_cons, if_pos rfl, if_pos hKey.symm] at hHead
      obtain ⟨rfl, hSame⟩ := List.cons.inj hHead
      refine congrArg (entry :: ·) (ih hSorted.of_cons hSorted'.of_cons fun k => ?_)
      have hAt := hTies k
      rw [ties_cons, ties_cons] at hAt
      split at hAt
      · exact (List.cons.inj hAt).2
      · exact hAt

/-- Whatever is sorted and has the same entries with each key is the stable sort. -/
theorem eq_sortBy (hSorted : entries.Pairwise (KeyLe key))
    (hTies : ∀ k, ties key k entries = ties key k entries') : entries = sortBy key entries' :=
  eq_of_ties hSorted (sortBy_pairwise entries') fun k =>
    (hTies k).trans (ties_sortBy k entries').symm

end KalshiBot.StableSort

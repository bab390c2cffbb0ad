import Mathlib.Logic.Function.Basic
import Mathlib.Order.Lattice
import Mathlib.Order.Nat

/-! # Files with exclusive locks

A name leads to a file, an open description refers to the file it was opened on, and the lock
of a file belongs to a description. Taking a name away moves no lock, and a description that
is closed, by its process or by the end of it, holds none.
-/

namespace KalshiBot.Library

set_option autoImplicit false

structure Description where
  file : ℕ
  process : ℕ
  deriving DecidableEq

/-- Files and descriptions are numbered as they are made; no number is given out twice. -/
structure FileTable (Path : Type) where
  named : Path → Option ℕ
  contents : ℕ → List Char
  opened : ℕ → Option Description
  owner : ℕ → Option ℕ
  files : ℕ
  descriptions : ℕ
  named_lt : ∀ path file, named path = some file → file < files
  opened_lt : ∀ d x, opened d = some x → d < descriptions ∧ x.file < files
  owner_opened : ∀ file d, owner file = some d → ∃ x, opened d = some x ∧ x.file = file

namespace FileTable

variable {Path : Type} (t : FileTable Path)

def empty : FileTable Path where
  named _ := none
  contents _ := []
  opened _ := none
  owner _ := none
  files := 0
  descriptions := 0
  named_lt _ _ h := by cases h
  opened_lt _ _ h := by cases h
  owner_opened _ _ h := by cases h

/-- The file that opening the name leads to: the one that it names, or else a new one. -/
def target (path : Path) : ℕ := (t.named path).getD t.files

/-- Open for reading and writing, and create what is missing; nothing is truncated. -/
def openCreate [DecidableEq Path] (path : Path) (process : ℕ) : FileTable Path where
  named := Function.update t.named path (some (t.target path))
  contents := if t.named path = none then Function.update t.contents t.files [] else t.contents
  opened := Function.update t.opened t.descriptions (some ⟨t.target path, process⟩)
  owner := t.owner
  files := max t.files (t.target path + 1)
  descriptions := t.descriptions + 1
  named_lt other file h := by
    by_cases hPath : other = path
    · subst other
      rw [Function.update_self] at h
      cases h
      omega
    · rw [Function.update_of_ne hPath] at h
      exact Nat.lt_of_lt_of_le (t.named_lt other file h) (Nat.le_max_left _ _)
  opened_lt d x h := by
    by_cases hNew : d = t.descriptions
    · subst d
      rw [Function.update_self] at h
      cases h
      exact ⟨Nat.lt_succ_self _, Nat.le_max_right _ _⟩
    · rw [Function.update_of_ne hNew] at h
      obtain ⟨hLt, hFile⟩ := t.opened_lt d x h
      exact ⟨Nat.lt_succ_of_lt hLt, Nat.lt_of_lt_of_le hFile (Nat.le_max_left _ _)⟩
  owner_opened file d h := by
    obtain ⟨x, hOpened, hFile⟩ := t.owner_opened file d h
    have hOld : d ≠ t.descriptions := Nat.ne_of_lt (t.opened_lt d x hOpened).1
    exact ⟨x, by rwa [Function.update_of_ne hOld], hFile⟩

/-- Take the lock without waiting; `none` where another description has it. -/
def lockNow (d : ℕ) : Option (FileTable Path) :=
  match hOpened : t.opened d with
  | none => none
  | some x =>
    match t.owner x.file with
    | some other => if other = d then some t else none
    | none => some { t with
        owner := Function.update t.owner x.file (some d)
        owner_opened := by
          intro file other h
          by_cases hFile : file = x.file
          · subst file
            rw [Function.update_self] at h
            cases h
            exact ⟨x, hOpened, rfl⟩
          · rw [Function.update_of_ne hFile] at h
            exact t.owner_opened file other h }

/-- Give up the locks that belong to a description. -/
def unlock (d : ℕ) : FileTable Path :=
  { t with
    owner := fun file => (t.owner file).filter (· != d)
    owner_opened := fun file other h =>
      t.owner_opened file other (Option.eq_some_of_filter_eq_some h) }

/-- Close descriptions, which gives up their locks. -/
def closeWhere (shut : ℕ → Description → Bool) : FileTable Path where
  named := t.named
  contents := t.contents
  opened d := (t.opened d).filter fun x => !shut d x
  owner file := (t.owner file).filter fun d => ((t.opened d).filter fun x => !shut d x).isSome
  files := t.files
  descriptions := t.descriptions
  named_lt := t.named_lt
  opened_lt d x h := t.opened_lt d x (Option.eq_some_of_filter_eq_some h)
  owner_opened file d h := by
    obtain ⟨hOwner, hSome⟩ := Option.filter_eq_some_iff.mp h
    obtain ⟨x, hOpened⟩ := Option.isSome_iff_exists.mp hSome
    obtain ⟨y, hWas, hFile⟩ := t.owner_opened file d hOwner
    rw [Option.eq_some_of_filter_eq_some hOpened] at hWas
    cases hWas
    exact ⟨x, hOpened, hFile⟩

def close (d : ℕ) : FileTable Path := t.closeWhere fun other _ => other == d

/-- The end of a process, however it ends. -/
def exit (process : ℕ) : FileTable Path := t.closeWhere fun _ x => x.process == process

/-- Change what the file of a description holds. -/
def edit (d : ℕ) (change : List Char → List Char) : FileTable Path :=
  match t.opened d with
  | none => t
  | some x => { t with contents := Function.update t.contents x.file (change (t.contents x.file)) }

def truncate (d : ℕ) : FileTable Path := t.edit d fun _ => []

/-- A first write, which starts at the beginning of the file. -/
def write (d : ℕ) (text : List Char) : FileTable Path :=
  t.edit d fun old => text ++ old.drop text.length

def unlink [DecidableEq Path] (path : Path) : FileTable Path :=
  { t with
    named := Function.update t.named path none
    named_lt := by
      intro other file h
      by_cases hPath : other = path
      · subst other
        rw [Function.update_self] at h
        cases h
      · rw [Function.update_of_ne hPath] at h
        exact t.named_lt other file h }

section Lemmas

variable {t} {t' : FileTable Path} {path other : Path} {d d' file process : ℕ} {x : Description}
  {shut : ℕ → Description → Bool} {change : List Char → List Char}

section Naming

variable [DecidableEq Path]

theorem opened_openCreate :
    (t.openCreate path process).opened d =
      if d = t.descriptions then some ⟨t.target path, process⟩ else t.opened d :=
  Function.update_apply _ _ _ _

theorem named_openCreate_self : (t.openCreate path process).named path = some (t.target path) :=
  Function.update_self _ _ _

theorem named_openCreate_of_ne (h : other ≠ path) :
    (t.openCreate path process).named other = t.named other :=
  Function.update_of_ne h _ _

theorem opened_openCreate_of_some (h : t.opened d = some x) :
    (t.openCreate path process).opened d = some x := by
  rw [opened_openCreate, if_neg (Nat.ne_of_lt (t.opened_lt d x h).1)]
  exact h

theorem contents_openCreate (h : t.opened d = some x) :
    (t.openCreate path process).contents x.file = t.contents x.file := by
  simp only [openCreate]
  split
  · exact Function.update_of_ne (Nat.ne_of_lt (t.opened_lt d x h).2) _ _
  · rfl

end Naming

/-- Either the description has the lock now, and nothing else is different, or another one has. -/
theorem lockNow_cases (hOpened : t.opened d = some x) :
    (∃ t', t.lockNow d = some t' ∧ (t.owner x.file = none ∨ t.owner x.file = some d) ∧
      t'.owner = Function.update t.owner x.file (some d) ∧ t'.opened = t.opened ∧
      t'.named = t.named ∧ t'.contents = t.contents ∧ t'.descriptions = t.descriptions) ∨
    t.lockNow d = none ∧ ∃ d', t.owner x.file = some d' ∧ d' ≠ d := by
  unfold lockNow
  split
  next hNone => rw [hOpened] at hNone; cases hNone
  next y hSome =>
    rw [hOpened] at hSome
    cases hSome
    split
    next d' hOwner =>
      by_cases hSame : d' = d
      · subst d'
        rw [if_pos rfl]
        exact .inl ⟨t, rfl, .inr hOwner, by rw [← hOwner, Function.update_eq_self], rfl, rfl, rfl,
          rfl⟩
      · rw [if_neg hSame]
        exact .inr ⟨rfl, d', hOwner, hSame⟩
    next hOwner => exact .inl ⟨_, rfl, .inl hOwner, rfl, rfl, rfl, rfl, rfl⟩

theorem lockNow_frame (h : t.lockNow d = some t') : t'.named = t.named ∧ t'.opened = t.opened := by
  cases hOpened : t.opened d with
  | none =>
    unfold lockNow at h
    split at h
    · cases h
    next hSome => rw [hOpened] at hSome; cases hSome
  | some x =>
    obtain ⟨u, hEq, -, -, hOpen, hNamed, -⟩ | ⟨hNone, -⟩ := lockNow_cases hOpened
    · rw [hEq] at h
      cases h
      exact ⟨hNamed, hOpen⟩
    · rw [hNone] at h
      cases h

theorem owner_unlock : (t.unlock d).owner file = some d' ↔ t.owner file = some d' ∧ d' ≠ d := by
  simp [unlock, Option.filter_eq_some_iff]

theorem opened_closeWhere :
    (t.closeWhere shut).opened d = some x ↔ t.opened d = some x ∧ shut d x = false := by
  simp [closeWhere, Option.filter_eq_some_iff]

theorem owner_closeWhere (hOpened : t.opened d = some x) :
    (t.closeWhere shut).owner file = some d ↔ t.owner file = some d ∧ shut d x = false := by
  simp [closeWhere, Option.filter_eq_some_iff, hOpened]

theorem owner_of_closeWhere (h : (t.closeWhere shut).owner file = some d) :
    t.owner file = some d :=
  Option.eq_some_of_filter_eq_some h

theorem contents_edit (hOpened : t.opened d = some x) :
    (t.edit d change).contents =
      Function.update t.contents x.file (change (t.contents x.file)) := by
  rw [edit, hOpened]

theorem opened_edit : (t.edit d change).opened = t.opened := by
  unfold edit
  split <;> rfl

theorem owner_edit : (t.edit d change).owner = t.owner := by
  unfold edit
  split <;> rfl

theorem named_edit : (t.edit d change).named = t.named := by
  unfold edit
  split <;> rfl

/-- A description that has not been made owns no lock, and a file that has not been made has none. -/
theorem owner_lt (h : t.owner file = some d) : file < t.files ∧ d < t.descriptions := by
  obtain ⟨x, hOpened, rfl⟩ := t.owner_opened file d h
  exact (t.opened_lt d x hOpened).symm

theorem owner_target [DecidableEq Path] (h : t.owner (t.target path) = some d) :
    t.named path = some (t.target path) := by
  cases hNamed : t.named path with
  | none =>
    have hNew : t.target path = t.files := by rw [target, hNamed, Option.getD_none]
    rw [hNew] at h
    exact absurd (owner_lt h).1 (Nat.lt_irrefl _)
  | some file => rw [target, hNamed, Option.getD_some]

/-- To open a file and close it again moves no lock. -/
theorem owner_close_openCreate [DecidableEq Path] :
    ((t.openCreate path process).close t.descriptions).owner = t.owner := by
  funext file
  cases hOwner : t.owner file with
  | none => simp only [close, closeWhere, openCreate, hOwner, Option.filter_none]
  | some d =>
    obtain ⟨x, hOpened, -⟩ := t.owner_opened file d hOwner
    exact (owner_closeWhere (opened_openCreate_of_some hOpened)).mpr
      ⟨hOwner, beq_eq_false_iff_ne.mpr (Nat.ne_of_lt (owner_lt hOwner).2)⟩

end Lemmas

end FileTable

end KalshiBot.Library

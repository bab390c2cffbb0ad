import KalshiBot.Library.Runs
import KalshiBot.Runtime.SingleInstance
import Mathlib.Combinatorics.Enumerative.DoubleCounting

/-! # Runs of processes that ask for a single-instance lock

Any number of processes, each with its lock objects, act in any order; any of them may end
between two system calls, and the name of a lock file may be removed at any time.
-/

namespace KalshiBot.Runtime

open Library Runs

set_option autoImplicit false

structure LockSystem (Path : Type) where
  table : FileTable Path
  locks : ℕ → SingleInstanceLock Path

inductive LockEvent (Path : Type) where
  | acquire (o : ℕ)
  | release (o : ℕ)
  | advance (o : ℕ)
  | fail (o : ℕ)
  | exit (process : ℕ)
  | unlink (path : Path)
  deriving DecidableEq

namespace LockSystem

variable {Path : Type}

/-- One object makes one system call. -/
def act (s : LockSystem Path) (o : ℕ) (after : FileTable Path × SingleInstanceLock Path) :
    LockSystem Path where
  table := after.1
  locks := Function.update s.locks o after.2

def step [DecidableEq Path] (s : LockSystem Path) : LockEvent Path → LockSystem Path
  | .acquire o =>
    if (s.locks o).call = .idle then s.act o ((s.locks o).acquire s.table) else s
  | .release o =>
    if (s.locks o).call = .idle then s.act o ((s.locks o).release s.table) else s
  | .advance o => s.act o ((s.locks o).advance s.table)
  | .fail o => s.act o (s.table, (s.locks o).fail)
  | .exit process =>
    { table := s.table.exit process
      locks := fun o => if (s.locks o).process = process then (s.locks o).fresh else s.locks o }
  | .unlink path => { s with table := s.table.unlink path }

/-- Nothing is open and no object has done anything yet; files may exist. -/
structure Started (s : LockSystem Path) : Prop where
  fresh : ∀ o, s.locks o = (s.locks o).fresh
  unowned : ∀ file, s.table.owner file = none

/-- Process `o` with one lock object, for each `o`, and no file yet. -/
def created (lockPath : ℕ → Path) : LockSystem Path where
  table := .empty
  locks o := { lockPath := lockPath o, process := o }

theorem started_created (lockPath : ℕ → Path) : (created lockPath).Started where
  fresh _ := rfl
  unowned _ := rfl

/-- The system in every reachable state: each object is sound, and no descriptor has two users. -/
structure Sound (s : LockSystem Path) : Prop where
  locks : ∀ o, (s.locks o).Sound s.table
  apart : ∀ o o' d, (s.locks o).Uses d → (s.locks o').Uses d → o = o'

instance (x : SingleInstanceLock Path) (d : ℕ) : Decidable (x.Locks d) :=
  inferInstanceAs (Decidable (_ ∨ _ ∨ _ ∧ _))

variable {s : LockSystem Path} {o : ℕ} {after : FileTable Path × SingleInstanceLock Path}

@[simp] theorem act_self : (s.act o after).locks o = after.2 := Function.update_self _ _ _

@[simp] theorem act_of_ne {p : ℕ} (h : p ≠ o) : (s.act o after).locks p = s.locks p :=
  Function.update_of_ne h _ _

theorem Started.sound (hStart : s.Started) : s.Sound where
  locks o := by
    rw [hStart.fresh o]
    exact SingleInstanceLock.sound_fresh
  apart o o' d hUses _ := by
    rw [hStart.fresh o] at hUses
    obtain hNone | hNone := hUses <;> cases hNone

/-- What the other objects need of a step of one. -/
theorem Sound.act (hSound : s.Sound) (hAfter : after.2.Sound after.1)
    (hKeeps : ∀ d, ¬(s.locks o).Uses d → SingleInstanceLock.Keeps s.table after.1 d)
    (hUses : ∀ d, after.2.Uses d → (s.locks o).Uses d ∨ s.table.opened d = none) :
    (s.act o after).Sound := by
  have hOther : ∀ p d, p ≠ o → (s.locks p).Uses d → ¬after.2.Uses d := by
    intro p d hNe hHas hNew
    obtain hOld | hFree := hUses d hNew
    · exact hNe (hSound.apart p o d hHas hOld)
    · obtain ⟨y, hOpened, -⟩ := (hSound.locks p).opened d hHas
      rw [hFree] at hOpened
      cases hOpened
  constructor
  · intro p
    by_cases hSame : p = o
    · subst p
      rw [act_self]
      exact hAfter
    · rw [act_of_ne hSame]
      exact (hSound.locks p).frame fun d hHas =>
        hKeeps d fun hOwn => hSame (hSound.apart p o d hHas hOwn)
  · intro p q d hp hq
    simp only [LockSystem.act, Function.update_apply] at hp hq
    split at hp <;> split at hq
    · subst p q
      rfl
    · exact absurd hp (hOther q d ‹_› hq)
    · exact absurd hq (hOther p d ‹_› hp)
    · exact hSound.apart p q d hp hq

theorem Sound.step [DecidableEq Path] (hSound : s.Sound) (event : LockEvent Path) : (s.step event).Sound := by
  cases event with
  | acquire o =>
    simp only [LockSystem.step]
    split
    next hIdle =>
      refine hSound.act ((hSound.locks o).acquire hIdle)
        (fun d _ => SingleInstanceLock.keeps_openCreate) fun d hUses => ?_
      obtain hOld | hNew := hUses
      · exact .inl (.inl hOld)
      · cases hNew
        right
        by_contra hSome
        obtain ⟨y, hOpened⟩ := Option.ne_none_iff_exists'.mp hSome
        exact lt_irrefl _ (s.table.opened_lt _ y hOpened).1
    next => exact hSound
  | release o =>
    simp only [LockSystem.step]
    split
    next =>
      obtain hFd | ⟨fd, hFd⟩ : (s.locks o).fd = none ∨ ∃ fd, (s.locks o).fd = some fd := by
        cases (s.locks o).fd with
        | none => exact .inl rfl
        | some fd => exact .inr ⟨fd, rfl⟩
      · refine hSound.act (hSound.locks o).release (fun d _ => ?_) fun d hUses => ?_
        · rw [SingleInstanceLock.release_of_none hFd]
          exact .refl
        · rw [SingleInstanceLock.release_of_none hFd] at hUses
          exact .inl hUses
      · refine hSound.act (hSound.locks o).release (fun d hNot => ?_) fun d hUses => ?_
        · rw [SingleInstanceLock.release_of_fd hFd]
          refine SingleInstanceLock.keeps_unlock ?_
          rintro rfl
          exact hNot (.inl hFd)
        · rw [SingleInstanceLock.release_of_fd hFd] at hUses
          obtain hOld | hNew := hUses
          · exact .inl (.inl hOld)
          · cases hNew
            exact .inl (.inl hFd)
    next => exact hSound
  | advance o =>
    exact hSound.act (hSound.locks o).advance
      (fun d hNot => SingleInstanceLock.keeps_advance (hSound.locks o) fun hFd => hNot (.inr hFd))
      fun d hUses => .inl (SingleInstanceLock.uses_advance hUses)
  | fail o =>
    exact hSound.act (hSound.locks o).fail (fun d _ => .refl)
      fun d hUses => .inl (SingleInstanceLock.uses_fail hUses)
  | exit process =>
    simp only [LockSystem.step]
    constructor
    · intro o
      simp only
      split
      next => exact SingleInstanceLock.sound_fresh
      next hNe =>
        refine (hSound.locks o).frame fun d hUses => SingleInstanceLock.keeps_closeWhere ?_
        intro y hOpened
        obtain ⟨z, hSame, hProcess⟩ := (hSound.locks o).opened d hUses
        rw [hOpened] at hSame
        cases hSame
        rw [hProcess]
        exact beq_eq_false_iff_ne.mpr hNe
    · intro p q d hp hq
      simp only at hp hq
      split at hp <;> split at hq
      · obtain hNone | hNone := hp <;> cases hNone
      · obtain hNone | hNone := hp <;> cases hNone
      · obtain hNone | hNone := hq <;> cases hNone
      · exact hSound.apart p q d hp hq
  | unlink path =>
    exact ⟨fun o => (hSound.locks o).frame fun d _ _ hOpened => ⟨hOpened, fun hOwner => ⟨hOwner, rfl⟩⟩,
      hSound.apart⟩

theorem Sound.run [DecidableEq Path] (hSound : s.Sound) (events : List (LockEvent Path)) :
    (events.foldl LockSystem.step s).Sound := by
  induction events generalizing s with
  | nil => exact hSound
  | cons event events ih => exact ih (hSound.step event)

section Fields

variable [DecidableEq Path]

theorem lockPath_step (event : LockEvent Path) (o : ℕ) :
    ((s.step event).locks o).lockPath = (s.locks o).lockPath := by
  have hAct : ∀ p (after : FileTable Path × SingleInstanceLock Path),
      after.2.lockPath = (s.locks p).lockPath →
      ((s.act p after).locks o).lockPath = (s.locks o).lockPath := by
    intro p after hPath
    by_cases hSame : o = p
    · subst o
      rw [act_self, hPath]
    · rw [act_of_ne hSame]
  cases event with
  | acquire p =>
    simp only [LockSystem.step]
    split
    · exact hAct p _ rfl
    · rfl
  | release p =>
    simp only [LockSystem.step]
    split
    · exact hAct p _ (s.locks p).release_frame.2.2.1
    · rfl
  | advance p => exact hAct p _ (s.locks p).advance_frame.2.2.1
  | fail p => exact hAct p _ (s.locks p).fail_frame.1
  | exit process =>
    simp only [LockSystem.step]
    split <;> rfl
  | unlink path => rfl

/-- A lock is lost by a `release` and by the end of the process, and by nothing else. -/
theorem has_step {event : LockEvent Path} (h : (s.locks o).Has)
    (hExit : event ≠ .exit (s.locks o).process) (hRelease : event ≠ .release o) :
    ((s.step event).locks o).Has := by
  have hAct : ∀ p (after : FileTable Path × SingleInstanceLock Path),
      (o = p → after.2.Has) → ((s.act p after).locks o).Has := by
    intro p after hAfter
    by_cases hSame : o = p
    · subst o
      rw [act_self]
      exact hAfter rfl
    · rw [act_of_ne hSame]
      exact h
  cases event with
  | acquire p =>
    simp only [LockSystem.step]
    split
    · refine hAct p _ ?_
      rintro rfl
      exact h.acquire
    · exact h
  | release p =>
    simp only [LockSystem.step]
    split
    · refine hAct p _ ?_
      rintro rfl
      exact absurd rfl hRelease
    · exact h
  | advance p =>
    refine hAct p _ ?_
    rintro rfl
    exact h.advance
  | fail p =>
    refine hAct p _ ?_
    rintro rfl
    exact h.fail
  | exit process =>
    simp only [LockSystem.step]
    rw [if_neg]
    · exact h
    · rintro rfl
      exact hExit rfl
  | unlink path => exact h

end Fields

section Removals

variable {path : Path} {removed : ℕ} {files : Finset ℕ}

/-- The files that the name has led to are at most one more than its removals. -/
structure Traced (path : Path) (removed : ℕ) (files : Finset ℕ) (s : LockSystem Path) : Prop where
  named : ∀ file, s.table.named path = some file → file ∈ files
  used : ∀ o d y, (s.locks o).lockPath = path → (s.locks o).Uses d → s.table.opened d = some y →
    y.file ∈ files
  card : files.card ≤ removed + if s.table.named path = none then 0 else 1

theorem Started.traced (hStart : s.Started) (path : Path) : ∃ files, Traced path 0 files s := by
  have hNone : ∀ o d, ¬(s.locks o).Uses d := by
    intro o d hUses
    rw [hStart.fresh o] at hUses
    obtain hNone | hNone := hUses <;> cases hNone
  cases hNamed : s.table.named path with
  | none =>
    refine ⟨∅, ⟨fun file hEq => ?_, fun o d _ _ hUses _ => absurd hUses (hNone o d), ?_⟩⟩
    · rw [hNamed] at hEq
      cases hEq
    · exact Nat.zero_le _
  | some first =>
    refine ⟨{first}, ⟨fun file hEq => ?_, fun o d _ _ hUses _ => absurd hUses (hNone o d), ?_⟩⟩
    · rw [hNamed] at hEq
      cases hEq
      exact Finset.mem_singleton_self _
    · rw [hNamed]
      exact le_rfl

/-- A step that opens nothing and touches no name traces no other file. -/
theorem Traced.same {s' : LockSystem Path} (h : Traced path removed files s)
    (hNamed : s'.table.named path = s.table.named path)
    (hOpened : ∀ d y, s'.table.opened d = some y → s.table.opened d = some y)
    (hLocks : ∀ o, (s'.locks o).lockPath = (s.locks o).lockPath ∧
      ∀ d, (s'.locks o).Uses d → (s.locks o).Uses d) : Traced path removed files s' where
  named file hEq := h.named file (hNamed ▸ hEq)
  used o d y hPath hUses hAt :=
    h.used o d y ((hLocks o).1 ▸ hPath) ((hLocks o).2 d hUses) (hOpened d y hAt)
  card := hNamed ▸ h.card

theorem Traced.act (h : Traced path removed files s) (hNamed : after.1.named = s.table.named)
    (hOpened : ∀ d y, after.1.opened d = some y → s.table.opened d = some y)
    (hPath : after.2.lockPath = (s.locks o).lockPath)
    (hUses : ∀ d, after.2.Uses d → (s.locks o).Uses d) :
    Traced path removed files (s.act o after) := by
  refine h.same (congrFun hNamed path) hOpened fun p => ?_
  by_cases hSame : p = o
  · subst p
    rw [act_self]
    exact ⟨hPath, hUses⟩
  · rw [act_of_ne hSame]
    exact ⟨rfl, fun _ hUses => hUses⟩

variable [DecidableEq Path]

/-- Opening the lock file may make a new one, where the name leads to none. -/
theorem Traced.acquire (hSound : s.Sound) (h : Traced path removed files s) :
    ∃ files', Traced path removed files' (s.act o ((s.locks o).acquire s.table)) := by
  have hUsed : ∀ files', files ⊆ files' →
      ((s.locks o).lockPath = path → s.table.target (s.locks o).lockPath ∈ files') →
      ∀ p d y, ((s.act o ((s.locks o).acquire s.table)).locks p).lockPath = path →
        ((s.act o ((s.locks o).acquire s.table)).locks p).Uses d →
        (s.table.openCreate (s.locks o).lockPath (s.locks o).process).opened d = some y →
        y.file ∈ files' := by
    intro files' hSubset hTarget p d y hPath hUses hOpened
    rw [FileTable.opened_openCreate] at hOpened
    split at hOpened
    next hNew =>
      cases hOpened
      by_cases hSame : p = o
      · subst p
        rw [act_self] at hPath
        exact hTarget hPath
      · rw [act_of_ne hSame] at hUses
        obtain ⟨z, hWas, -⟩ := (hSound.locks p).opened d hUses
        exact absurd hNew (Nat.ne_of_lt (s.table.opened_lt d z hWas).1)
    next hOld =>
      refine hSubset ?_
      by_cases hSame : p = o
      · subst hSame
        rw [act_self] at hPath hUses
        obtain hFd | hNew := hUses
        · exact h.used p d y hPath (.inl hFd) hOpened
        · exact absurd (Option.some.inj hNew).symm hOld
      · rw [act_of_ne hSame] at hPath hUses
        exact h.used p d y hPath hUses hOpened
  by_cases hPath : (s.locks o).lockPath = path
  · -- the name leads to the file that is opened, from now on
    have hNamed : ∀ file, s.table.named path = some file → s.table.target path = file := by
      intro file hEq
      rw [FileTable.target, hEq]
      rfl
    have hAfter : (s.act o ((s.locks o).acquire s.table)).table.named path =
        some (s.table.target path) := by
      subst hPath
      exact FileTable.named_openCreate_self
    refine ⟨insert (s.table.target path) files, fun file hEq => ?_,
      hUsed _ (Finset.subset_insert _ _) fun _ => hPath ▸ Finset.mem_insert_self _ _, ?_⟩
    · rw [hAfter] at hEq
      cases hEq
      exact Finset.mem_insert_self _ _
    · rw [hAfter]
      have hCard := h.card
      cases hEq : s.table.named path with
      | none =>
        rw [hEq] at hCard
        exact (Finset.card_insert_le _ _).trans (Nat.succ_le_succ hCard)
      | some file =>
        rw [hEq] at hCard
        rw [hNamed file hEq, Finset.insert_eq_of_mem (h.named file hEq)]
        exact hCard
  · have hAfter : (s.act o ((s.locks o).acquire s.table)).table.named path = s.table.named path :=
      FileTable.named_openCreate_of_ne fun hEq => hPath hEq.symm
    exact ⟨files, fun file hEq => h.named file (hAfter ▸ hEq),
      hUsed _ (Finset.Subset.refl _) fun hEq => absurd hEq hPath, hAfter ▸ h.card⟩

theorem Traced.step (hSound : s.Sound) (h : Traced path removed files s) (event : LockEvent Path) :
    ∃ files', Traced path (removed + if event = .unlink path then 1 else 0) files'
      (s.step event) := by
  cases event with
  | acquire o =>
    simp only [LockSystem.step, reduceCtorEq, if_false, Nat.add_zero]
    by_cases hIdle : (s.locks o).call = .idle
    · rw [if_pos hIdle]
      exact h.acquire hSound
    · rw [if_neg hIdle]
      exact ⟨files, h⟩
  | release o =>
    simp only [LockSystem.step, reduceCtorEq, if_false, Nat.add_zero]
    by_cases hIdle : (s.locks o).call = .idle
    · rw [if_pos hIdle]
      obtain ⟨hNamed, hOpened, hPath, -, hUses⟩ := (s.locks o).release_frame
      exact ⟨files, h.act hNamed (fun d y hAt => hOpened ▸ hAt) hPath hUses⟩
    · rw [if_neg hIdle]
      exact ⟨files, h⟩
  | advance o =>
    obtain ⟨hNamed, hOpened, hPath, -⟩ := (s.locks o).advance_frame
    exact ⟨files, h.act hNamed hOpened hPath fun d => SingleInstanceLock.uses_advance⟩
  | fail o =>
    exact ⟨files, h.act rfl (fun _ _ hAt => hAt) (s.locks o).fail_frame.1
      fun d => SingleInstanceLock.uses_fail⟩
  | exit process =>
    refine ⟨files, h.same rfl (fun d y hAt => (FileTable.opened_closeWhere.mp hAt).1) fun o => ?_⟩
    simp only [LockSystem.step]
    split
    · refine ⟨rfl, fun d hUses => ?_⟩
      obtain hNone | hNone := hUses <;> cases hNone
    · exact ⟨rfl, fun _ hUses => hUses⟩
  | unlink other =>
    have hUsed := h.used
    by_cases hSame : other = path
    · subst other
      have hAfter : (s.table.unlink path).named path = none := Function.update_self _ _ _
      refine ⟨files, fun file hEq => ?_, hUsed, ?_⟩
      · rw [LockSystem.step, hAfter] at hEq
        cases hEq
      · rw [LockSystem.step, hAfter, if_pos rfl, if_pos rfl]
        have := h.card
        split at this <;> omega
    · have hAfter : (s.table.unlink other).named path = s.table.named path :=
        Function.update_of_ne (fun hEq => hSame hEq.symm) _ _
      refine ⟨files, fun file hEq => h.named file (hAfter ▸ hEq), hUsed, ?_⟩
      rw [LockSystem.step, hAfter, if_neg (by rintro ⟨⟩; exact hSame rfl)]
      exact h.card

theorem Traced.run (hSound : s.Sound) (h : Traced path removed files s)
    (events : List (LockEvent Path)) :
    ∃ files', Traced path (removed + events.count (.unlink path)) files'
      (events.foldl LockSystem.step s) := by
  induction events generalizing s removed files with
  | nil => exact ⟨files, h⟩
  | cons event events ih =>
    obtain ⟨files', hNext⟩ := h.step hSound event
    obtain ⟨files'', hRest⟩ := ih (hSound.step event) hNext
    refine ⟨files'', ?_⟩
    rw [List.count_cons, Nat.add_comm (events.count _), ← Nat.add_assoc, List.foldl_cons]
    simpa only [beq_iff_eq] using hRest

end Removals

/-- The object is between the `flock` that took a lock for it and what gives the lock up. -/
def Holds (s : LockSystem Path) (o : ℕ) : Prop := ∃ d, (s.locks o).Locks d

/-- Another object holds the file that this one would open. -/
def Contended (s : LockSystem Path) (o : ℕ) : Prop :=
  ∃ p d y, (s.locks p).Locks d ∧ s.table.opened d = some y ∧
    s.table.named (s.locks o).lockPath = some y.file

section Holders

variable {path : Path} {removed : ℕ} {files : Finset ℕ}

/-- One file has one lock, and one descriptor one user. -/
theorem Traced.team_le (hSound : s.Sound) (h : Traced path removed files s) {team : Finset ℕ}
    (hTeam : ∀ o ∈ team, (s.locks o).lockPath = path ∧ s.Holds o) : team.card ≤ removed + 1 := by
  have hFile : ∀ o ∈ team, ∃ file ∈ files, ∃ d y, (s.locks o).Locks d ∧
      s.table.opened d = some y ∧ y.file = file := by
    intro o hMem
    obtain ⟨hPath, d, hLocks⟩ := hTeam o hMem
    obtain ⟨y, hOpened, -⟩ := (hSound.locks o).opened d hLocks.uses
    exact ⟨y.file, h.used o d y hPath hLocks.uses hOpened, d, y, hLocks, hOpened, rfl⟩
  refine (Finset.card_le_card_of_forall_subsingleton _ hFile ?_).trans (h.card.trans ?_)
  · rintro file - o ⟨-, d, y, hLocks, hOpened, rfl⟩ p ⟨-, e, z, hOther, hAlso, hSame⟩
    have hOwner := (hSound.locks o).owns d y hLocks hOpened
    have hOwner' := (hSound.locks p).owns e z hOther hAlso
    rw [hSame, hOwner] at hOwner'
    cases hOwner'
    exact hSound.apart o p d hLocks.uses hOther.uses
  · split <;> omega

theorem Traced.holder_unique (hSound : s.Sound) (h : Traced path 0 files s) {o p : ℕ}
    (hPath : (s.locks o).lockPath = path) (hOther : (s.locks p).lockPath = path)
    (hHolds : s.Holds o) (hAlso : s.Holds p) : o = p := by
  have hTeam : ∀ q ∈ ({o, p} : Finset ℕ), (s.locks q).lockPath = path ∧ s.Holds q := by
    intro q hMem
    obtain rfl | hMem := Finset.mem_insert.mp hMem
    · exact ⟨hPath, hHolds⟩
    · obtain rfl := Finset.mem_singleton.mp hMem
      exact ⟨hOther, hAlso⟩
  exact Finset.card_le_one.mp (h.team_le hSound hTeam) o (Finset.mem_insert_self _ _) p
    (Finset.mem_insert_of_mem (Finset.mem_singleton_self _))

variable [DecidableEq Path]

/-- Objects that hold the lock of one path at once hold it on different files, and only a removal
of the name makes the path lead to another file. -/
theorem holders_le (hStart : s.Started) (events : List (LockEvent Path)) (path : Path)
    (team : Finset ℕ)
    (hTeam : ∀ o ∈ team, ((events.foldl LockSystem.step s).locks o).lockPath = path ∧
      (events.foldl LockSystem.step s).Holds o) :
    team.card ≤ events.count (.unlink path) + 1 := by
  obtain ⟨files, hTraced⟩ := hStart.traced path
  obtain ⟨files', hTraced⟩ := hTraced.run hStart.sound events
  rw [Nat.zero_add] at hTraced
  exact hTraced.team_le (hStart.sound.run events) hTeam

/-- Two processes that hold one path's lock, once its name has been removed. -/
theorem holders_le_of_unlinked : ({0, 1} : Finset ℕ).card ≤
    ([.acquire 0, .advance 0, .unlink 'l', .acquire 1, .advance 1, .advance 0, .advance 0,
      .advance 1] : List (LockEvent Char)).count (.unlink 'l') + 1 := by
  refine holders_le (started_created fun _ => 'l') _ 'l' _ fun o hMem => ?_
  obtain rfl | hMem := Finset.mem_insert.mp hMem
  · exact ⟨by decide, 0, by decide⟩
  · obtain rfl := Finset.mem_singleton.mp hMem
    exact ⟨by decide, 1, by decide⟩

/-- The file that an object has locked holds its PID, from where `acquire` returns to where
`release` is called. -/
theorem record_of_held (hStart : s.Started) (events : List (LockEvent Path)) {o d : ℕ}
    (hFd : ((events.foldl LockSystem.step s).locks o).fd = some d)
    (hCall : ((events.foldl LockSystem.step s).locks o).call = .idle) :
    ∃ y, (events.foldl LockSystem.step s).table.opened d = some y ∧
      (events.foldl LockSystem.step s).table.contents y.file =
        ((events.foldl LockSystem.step s).locks o).record := by
  have hSound := hStart.sound.run events
  obtain ⟨y, hOpened, -⟩ := (hSound.locks o).opened d (.inl hFd)
  refine ⟨y, hOpened, (hSound.locks o).recorded d y hFd ?_ hOpened⟩
  rw [hCall]
  rintro ⟨⟩

end Holders

section Recovery

/-- No object takes a lock twice, and no `ftruncate` and no `write` on a lock file fails. -/
def Orderly (s : LockSystem Path) : LockEvent Path → Prop
  | .acquire o => (s.locks o).fd = none
  | .fail o => ∀ d, (s.locks o).call ≠ .locked d ∧ (s.locks o).call ≠ .truncated d
  | _ => True

/-- Every lock that is taken is the lock of an object that knows it. -/
structure Accounted (s : LockSystem Path) : Prop where
  owned : ∀ file d, s.table.owner file = some d → ∃ o, (s.locks o).Locks d
  single : ∀ o d, (s.locks o).call.fd = some d → (s.locks o).call ≠ .unlocked d →
    (s.locks o).fd = none

theorem Started.accounted (hStart : s.Started) : s.Accounted where
  owned file d hOwner := by
    rw [hStart.unowned] at hOwner
    cases hOwner
  single o d _ _ := by
    rw [hStart.fresh o]
    rfl

theorem Accounted.act (h : s.Accounted)
    (hOwner : ∀ file d, after.1.owner file = some d →
      after.2.Locks d ∨ s.table.owner file = some d ∧ ((s.locks o).Locks d → after.2.Locks d))
    (hSingle : ∀ d, after.2.call.fd = some d → after.2.call ≠ .unlocked d → after.2.fd = none) :
    (s.act o after).Accounted where
  owned file d hOwns := by
    obtain hLocks | ⟨hOwned, hKept⟩ := hOwner file d hOwns
    · exact ⟨o, act_self.symm ▸ hLocks⟩
    · obtain ⟨p, hLocks⟩ := h.owned file d hOwned
      by_cases hSame : p = o
      · subst p
        exact ⟨o, act_self.symm ▸ hKept hLocks⟩
      · refine ⟨p, ?_⟩
        rw [act_of_ne hSame]
        exact hLocks
  single p d hFd hCall := by
    by_cases hSame : p = o
    · subst p
      rw [act_self] at hFd hCall ⊢
      exact hSingle d hFd hCall
    · rw [act_of_ne hSame] at hFd hCall ⊢
      exact h.single p d hFd hCall

theorem Accounted.fd_none (h : s.Accounted) {call : LockCall} {d : ℕ}
    (hCall : (s.locks o).call = call) (hFd : call.fd = some d) (hNot : call ≠ .unlocked d) :
    (s.locks o).fd = none := by
  subst hCall
  exact h.single o d hFd hNot

theorem Accounted.advance (hSound : s.Sound) (h : s.Accounted) (o : ℕ) :
    (s.act o ((s.locks o).advance s.table)).Accounted := by
  cases hCall : (s.locks o).call with
  | idle =>
    rw [SingleInstanceLock.advance_idle hCall]
    exact h.act (fun _ _ hOwns => .inr ⟨hOwns, id⟩) (h.single o)
  | opened fd =>
    have hNone := h.fd_none hCall rfl (by rintro ⟨⟩)
    have hNot : ∀ d, ¬(s.locks o).Locks d := by
      intro d hLocks
      obtain hEq | hEq := (SingleInstanceLock.locks_iff_of_fd_none hNone hCall).mp hLocks <;>
        cases hEq
    cases hLock : s.table.lockNow fd with
    | none =>
      rw [SingleInstanceLock.advance_barred hCall hLock]
      exact h.act (fun _ d hOwns => .inr ⟨hOwns, fun hLocks => absurd hLocks (hNot d)⟩)
        fun _ _ _ => hNone
    | some t' =>
      rw [SingleInstanceLock.advance_taken hCall hLock]
      refine h.act (fun file d hOwns => ?_) fun _ _ _ => hNone
      obtain ⟨y, hOpened, -⟩ := (hSound.locks o).opened fd (.inr (by rw [hCall]; rfl))
      obtain ⟨u, hEq, -, hOwner, -⟩ | ⟨hBarred, -⟩ := FileTable.lockNow_cases hOpened
      · rw [hEq] at hLock
        cases hLock
        rw [hOwner, Function.update_apply] at hOwns
        split at hOwns
        · cases hOwns
          exact .inl (.inl rfl)
        · exact .inr ⟨hOwns, fun hLocks => absurd hLocks (hNot d)⟩
      · rw [hBarred] at hLock
        cases hLock
  | refused fd =>
    have hNone := h.fd_none hCall rfl (by rintro ⟨⟩)
    rw [SingleInstanceLock.advance_refused hCall]
    refine h.act (fun file d hOwns => ?_) fun d hEq => by cases hEq
    refine .inr ⟨FileTable.owner_of_closeWhere hOwns, fun hLocks => ?_⟩
    obtain hEq | hEq := (SingleInstanceLock.locks_iff_of_fd_none hNone hCall).mp hLocks <;> cases hEq
  | locked fd =>
    have hNone := h.fd_none hCall rfl (by rintro ⟨⟩)
    rw [SingleInstanceLock.advance_locked hCall]
    refine h.act (fun file d hOwns => ?_) fun _ _ _ => hNone
    rw [FileTable.truncate, FileTable.owner_edit] at hOwns
    refine .inr ⟨hOwns, fun hLocks => ?_⟩
    obtain hEq | hEq := (SingleInstanceLock.locks_iff_of_fd_none hNone hCall).mp hLocks <;> cases hEq
    exact .inr (.inl rfl)
  | truncated fd =>
    have hNone := h.fd_none hCall rfl (by rintro ⟨⟩)
    rw [SingleInstanceLock.advance_truncated hCall]
    refine h.act (fun file d hOwns => ?_) fun d hEq => by cases hEq
    rw [FileTable.write, FileTable.owner_edit] at hOwns
    refine .inr ⟨hOwns, fun hLocks => ?_⟩
    obtain hEq | hEq := (SingleInstanceLock.locks_iff_of_fd_none hNone hCall).mp hLocks <;> cases hEq
    exact .inr (.inr ⟨rfl, by rintro ⟨⟩⟩)
  | unlocked fd =>
    rw [SingleInstanceLock.advance_unlocked hCall]
    refine h.act (fun file d hOwns => ?_) fun d hEq => by cases hEq
    refine .inr ⟨FileTable.owner_of_closeWhere hOwns, fun hLocks => ?_⟩
    obtain ⟨hFd, hNe⟩ := (SingleInstanceLock.locks_iff_of_released hCall).mp hLocks
    rw [(hSound.locks o).releases fd hCall] at hFd
    exact absurd (Option.some.inj hFd).symm hNe

variable [DecidableEq Path]

theorem Accounted.step (hSound : s.Sound) (h : s.Accounted) {event : LockEvent Path}
    (hOrderly : s.Orderly event) : (s.step event).Accounted := by
  cases event with
  | acquire o =>
    have hNone : (s.locks o).fd = none := hOrderly
    simp only [LockSystem.step]
    split
    next hIdle =>
      refine h.act (fun file d hOwns => .inr ⟨hOwns, fun hLocks => ?_⟩) fun _ _ _ => hNone
      obtain hEq | hEq := (SingleInstanceLock.locks_iff_of_fd_none hNone hIdle).mp hLocks <;> cases hEq
    next => exact h
  | release o =>
    simp only [LockSystem.step]
    split
    next hIdle =>
      obtain hFd | ⟨fd, hFd⟩ : (s.locks o).fd = none ∨ ∃ fd, (s.locks o).fd = some fd := by
        cases (s.locks o).fd with
        | none => exact .inl rfl
        | some fd => exact .inr ⟨fd, rfl⟩
      · rw [SingleInstanceLock.release_of_none hFd]
        exact h.act (fun _ _ hOwns => .inr ⟨hOwns, id⟩) (h.single o)
      · rw [SingleInstanceLock.release_of_fd hFd]
        refine h.act (fun file d hOwns => ?_) fun d hEq hNot => ?_
        · obtain ⟨hOwned, hNe⟩ := FileTable.owner_unlock.mp hOwns
          refine .inr ⟨hOwned, ?_⟩
          rintro (hEq | hEq | ⟨hEq, -⟩)
          · rw [hIdle] at hEq
            cases hEq
          · rw [hIdle] at hEq
            cases hEq
          · rw [hFd] at hEq
            exact absurd (Option.some.inj hEq).symm hNe
        · cases hEq
          exact absurd rfl hNot
    next => exact h
  | advance o => exact h.advance hSound o
  | fail o =>
    have hCases : (s.locks o).fail = s.locks o ∨
        ∃ fd, (s.locks o).call = .opened fd ∧ (s.locks o).fail = { s.locks o with call := .refused fd } := by
      unfold SingleInstanceLock.fail
      split
      next fd hCall => exact .inr ⟨fd, hCall, rfl⟩
      next fd hCall => exact absurd hCall (hOrderly fd).1
      next fd hCall => exact absurd hCall (hOrderly fd).2
      next => exact .inl rfl
    simp only [LockSystem.step]
    obtain hSame | ⟨fd, hCall, hFail⟩ := hCases
    · rw [hSame]
      exact h.act (fun _ _ hOwns => .inr ⟨hOwns, id⟩) (h.single o)
    · have hNone := h.fd_none hCall rfl (by rintro ⟨⟩)
      rw [hFail]
      refine h.act (fun file d hOwns => .inr ⟨hOwns, fun hLocks => ?_⟩) fun _ _ _ => hNone
      obtain hEq | hEq := (SingleInstanceLock.locks_iff_of_fd_none hNone hCall).mp hLocks <;> cases hEq
  | exit process =>
    constructor
    · intro file d hOwns
      obtain ⟨o, hLocks⟩ := h.owned file d (FileTable.owner_of_closeWhere hOwns)
      obtain ⟨y, hOpened, hProcess⟩ := (hSound.locks o).opened d hLocks.uses
      have hNot := ((FileTable.owner_closeWhere hOpened).mp hOwns).2
      rw [hProcess] at hNot
      refine ⟨o, ?_⟩
      simp only [LockSystem.step]
      rw [if_neg (beq_eq_false_iff_ne.mp hNot)]
      exact hLocks
    · intro o d hFd hCall
      simp only [LockSystem.step] at hFd hCall ⊢
      split
      next => rfl
      next hNe =>
        rw [if_neg hNe] at hFd hCall
        exact h.single o d hFd hCall
  | unlink path => exact ⟨h.owned, h.single⟩

theorem Accounted.run (hSound : s.Sound) (h : s.Accounted) {events : List (LockEvent Path)}
    (hOrderly : Throughout LockSystem.step Orderly s events) :
    (events.foldl LockSystem.step s).Accounted := by
  have hStep : ∀ (s : LockSystem Path) e, s.Orderly e → s.Sound ∧ s.Accounted →
      (s.step e).Sound ∧ (s.step e).Accounted :=
    fun s e hOrderly hInv => ⟨hInv.1.step e, hInv.2.step hInv.1 hOrderly⟩
  exact (Throughout.invariant hStep ⟨hSound, h⟩ hOrderly).2

/-- The system calls of an `acquire` that nothing comes between. -/
def acquireAlone (s : LockSystem Path) (o : ℕ) : LockSystem Path :=
  [LockEvent.acquire o, .advance o, .advance o, .advance o].foldl step s

theorem acquireAlone_eq (hIdle : (s.locks o).call = .idle) :
    s.acquireAlone o = (((s.act o ((s.locks o).acquire s.table)).step (.advance o)).step
      (.advance o)).step (.advance o) := by
  simp only [acquireAlone, List.foldl_cons, List.foldl_nil]
  rw [LockSystem.step, if_pos hIdle]

theorem step_advance {after : FileTable Path × SingleInstanceLock Path} {t : FileTable Path}
    {x : SingleInstanceLock Path} (h : after.2.advance after.1 = (t, x)) :
    (s.act o after).step (.advance o) = s.act o (t, x) := by
  rw [LockSystem.step, act_self]
  change LockSystem.act _ o (after.2.advance after.1) = _
  rw [h]
  simp only [LockSystem.act, Function.update_idem]

/-- An `acquire` on a file whose lock is free returns, on one whose lock is taken it raises and
leaves every lock as it was. -/
theorem acquireAlone_cases (hIdle : (s.locks o).call = .idle) :
    ((∀ file, s.table.named (s.locks o).lockPath = some file → s.table.owner file = none) ∧
      (s.acquireAlone o).locks o = { s.locks o with fd := some s.table.descriptions }) ∨
    (∃ file d, s.table.named (s.locks o).lockPath = some file ∧ s.table.owner file = some d ∧
      (s.acquireAlone o).locks = s.locks ∧ (s.acquireAlone o).table.owner = s.table.owner) := by
  have hOpened : (s.table.openCreate (s.locks o).lockPath (s.locks o).process).opened
      s.table.descriptions = some ⟨s.table.target (s.locks o).lockPath, (s.locks o).process⟩ :=
    FileTable.opened_openCreate.trans (if_pos rfl)
  rw [acquireAlone_eq hIdle]
  obtain ⟨t', hLock, hFree, -⟩ | ⟨hLock, d, hOwner, hNe⟩ := FileTable.lockNow_cases hOpened
  · have hFree : s.table.owner (s.table.target (s.locks o).lockPath) = none := by
      obtain hFree | hOwn := hFree
      · exact hFree
      · have hOwn : s.table.owner _ = some s.table.descriptions := hOwn
        exact absurd (FileTable.owner_lt hOwn).2 (Nat.lt_irrefl _)
    left
    constructor
    · intro file hNamed
      rw [FileTable.target, hNamed] at hFree
      exact hFree
    · rw [step_advance (SingleInstanceLock.advance_taken rfl hLock),
        step_advance (SingleInstanceLock.advance_locked rfl),
        step_advance (SingleInstanceLock.advance_truncated rfl), act_self]
      exact congrArg (fun call => { s.locks o with fd := some s.table.descriptions, call }) hIdle.symm
  · right
    refine ⟨_, d, FileTable.owner_target hOwner, hOwner, ?_⟩
    rw [step_advance (SingleInstanceLock.advance_barred rfl hLock),
      step_advance (SingleInstanceLock.advance_refused rfl),
      step_advance (SingleInstanceLock.advance_idle rfl)]
    constructor
    · refine (congrArg (Function.update s.locks o) ?_).trans (Function.update_eq_self o s.locks)
      exact congrArg (fun call => { s.locks o with call }) hIdle.symm
    · exact FileTable.owner_close_openCreate

theorem Accounted.acquireAlone (hSound : s.Sound) (h : s.Accounted)
    (hIdle : (s.locks o).call = .idle) :
    (¬s.Contended o → ((s.acquireAlone o).locks o).Has) ∧
    (s.Contended o → (s.acquireAlone o).locks = s.locks ∧
      (s.acquireAlone o).table.owner = s.table.owner) := by
  obtain ⟨hFree, hLock⟩ | ⟨file, d, hNamed, hOwner, hSame⟩ := s.acquireAlone_cases hIdle
  · refine ⟨fun _ => ?_, ?_⟩
    · rw [hLock]
      refine ⟨s.table.descriptions, rfl, fun e => ?_⟩
      simp only [hIdle]
      rintro ⟨⟩
    · rintro ⟨p, d, y, hLocks, hOpened, hNamed⟩
      have hOwner := (hSound.locks p).owns d y hLocks hOpened
      rw [hFree _ hNamed] at hOwner
      cases hOwner
  · refine ⟨fun hNot => absurd ?_ hNot, fun _ => hSame⟩
    obtain ⟨p, hLocks⟩ := h.owned file d hOwner
    obtain ⟨y, hOpened, hFile⟩ := s.table.owner_opened file d hOwner
    exact ⟨p, d, y, hLocks, hOpened, hFile ▸ hNamed⟩

/-- After a run without a failed write, an `acquire` that nothing comes between returns if no
object holds the file, whichever processes have died holding it, and is refused if one does. -/
theorem acquireAlone_of_run (hStart : s.Started) {events : List (LockEvent Path)}
    (hOrderly : Throughout LockSystem.step Orderly s events)
    (hIdle : ((events.foldl LockSystem.step s).locks o).call = .idle) :
    (¬(events.foldl LockSystem.step s).Contended o →
      (((events.foldl LockSystem.step s).acquireAlone o).locks o).Has) ∧
    ((events.foldl LockSystem.step s).Contended o →
      ((events.foldl LockSystem.step s).acquireAlone o).locks = (events.foldl LockSystem.step s).locks ∧
      ((events.foldl LockSystem.step s).acquireAlone o).table.owner =
        (events.foldl LockSystem.step s).table.owner) :=
  (hStart.accounted.run hStart.sound hOrderly).acquireAlone (hStart.sound.run events) hIdle

theorem acquireAlone_of_held :
    let s := [LockEvent.acquire 0, .advance 0, .advance 0, .advance 0].foldl step
      (created fun _ => 'm')
    (s.acquireAlone 1).locks = s.locks ∧ (s.acquireAlone 1).table.owner = s.table.owner := by
  refine (acquireAlone_of_run (started_created fun _ => 'm') ?_ (by decide)).2 ?_
  · have hAdvance : ∀ s : LockSystem Char, s.Orderly (.advance 0) := fun _ => trivial
    have hAcquire : (created fun _ => 'm').Orderly (.acquire 0) := rfl
    exact .cons hAcquire (.cons (hAdvance _) (.cons (hAdvance _) (.cons (hAdvance _) throughout_nil)))
  · exact ⟨0, 0, ⟨0, 0⟩, by decide, by decide, by decide⟩

end Recovery

end LockSystem

end KalshiBot.Runtime

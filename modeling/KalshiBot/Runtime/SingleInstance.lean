import KalshiBot.Library.FileLocks

/-! # The single-instance lock

A lock object takes its lock in several system calls, and other processes make theirs
between any two of them.
-/

namespace KalshiBot.Runtime

open Library

set_option autoImplicit false

/-- Where the `acquire` or the `release` under way stands: what its last system call did. -/
inductive LockCall where
  | idle
  | opened (fd : ℕ)
  | refused (fd : ℕ)
  | locked (fd : ℕ)
  | truncated (fd : ℕ)
  | unlocked (fd : ℕ)
  deriving DecidableEq

structure SingleInstanceLock (Path : Type) where
  lockPath : Path
  process : ℕ
  fd : Option ℕ := none
  call : LockCall := .idle
  deriving DecidableEq

def LockCall.fd : LockCall → Option ℕ
  | .idle => none
  | .opened fd => some fd
  | .refused fd => some fd
  | .locked fd => some fd
  | .truncated fd => some fd
  | .unlocked fd => some fd

namespace SingleInstanceLock

variable {Path : Type} (x : SingleInstanceLock Path) (t : FileTable Path)

def held : Bool := x.fd.isSome

/-- The PID and a newline. -/
def record : List Char := (toString x.process).toList ++ ['\n']

/-- `acquire`, up to where `os.open` returns. -/
def acquire [DecidableEq Path] : FileTable Path × SingleInstanceLock Path :=
  (t.openCreate x.lockPath x.process, { x with call := .opened t.descriptions })

/-- `release`, up to where `LOCK_UN` returns. -/
def release : FileTable Path × SingleInstanceLock Path :=
  match x.fd with
  | none => (t, x)
  | some fd => (t.unlock fd, { x with call := .unlocked fd })

/-- The next system call of the `acquire` or the `release` under way. -/
def advance : FileTable Path × SingleInstanceLock Path :=
  match x.call with
  | .idle => (t, x)
  | .opened fd =>
    match t.lockNow fd with
    | some t' => (t', { x with call := .locked fd })
    | none => (t, { x with call := .refused fd })
  | .refused fd => (t.close fd, { x with call := .idle })
  | .locked fd => (t.truncate fd, { x with call := .truncated fd })
  | .truncated fd => (t.write fd x.record, { x with fd := some fd, call := .idle })
  | .unlocked fd => (t.close fd, { x with fd := none, call := .idle })

/-- The next system call raises an `OSError` instead. Whatever `flock` raises is a refusal; a
failed `ftruncate` or `write` leaves `acquire` with the descriptor open and locked. -/
def fail : SingleInstanceLock Path :=
  match x.call with
  | .opened fd => { x with call := .refused fd }
  | .locked _ => { x with call := .idle }
  | .truncated _ => { x with call := .idle }
  | _ => x

/-- The object as it is created. -/
def fresh : SingleInstanceLock Path := { lockPath := x.lockPath, process := x.process }

def Uses (d : ℕ) : Prop := x.fd = some d ∨ x.call.fd = some d

/-- The object has taken the lock by this descriptor and not given it up. -/
def Locks (d : ℕ) : Prop :=
  x.call = .locked d ∨ x.call = .truncated d ∨ x.fd = some d ∧ x.call ≠ .unlocked d

/-- What an object may count on, whatever other processes do. -/
structure Sound : Prop where
  opened : ∀ d, x.Uses d → ∃ y, t.opened d = some y ∧ y.process = x.process
  releases : ∀ d, x.call = .unlocked d → x.fd = some d
  separate : ∀ d, x.fd = some d → x.call.fd = some d → x.call = .unlocked d
  owns : ∀ d y, x.Locks d → t.opened d = some y → t.owner y.file = some d
  emptied : ∀ d y, x.call = .truncated d → t.opened d = some y → t.contents y.file = []
  recorded : ∀ d y, x.fd = some d → x.call ≠ .unlocked d → t.opened d = some y →
    t.contents y.file = x.record

/-- A step leaves this description open and its lock and the contents under the lock alone. -/
def Keeps (t t' : FileTable Path) (d : ℕ) : Prop :=
  ∀ y, t.opened d = some y → t'.opened d = some y ∧
    (t.owner y.file = some d → t'.owner y.file = some d ∧ t'.contents y.file = t.contents y.file)

variable {x t} {t' : FileTable Path} {d fd : ℕ}

theorem Locks.uses (h : x.Locks d) : x.Uses d := by
  obtain hCall | hCall | ⟨hFd, -⟩ := h
  · exact .inr (by rw [hCall]; rfl)
  · exact .inr (by rw [hCall]; rfl)
  · exact .inl hFd

theorem locks_iff_of_fd_none (h : x.fd = none) {call : LockCall} (hCall : x.call = call) :
    x.Locks d ↔ call = .locked d ∨ call = .truncated d := by
  subst hCall
  constructor
  · rintro (hEq | hEq | ⟨hEq, -⟩)
    · exact .inl hEq
    · exact .inr hEq
    · rw [h] at hEq
      cases hEq
  · exact Or.imp id .inl

theorem locks_iff_of_released (h : x.call = .unlocked fd) : x.Locks d ↔ x.fd = some d ∧ d ≠ fd := by
  constructor
  · rintro (hEq | hEq | ⟨hEq, hNot⟩)
    · rw [h] at hEq
      cases hEq
    · rw [h] at hEq
      cases hEq
    · refine ⟨hEq, ?_⟩
      rintro rfl
      exact hNot h
  · rintro ⟨hEq, hNe⟩
    refine .inr (.inr ⟨hEq, ?_⟩)
    rw [h]
    rintro ⟨⟩
    exact hNe rfl

/-- Steps that keep what an object uses keep the object sound. -/
theorem Sound.frame (hSound : x.Sound t) (hKeeps : ∀ d, x.Uses d → Keeps t t' d) : x.Sound t' := by
  have hBack : ∀ d y, x.Uses d → t'.opened d = some y → t.opened d = some y := by
    intro d y hUses hOpened
    obtain ⟨z, hWas, -⟩ := hSound.opened d hUses
    rw [(hKeeps d hUses z hWas).1] at hOpened
    cases hOpened
    exact hWas
  have hContents : ∀ d y, x.Locks d → t'.opened d = some y → t.opened d = some y ∧
      t'.contents y.file = t.contents y.file := by
    intro d y hLocks hOpened
    have hWas := hBack d y hLocks.uses hOpened
    exact ⟨hWas, ((hKeeps d hLocks.uses y hWas).2 (hSound.owns d y hLocks hWas)).2⟩
  constructor
  · intro d hUses
    obtain ⟨y, hOpened, hProcess⟩ := hSound.opened d hUses
    exact ⟨y, (hKeeps d hUses y hOpened).1, hProcess⟩
  · exact hSound.releases
  · exact hSound.separate
  · intro d y hLocks hOpened
    have hWas := hBack d y hLocks.uses hOpened
    exact ((hKeeps d hLocks.uses y hWas).2 (hSound.owns d y hLocks hWas)).1
  · intro d y hCall hOpened
    obtain ⟨hWas, hSame⟩ := hContents d y (.inr (.inl hCall)) hOpened
    rw [hSame]
    exact hSound.emptied d y hCall hWas
  · intro d y hFd hCall hOpened
    obtain ⟨hWas, hSame⟩ := hContents d y (.inr (.inr ⟨hFd, hCall⟩)) hOpened
    rw [hSame]
    exact hSound.recorded d y hFd hCall hWas

theorem sound_fresh : x.fresh.Sound t where
  opened d hUses := by obtain hFd | hCall := hUses <;> cases ‹_›
  releases d hCall := by cases hCall
  separate d hFd := by cases hFd
  owns d y hLocks := by obtain hCall | hCall | ⟨hFd, -⟩ := hLocks <;> cases ‹_›
  emptied d y hCall := by cases hCall
  recorded d y hFd := by cases hFd

section Keeping

theorem Keeps.refl : Keeps t t d := fun _ hOpened => ⟨hOpened, fun hOwner => ⟨hOwner, rfl⟩⟩

theorem keeps_openCreate [DecidableEq Path] {path : Path} {process : ℕ} :
    Keeps t (t.openCreate path process) d := fun _ hOpened =>
  ⟨FileTable.opened_openCreate_of_some hOpened,
    fun hOwner => ⟨hOwner, FileTable.contents_openCreate hOpened⟩⟩

theorem keeps_lockNow (hLock : t.lockNow fd = some t') : Keeps t t' d := by
  intro y hOpened
  cases hFd : t.opened fd with
  | none =>
    unfold FileTable.lockNow at hLock
    split at hLock
    · cases hLock
    next hSome => rw [hFd] at hSome; cases hSome
  | some z =>
    obtain ⟨u, hEq, hFree, hOwner, hOpen, -, hContents, -⟩ | ⟨hNone, -⟩ :=
      FileTable.lockNow_cases hFd
    · rw [hEq] at hLock
      cases hLock
      rw [hOpen, hContents, hOwner]
      refine ⟨hOpened, fun hOwns => ⟨?_, rfl⟩⟩
      by_cases hFile : y.file = z.file
      · -- the lock of the file was free or had by `fd`, so `d` is `fd`
        rw [hFile] at hOwns ⊢
        obtain hFree | hFree := hFree
        · rw [hFree] at hOwns
          cases hOwns
        · rw [Function.update_self, ← hFree, hOwns]
      · rw [Function.update_of_ne hFile]
        exact hOwns
    · rw [hNone] at hLock
      cases hLock

theorem keeps_unlock (hNe : d ≠ fd) : Keeps t (t.unlock fd) d := fun _ hOpened =>
  ⟨hOpened, fun hOwner => ⟨FileTable.owner_unlock.mpr ⟨hOwner, hNe⟩, rfl⟩⟩

theorem keeps_closeWhere {shut : ℕ → Description → Bool}
    (hNot : ∀ y, t.opened d = some y → shut d y = false) : Keeps t (t.closeWhere shut) d :=
  fun y hOpened => ⟨FileTable.opened_closeWhere.mpr ⟨hOpened, hNot y hOpened⟩, fun hOwner =>
    ⟨(FileTable.owner_closeWhere hOpened).mpr ⟨hOwner, hNot y hOpened⟩, rfl⟩⟩

theorem keeps_close (hNe : d ≠ fd) : Keeps t (t.close fd) d :=
  keeps_closeWhere fun _ _ => beq_eq_false_iff_ne.mpr hNe

/-- Only the owner of a lock changes what is in the file. -/
theorem keeps_edit {change : List Char → List Char} {z : Description}
    (hOpened : t.opened fd = some z) (hOwns : t.owner z.file = some fd) (hNe : d ≠ fd) :
    Keeps t (t.edit fd change) d := by
  intro y hOther
  rw [FileTable.opened_edit, FileTable.owner_edit]
  refine ⟨hOther, fun hOwner => ⟨hOwner, ?_⟩⟩
  have hFile : y.file ≠ z.file := by
    intro hSame
    rw [hSame, hOwns] at hOwner
    exact hNe (Option.some.inj hOwner).symm
  rw [FileTable.contents_edit hOpened, Function.update_of_ne hFile]

end Keeping

section Calls

theorem release_of_none (h : x.fd = none) : x.release t = (t, x) := by
  rw [release, h]

theorem release_of_fd (h : x.fd = some fd) :
    x.release t = (t.unlock fd, { x with call := .unlocked fd }) := by
  simp only [release, h]

theorem advance_idle (h : x.call = .idle) : x.advance t = (t, x) := by
  rw [advance, h]

theorem advance_taken (h : x.call = .opened fd) (hLock : t.lockNow fd = some t') :
    x.advance t = (t', { x with call := .locked fd }) := by
  simp only [advance, h, hLock]

theorem advance_barred (h : x.call = .opened fd) (hLock : t.lockNow fd = none) :
    x.advance t = (t, { x with call := .refused fd }) := by
  simp only [advance, h, hLock]

theorem advance_refused (h : x.call = .refused fd) :
    x.advance t = (t.close fd, { x with call := .idle }) := by
  simp only [advance, h]

theorem advance_locked (h : x.call = .locked fd) :
    x.advance t = (t.truncate fd, { x with call := .truncated fd }) := by
  simp only [advance, h]

theorem advance_truncated (h : x.call = .truncated fd) :
    x.advance t = (t.write fd x.record, { x with fd := some fd, call := .idle }) := by
  simp only [advance, h]

theorem advance_unlocked (h : x.call = .unlocked fd) :
    x.advance t = (t.close fd, { x with fd := none, call := .idle }) := by
  simp only [advance, h]

theorem Sound.owner_of_call (hSound : x.Sound t) (hCall : x.call = .locked fd ∨ x.call = .truncated fd) :
    ∃ y, t.opened fd = some y ∧ t.owner y.file = some fd := by
  have hLocks : x.Locks fd := hCall.imp id .inl
  obtain ⟨y, hOpened, -⟩ := hSound.opened fd hLocks.uses
  exact ⟨y, hOpened, hSound.owns fd y hLocks hOpened⟩

/-- Whatever the object does next, it keeps every other descriptor, its own others among them. -/
theorem keeps_advance (hSound : x.Sound t) (hNe : x.call.fd ≠ some d) :
    Keeps t (x.advance t).1 d := by
  have hOther : ∀ call fd, x.call = call → call.fd = some fd → d ≠ fd := by
    rintro _ fd rfl hFd rfl
    exact hNe hFd
  cases hCall : x.call with
  | idle =>
    rw [advance_idle hCall]
    exact .refl
  | opened fd =>
    cases hLock : t.lockNow fd with
    | none =>
      rw [advance_barred hCall hLock]
      exact .refl
    | some t' =>
      rw [advance_taken hCall hLock]
      exact keeps_lockNow hLock
  | refused fd =>
    rw [advance_refused hCall]
    exact keeps_close (hOther _ fd hCall rfl)
  | locked fd =>
    obtain ⟨y, hOpened, hOwns⟩ := hSound.owner_of_call (.inl hCall)
    rw [advance_locked hCall]
    exact keeps_edit hOpened hOwns (hOther _ fd hCall rfl)
  | truncated fd =>
    obtain ⟨y, hOpened, hOwns⟩ := hSound.owner_of_call (.inr hCall)
    rw [advance_truncated hCall]
    exact keeps_edit hOpened hOwns (hOther _ fd hCall rfl)
  | unlocked fd =>
    rw [advance_unlocked hCall]
    exact keeps_close (hOther _ fd hCall rfl)

theorem uses_advance (h : (x.advance t).2.Uses d) : x.Uses d := by
  cases hCall : x.call with
  | idle =>
    rw [advance_idle hCall] at h
    exact h
  | opened fd =>
    rw [Uses, hCall]
    cases hLock : t.lockNow fd with
    | none =>
      rw [advance_barred hCall hLock] at h
      exact h
    | some t' =>
      rw [advance_taken hCall hLock] at h
      exact h
  | refused fd =>
    rw [advance_refused hCall] at h
    exact .inl (h.resolve_right (by intro hNone; cases hNone))
  | locked fd =>
    rw [advance_locked hCall] at h
    rw [Uses, hCall]
    exact h
  | truncated fd =>
    rw [advance_truncated hCall] at h
    rw [Uses, hCall]
    exact .inr (h.resolve_right (by intro hNone; cases hNone))
  | unlocked fd =>
    rw [advance_unlocked hCall] at h
    obtain hNone | hNone := h <;> cases hNone

theorem Sound.idle (hSound : x.Sound t) (hCall : ∀ d, x.call ≠ .unlocked d) :
    Sound { x with call := .idle } t where
  opened d hUses := hSound.opened d (.inl (hUses.resolve_right (by intro hNone; cases hNone)))
  releases d hCall := by cases hCall
  separate d _ hCall := by cases hCall
  owns d y hLocks := by
    obtain hNone | hNone | ⟨hFd, -⟩ := hLocks
    · cases hNone
    · cases hNone
    · exact hSound.owns d y (.inr (.inr ⟨hFd, hCall d⟩))
  emptied d y hNone := by cases hNone
  recorded d y hFd _ := hSound.recorded d y hFd (hCall d)

/-- A call of `acquire` stands at a descriptor of its own, beside the one that the object may
have from an `acquire` before. -/
theorem Sound.acquiring {call : LockCall} {y : Description}
    (hSound : Sound { x with call := .idle } t) (hFd : call.fd = some fd)
    (hCall : ∀ d, call ≠ .unlocked d) (hOpened : t.opened fd = some y)
    (hProcess : y.process = x.process) (hNe : x.fd ≠ some fd)
    (hOwns : call = .locked fd ∨ call = .truncated fd → t.owner y.file = some fd)
    (hEmptied : call = .truncated fd → t.contents y.file = []) :
    Sound { x with call } t where
  opened d hUses := by
    obtain hOld | hNew := hUses
    · exact hSound.opened d (.inl hOld)
    · rw [hFd] at hNew
      cases hNew
      exact ⟨y, hOpened, hProcess⟩
  releases d hUnlocked := absurd hUnlocked (hCall d)
  separate d hOld hNew := by
    rw [hFd] at hNew
    cases hNew
    exact absurd hOld hNe
  owns d z hLocks hOther := by
    have hNew : call = .locked d ∨ call = .truncated d → t.owner z.file = some d := by
      intro hLocks
      have hSame : fd = d := by
        obtain hEq | hEq := hLocks <;> rw [hEq] at hFd <;> cases hFd <;> rfl
      subst hSame
      rw [hOpened] at hOther
      cases hOther
      exact hOwns hLocks
    obtain hLocked | hTruncated | ⟨hOld, -⟩ := hLocks
    · exact hNew (.inl hLocked)
    · exact hNew (.inr hTruncated)
    · exact hSound.owns d z (.inr (.inr ⟨hOld, by intro hNone; cases hNone⟩)) hOther
  emptied d z hTruncated hOther := by
    have hTruncated : call = .truncated d := hTruncated
    have hSame : fd = d := by
      rw [hTruncated] at hFd
      cases hFd
      rfl
    subst hSame
    rw [hOpened] at hOther
    cases hOther
    exact hEmptied hTruncated
  recorded d z hOld _ := hSound.recorded d z hOld (by intro hNone; cases hNone)

theorem Sound.acquire [DecidableEq Path] (hSound : x.Sound t) (hCall : x.call = .idle) :
    (x.acquire t).2.Sound (x.acquire t).1 := by
  have hIdle : Sound { x with call := .idle } t :=
    hSound.idle fun d hUnlocked => by rw [hCall] at hUnlocked; cases hUnlocked
  have hOpened : (t.openCreate x.lockPath x.process).opened t.descriptions =
      some ⟨t.target x.lockPath, x.process⟩ := FileTable.opened_openCreate.trans (if_pos rfl)
  refine (hIdle.frame fun d _ => keeps_openCreate).acquiring rfl (fun d hEq => by cases hEq)
    hOpened rfl ?_ ?_ ?_
  · intro hFd
    obtain ⟨y, hOpened, -⟩ := hSound.opened _ (.inl hFd)
    exact lt_irrefl _ (t.opened_lt _ y hOpened).1
  · rintro (hEq | hEq) <;> cases hEq
  · intro hEq
    cases hEq

theorem Sound.release (hSound : x.Sound t) :
    (x.release t).2.Sound (x.release t).1 := by
  obtain hFd | ⟨fd, hFd⟩ : x.fd = none ∨ ∃ fd, x.fd = some fd := by
    cases x.fd with
    | none => exact .inl rfl
    | some fd => exact .inr ⟨fd, rfl⟩
  · rw [release_of_none hFd]
    exact hSound
  · rw [release_of_fd hFd]
    have hOnly : ∀ d, x.fd = some d → d = fd := by
      intro d hEq
      rw [hFd] at hEq
      exact (Option.some.inj hEq).symm
    constructor
    · rintro d (hUses | hUses)
      · exact hSound.opened d (.inl hUses)
      · cases hUses
        exact hSound.opened fd (.inl hFd)
    · rintro d ⟨⟩
      exact hFd
    · intro d hEq _
      rw [hOnly d hEq]
    · rintro d y (hEq | hEq | ⟨hEq, hNot⟩)
      · cases hEq
      · cases hEq
      · rw [hOnly d hEq] at hNot
        exact absurd rfl hNot
    · rintro d y ⟨⟩
    · intro d y hEq hNot
      rw [hOnly d hEq] at hNot
      exact absurd rfl hNot

/-- The descriptor of an `acquire` that runs is not the one that the object has. -/
theorem Sound.fd_ne (hSound : x.Sound t) (hFd : x.call.fd = some fd)
    (hCall : ∀ d, x.call ≠ .unlocked d) : x.fd ≠ some fd :=
  fun hHad => hCall fd (hSound.separate fd hHad hFd)

theorem Sound.advance (hSound : x.Sound t) : (x.advance t).2.Sound (x.advance t).1 := by
  cases hCall : x.call with
  | idle =>
    rw [advance_idle hCall]
    exact hSound
  | opened fd =>
    have hFd : x.call.fd = some fd := by rw [hCall]; rfl
    have hNot : ∀ d, x.call ≠ .unlocked d := by rw [hCall]; rintro d ⟨⟩
    have hNe := hSound.fd_ne hFd hNot
    obtain ⟨y, hOpened, hProcess⟩ := hSound.opened fd (.inr hFd)
    cases hLock : t.lockNow fd with
    | none =>
      rw [advance_barred hCall hLock]
      refine (hSound.idle hNot).acquiring rfl (fun d hEq => by cases hEq) hOpened hProcess hNe ?_ ?_
      · rintro (hEq | hEq) <;> cases hEq
      · intro hEq
        cases hEq
    | some t' =>
      rw [advance_taken hCall hLock]
      obtain ⟨u, hEq, -, hOwner, hOpen, -⟩ | ⟨hNone, -⟩ := FileTable.lockNow_cases hOpened
      · rw [hEq] at hLock
        cases hLock
        refine ((hSound.idle hNot).frame fun d _ => keeps_lockNow hEq).acquiring rfl
          (fun d hEq => by cases hEq) (by rw [hOpen, hOpened]) hProcess hNe ?_ ?_
        · intro _
          rw [hOwner, Function.update_self]
        · intro hEq
          cases hEq
      · rw [hNone] at hLock
        cases hLock
  | refused fd =>
    have hFd : x.call.fd = some fd := by rw [hCall]; rfl
    have hNot : ∀ d, x.call ≠ .unlocked d := by rw [hCall]; rintro d ⟨⟩
    rw [advance_refused hCall]
    refine (hSound.idle hNot).frame fun d hUses => keeps_close ?_
    rintro rfl
    exact hSound.fd_ne hFd hNot (hUses.resolve_right (by intro hNone; cases hNone))
  | locked fd =>
    have hFd : x.call.fd = some fd := by rw [hCall]; rfl
    have hNot : ∀ d, x.call ≠ .unlocked d := by rw [hCall]; rintro d ⟨⟩
    have hNe := hSound.fd_ne hFd hNot
    obtain ⟨y, hOpened, hOwns⟩ := hSound.owner_of_call (.inl hCall)
    obtain ⟨z, hSame, hProcess⟩ := hSound.opened fd (.inr hFd)
    rw [hOpened] at hSame
    cases hSame
    rw [advance_locked hCall]
    change Sound { x with call := .truncated fd } (t.edit fd fun _ => [])
    refine ((hSound.idle hNot).frame fun d hUses => keeps_edit hOpened hOwns ?_).acquiring rfl
      (fun d hEq => by cases hEq) (by rw [FileTable.opened_edit, hOpened]) hProcess hNe ?_ ?_
    · rintro rfl
      exact hNe (hUses.resolve_right (by intro hNone; cases hNone))
    · intro _
      rw [FileTable.owner_edit, hOwns]
    · intro _
      rw [FileTable.contents_edit hOpened, Function.update_self]
  | truncated fd =>
    have hFd : x.call.fd = some fd := by rw [hCall]; rfl
    obtain ⟨y, hOpened, hOwns⟩ := hSound.owner_of_call (.inr hCall)
    obtain ⟨z, hSame, hProcess⟩ := hSound.opened fd (.inr hFd)
    rw [hOpened] at hSame
    cases hSame
    have hAfter : (t.write fd x.record).opened fd = some y := by
      rw [FileTable.write, FileTable.opened_edit, hOpened]
    rw [advance_truncated hCall]
    constructor
    · rintro d (hUses | hUses) <;> cases hUses
      exact ⟨y, hAfter, hProcess⟩
    · rintro d ⟨⟩
    · rintro d - ⟨⟩
    · rintro d w (hEq | hEq | ⟨hEq, -⟩) hOther <;> cases hEq
      rw [hAfter] at hOther
      cases hOther
      rw [FileTable.write, FileTable.owner_edit, hOwns]
    · rintro d w ⟨⟩
    · rintro d w ⟨⟩ - hOther
      rw [hAfter] at hOther
      cases hOther
      rw [FileTable.write, FileTable.contents_edit hOpened, Function.update_self,
        hSound.emptied fd y hCall hOpened, List.drop_nil, List.append_nil]
      rfl
  | unlocked fd =>
    rw [advance_unlocked hCall]
    exact sound_fresh

theorem Sound.fail (hSound : x.Sound t) : x.fail.Sound t := by
  unfold SingleInstanceLock.fail
  cases hCall : x.call with
  | idle => exact hSound
  | opened fd =>
    have hFd : x.call.fd = some fd := by rw [hCall]; rfl
    have hNot : ∀ d, x.call ≠ .unlocked d := by rw [hCall]; rintro d ⟨⟩
    obtain ⟨y, hOpened, hProcess⟩ := hSound.opened fd (.inr hFd)
    refine (hSound.idle hNot).acquiring rfl (fun d hEq => by cases hEq) hOpened hProcess
      (hSound.fd_ne hFd hNot) ?_ ?_
    · rintro (hEq | hEq) <;> cases hEq
    · intro hEq
      cases hEq
  | refused fd => exact hSound
  | locked fd => exact hSound.idle (by rw [hCall]; rintro d ⟨⟩)
  | truncated fd => exact hSound.idle (by rw [hCall]; rintro d ⟨⟩)
  | unlocked fd => exact hSound

/-- What a step does not touch: the name of the lock file, and which files are open where. -/
theorem advance_frame : (x.advance t).1.named = t.named ∧
    (∀ d y, (x.advance t).1.opened d = some y → t.opened d = some y) ∧
    (x.advance t).2.lockPath = x.lockPath ∧ (x.advance t).2.process = x.process := by
  cases hCall : x.call with
  | idle =>
    rw [advance_idle hCall]
    exact ⟨rfl, fun _ _ h => h, rfl, rfl⟩
  | opened fd =>
    cases hLock : t.lockNow fd with
    | none =>
      rw [advance_barred hCall hLock]
      exact ⟨rfl, fun _ _ h => h, rfl, rfl⟩
    | some t' =>
      rw [advance_taken hCall hLock]
      obtain ⟨hNamed, hOpened⟩ := FileTable.lockNow_frame hLock
      exact ⟨hNamed, fun d y h => hOpened ▸ h, rfl, rfl⟩
  | refused fd =>
    rw [advance_refused hCall]
    exact ⟨rfl, fun d y h => (FileTable.opened_closeWhere.mp h).1, rfl, rfl⟩
  | locked fd =>
    rw [advance_locked hCall]
    exact ⟨FileTable.named_edit, fun d y h => FileTable.opened_edit ▸ h, rfl, rfl⟩
  | truncated fd =>
    rw [advance_truncated hCall]
    exact ⟨FileTable.named_edit, fun d y h => FileTable.opened_edit ▸ h, rfl, rfl⟩
  | unlocked fd =>
    rw [advance_unlocked hCall]
    exact ⟨rfl, fun d y h => (FileTable.opened_closeWhere.mp h).1, rfl, rfl⟩

theorem release_frame : (x.release t).1.named = t.named ∧ (x.release t).1.opened = t.opened ∧
    (x.release t).2.lockPath = x.lockPath ∧ (x.release t).2.process = x.process ∧
    ∀ d, (x.release t).2.Uses d → x.Uses d := by
  obtain hFd | ⟨fd, hFd⟩ : x.fd = none ∨ ∃ fd, x.fd = some fd := by
    cases x.fd with
    | none => exact .inl rfl
    | some fd => exact .inr ⟨fd, rfl⟩
  · rw [release_of_none hFd]
    exact ⟨rfl, rfl, rfl, rfl, fun _ h => h⟩
  · rw [release_of_fd hFd]
    refine ⟨rfl, rfl, rfl, rfl, fun d hUses => .inl ?_⟩
    obtain hOld | hNew := hUses
    · exact hOld
    · cases hNew
      exact hFd

theorem fail_frame : x.fail.lockPath = x.lockPath ∧ x.fail.process = x.process := by
  unfold SingleInstanceLock.fail
  split <;> exact ⟨rfl, rfl⟩

theorem uses_fail (h : x.fail.Uses d) : x.Uses d := by
  unfold SingleInstanceLock.fail at h
  cases hCall : x.call with
  | idle =>
    rw [hCall] at h
    exact h
  | opened fd =>
    rw [hCall] at h
    rw [Uses, hCall]
    exact h
  | refused fd =>
    rw [hCall] at h
    exact h
  | locked fd =>
    rw [hCall] at h
    exact .inl (h.resolve_right (by intro hNone; cases hNone))
  | truncated fd =>
    rw [hCall] at h
    exact .inl (h.resolve_right (by intro hNone; cases hNone))
  | unlocked fd =>
    rw [hCall] at h
    exact h

/-- The object has its lock, and no `release` is under way. -/
def Has (x : SingleInstanceLock Path) : Prop := ∃ d, x.fd = some d ∧ ∀ e, x.call ≠ .unlocked e

theorem Has.locks (h : x.Has) : ∃ d, x.Locks d := by
  obtain ⟨d, hFd, hCall⟩ := h
  exact ⟨d, .inr (.inr ⟨hFd, hCall d⟩)⟩

theorem Has.acquire [DecidableEq Path] (h : x.Has) : (x.acquire t).2.Has := by
  obtain ⟨d, hFd, -⟩ := h
  exact ⟨d, hFd, by rintro e ⟨⟩⟩

/-- Only a `release` gives the lock up: another `acquire` may put a second lock in its place. -/
theorem Has.advance (h : x.Has) : (x.advance t).2.Has := by
  obtain ⟨d, hFd, hNot⟩ := h
  cases hCall : x.call with
  | idle =>
    rw [advance_idle hCall]
    exact ⟨d, hFd, hNot⟩
  | opened fd =>
    cases hLock : t.lockNow fd with
    | none =>
      rw [advance_barred hCall hLock]
      exact ⟨d, hFd, by rintro e ⟨⟩⟩
    | some t' =>
      rw [advance_taken hCall hLock]
      exact ⟨d, hFd, by rintro e ⟨⟩⟩
  | refused fd =>
    rw [advance_refused hCall]
    exact ⟨d, hFd, by rintro e ⟨⟩⟩
  | locked fd =>
    rw [advance_locked hCall]
    exact ⟨d, hFd, by rintro e ⟨⟩⟩
  | truncated fd =>
    rw [advance_truncated hCall]
    exact ⟨fd, rfl, by rintro e ⟨⟩⟩
  | unlocked fd => exact absurd hCall (hNot fd)

theorem Has.fail (h : x.Has) : x.fail.Has := by
  obtain ⟨d, hFd, hNot⟩ := h
  unfold SingleInstanceLock.fail
  split
  · exact ⟨d, hFd, by rintro e ⟨⟩⟩
  · exact ⟨d, hFd, by rintro e ⟨⟩⟩
  · exact ⟨d, hFd, by rintro e ⟨⟩⟩
  · exact ⟨d, hFd, hNot⟩

end Calls

end SingleInstanceLock

end KalshiBot.Runtime

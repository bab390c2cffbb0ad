import KalshiBot.Runtime.InstanceRuns

/-! # The executor's socket file

Executors started one beside another listen at the same path. Each removes what it finds
there before it binds, and the single-instance lock is what makes that safe: a process calls
`serve_forever` only between the `acquire` and the `release` of its lock.
-/

namespace KalshiBot.Ipc

open Library Runs KalshiBot.Runtime

set_option autoImplicit false

inductive ServeError where
  | fileNotFound
  | addressInUse
  deriving DecidableEq

/-- Where `serve_forever` stands: what its last system call did. -/
inductive ServeCall where
  | idle
  | looked (found : Bool)
  | unlinked
  | bound (socket : ℕ)
  | serving (socket : ℕ)
  | raised (error : ServeError)
  deriving DecidableEq

/-- The file at the socket path: the socket that made it, and whether its mode is `0o600`. -/
structure SocketFile where
  socket : ℕ
  ownerOnly : Bool
  deriving DecidableEq

structure ExecutorHost (Path : Type) where
  system : LockSystem Path
  file : Option SocketFile
  sockets : ℕ
  servers : ℕ → ServeCall

/-- `close` may take the socket's own file away with it, as later versions of asyncio do. -/
inductive HostEvent (Path : Type) where
  | lock (event : LockEvent Path)
  | serve (o : ℕ)
  | proceed (o : ℕ)
  | close (o : ℕ) (cleans : Bool)

namespace ExecutorHost

variable {Path : Type}

def owns (file : Option SocketFile) : ServeCall → Bool
  | .bound socket => file.any (·.socket == socket)
  | .serving socket => file.any (·.socket == socket)
  | _ => false

/-- `start_unix_server`, which does not bind where there is a file. -/
def startUnixServer (h : ExecutorHost Path) : Option SocketFile × ServeCall :=
  match h.file with
  | none => (some ⟨h.sockets, false⟩, .bound h.sockets)
  | some file => (some file, .raised .addressInUse)

/-- The next system call of a `serve_forever` that stands at `call`. -/
def proceedFrom (h : ExecutorHost Path) : ServeCall → Option SocketFile × ServeCall
  | .looked true =>
    match h.file with
    | some _ => (none, .unlinked)
    | none => (none, .raised .fileNotFound)
  | .looked false => h.startUnixServer
  | .unlinked => h.startUnixServer
  | .bound socket =>
    match h.file with
    | some file => (some { file with ownerOnly := true }, .serving socket)
    | none => (none, .raised .fileNotFound)
  | .idle => (h.file, .idle)
  | .serving socket => (h.file, .serving socket)
  | .raised error => (h.file, .raised error)

def step [DecidableEq Path] (h : ExecutorHost Path) : HostEvent Path → ExecutorHost Path
  | .lock event =>
    { h with
      system := h.system.step event
      servers := fun o =>
        if event = .exit (h.system.locks o).process then .idle else h.servers o }
  | .serve o =>
    if h.servers o = .idle then
      { h with servers := Function.update h.servers o (.looked h.file.isSome) }
    else h
  | .proceed o =>
    { h with
      file := (h.proceedFrom (h.servers o)).1
      sockets := h.sockets + 1
      servers := Function.update h.servers o (h.proceedFrom (h.servers o)).2 }
  | .close o cleans =>
    { h with
      file := if cleans && owns h.file (h.servers o) then none else h.file
      servers := Function.update h.servers o .idle }

/-- What the entry point of an executor keeps to, and that nobody removes the lock file. -/
def Entered (path : Path) (h : ExecutorHost Path) : HostEvent Path → Prop
  | .serve o => (h.system.locks o).Has
  | .lock (.release o) => h.servers o = .idle
  | .lock (.unlink other) => other ≠ path
  | _ => True

/-- No process has done anything yet; the socket file of a dead one may exist. -/
structure Started (path : Path) (h : ExecutorHost Path) : Prop where
  system : h.system.Started
  paths : ∀ o, (h.system.locks o).lockPath = path
  idle : ∀ o, h.servers o = .idle

/-- What a `serve_forever` counts on at the socket path. -/
def Fits (file : Option SocketFile) : ServeCall → Prop
  | .idle => True
  | .looked found => file.isSome = found
  | .unlinked => file = none
  | .bound socket => ∃ ownerOnly, file = some ⟨socket, ownerOnly⟩
  | .serving socket => file = some ⟨socket, true⟩
  | .raised _ => False

structure Guarded (path : Path) (h : ExecutorHost Path) : Prop where
  sound : h.system.Sound
  traced : ∃ files, LockSystem.Traced path 0 files h.system
  paths : ∀ o, (h.system.locks o).lockPath = path
  active : ∀ o, h.servers o ≠ .idle → (h.system.locks o).Has
  fits : ∀ o, Fits h.file (h.servers o)

variable {path : Path} {h : ExecutorHost Path} {o : ℕ}

theorem Started.guarded (hStart : h.Started path) : h.Guarded path where
  sound := hStart.system.sound
  traced := hStart.system.traced path
  paths := hStart.paths
  active o hServer := absurd (hStart.idle o) hServer
  fits o := by
    rw [hStart.idle o]
    trivial

/-- One executor at a time is anywhere in `serve_forever`. -/
theorem Guarded.unique (hGuarded : h.Guarded path) {p : ℕ} (hServer : h.servers o ≠ .idle)
    (hOther : h.servers p ≠ .idle) : o = p := by
  obtain ⟨files, hTraced⟩ := hGuarded.traced
  exact hTraced.holder_unique hGuarded.sound (hGuarded.paths o) (hGuarded.paths p)
    (hGuarded.active o hServer).locks (hGuarded.active p hOther).locks

/-- The one executor in `serve_forever` may do to the socket path what fits itself. -/
theorem Guarded.serverStep (hGuarded : h.Guarded path) {sockets : ℕ} {call : ServeCall}
    {file : Option SocketFile} (hHas : (h.system.locks o).Has) (hFits : Fits file call) :
    Guarded path { h with file, sockets, servers := Function.update h.servers o call } where
  sound := hGuarded.sound
  traced := hGuarded.traced
  paths := hGuarded.paths
  active p hServer := by
    by_cases hSame : p = o
    · subst p
      exact hHas
    · have hServer : Function.update h.servers o call p ≠ .idle := hServer
      rw [Function.update_of_ne hSame] at hServer
      exact hGuarded.active p hServer
  fits p := by
    by_cases hSame : p = o
    · subst p
      simp only [Function.update_self]
      exact hFits
    · have hIdle : h.servers p = .idle := by
        by_contra hServer
        obtain ⟨files, hTraced⟩ := hGuarded.traced
        exact hSame (hTraced.holder_unique hGuarded.sound (hGuarded.paths p) (hGuarded.paths o)
          (hGuarded.active p hServer).locks hHas.locks)
      simp only [Function.update_of_ne hSame, hIdle]
      trivial

theorem fits_proceedFrom {call : ServeCall} (hFits : Fits h.file call) :
    Fits (h.proceedFrom call).1 (h.proceedFrom call).2 := by
  have hBind : h.file = none → Fits h.startUnixServer.1 h.startUnixServer.2 := by
    intro hNone
    rw [startUnixServer, hNone]
    exact ⟨false, rfl⟩
  cases call with
  | idle => trivial
  | looked found =>
    cases found with
    | false => exact hBind (Option.isSome_eq_false_iff.mp hFits |> Option.isNone_iff_eq_none.mp)
    | true =>
      obtain ⟨file, hFile⟩ := Option.isSome_iff_exists.mp hFits
      rw [proceedFrom, hFile]
      rfl
  | unlinked => exact hBind hFits
  | bound socket =>
    obtain ⟨ownerOnly, hFile⟩ := hFits
    rw [proceedFrom, hFile]
    rfl
  | serving socket => exact hFits
  | raised error => exact hFits

section Steps

variable [DecidableEq Path]

theorem Guarded.lockStep (hGuarded : h.Guarded path) {event : LockEvent Path}
    (hEntered : h.Entered path (.lock event)) : (h.step (.lock event)).Guarded path where
  sound := hGuarded.sound.step event
  traced := by
    obtain ⟨files, hTraced⟩ := hGuarded.traced
    obtain ⟨files', hNext⟩ := hTraced.step hGuarded.sound event
    refine ⟨files', ?_⟩
    rw [if_neg] at hNext
    · exact hNext
    · rintro rfl
      exact hEntered rfl
  paths o := (LockSystem.lockPath_step event o).trans (hGuarded.paths o)
  active o hServer := by
    simp only [ExecutorHost.step] at hServer ⊢
    split at hServer
    next => exact absurd rfl hServer
    next hStays =>
      refine LockSystem.has_step (hGuarded.active o hServer) hStays ?_
      rintro rfl
      exact hServer hEntered
  fits o := by
    simp only [ExecutorHost.step]
    split
    · trivial
    · exact hGuarded.fits o

theorem Guarded.step (hGuarded : h.Guarded path) {event : HostEvent Path}
    (hEntered : h.Entered path event) : (h.step event).Guarded path := by
  cases event with
  | lock event => exact hGuarded.lockStep hEntered
  | serve o =>
    simp only [ExecutorHost.step]
    split
    · exact hGuarded.serverStep hEntered rfl
    · exact hGuarded
  | proceed o =>
    by_cases hServer : h.servers o = .idle
    · have hSame : h.step (.proceed o) = { h with sockets := h.sockets + 1 } := by
        simp only [ExecutorHost.step, hServer, proceedFrom]
        rw [← hServer, Function.update_eq_self]
      rw [hSame]
      exact ⟨hGuarded.sound, hGuarded.traced, hGuarded.paths, hGuarded.active, hGuarded.fits⟩
    · exact hGuarded.serverStep (hGuarded.active o hServer) (fits_proceedFrom (hGuarded.fits o))
  | close o cleans =>
    by_cases hServer : h.servers o = .idle
    · have hSame : h.step (.close o cleans) = h := by
        simp only [ExecutorHost.step, hServer, owns, Bool.and_false]
        rw [← hServer, Function.update_eq_self]
        rfl
      rw [hSame]
      exact hGuarded
    · exact hGuarded.serverStep (hGuarded.active o hServer) trivial

theorem Guarded.run (hGuarded : h.Guarded path) {events : List (HostEvent Path)}
    (hEntered : Throughout ExecutorHost.step (Entered path) h events) :
    (events.foldl ExecutorHost.step h).Guarded path := by
  have hStep : ∀ (h : ExecutorHost Path) e, h.Entered path e → h.Guarded path →
      (h.step e).Guarded path := fun h e hEntered hGuarded => hGuarded.step hEntered
  exact Throughout.invariant hStep hGuarded hEntered

/-- Executors that start, crash and are started again in any order never run `serve_forever` at
the same time, never fail on the socket path, and the one that serves is the one that the path
leads to, by a file that only its owner may connect to. -/
theorem executors_apart (hStart : h.Started path) {events : List (HostEvent Path)}
    (hEntered : Throughout ExecutorHost.step (Entered path) h events) :
    (∀ o p, (events.foldl ExecutorHost.step h).servers o ≠ .idle →
      (events.foldl ExecutorHost.step h).servers p ≠ .idle → o = p) ∧
    (∀ o error, (events.foldl ExecutorHost.step h).servers o ≠ .raised error) ∧
    ∀ o socket, (events.foldl ExecutorHost.step h).servers o = .serving socket →
      (events.foldl ExecutorHost.step h).file = some ⟨socket, true⟩ := by
  have hGuarded := hStart.guarded.run hEntered
  refine ⟨fun o p => hGuarded.unique, fun o error hRaised => ?_, fun o socket hServing => ?_⟩
  · have hFits := hGuarded.fits o
    rw [hRaised] at hFits
    exact hFits
  · have hFits := hGuarded.fits o
    rw [hServing] at hFits
    exact hFits

/-- Every executor asks for the lock `n`, and a dead one has left its socket file behind. -/
def stale : ExecutorHost Char where
  system := .created fun _ => 'n'
  file := some ⟨7, true⟩
  sockets := 8
  servers _ := .idle

theorem started_stale : stale.Started 'n' where
  system := LockSystem.started_created _
  paths _ := rfl
  idle _ := rfl

/-- The second executor is refused the lock while the first serves, and gets it and serves in its
place once the first is killed. -/
def takenOver : List (HostEvent Char) :=
  [.lock (.acquire 0), .lock (.advance 0), .lock (.acquire 1), .lock (.advance 1),
    .lock (.advance 0), .lock (.advance 0), .serve 0, .proceed 0, .proceed 0, .proceed 0,
    .lock (.advance 1), .lock (.exit 0), .lock (.acquire 1), .lock (.advance 1),
    .lock (.advance 1), .lock (.advance 1), .serve 1, .proceed 1, .proceed 1, .proceed 1]

theorem entered_takenOver : Throughout ExecutorHost.step (Entered 'n') stale takenOver := by
  refine .cons trivial <| .cons trivial <| .cons trivial <| .cons trivial <| .cons trivial <|
    .cons trivial <| .cons ?_ <| .cons trivial <| .cons trivial <| .cons trivial <|
    .cons trivial <| .cons trivial <| .cons trivial <| .cons trivial <| .cons trivial <|
    .cons trivial <| .cons ?_ <| .cons trivial <| .cons trivial <| .cons trivial throughout_nil
  · refine ⟨0, by decide, ?_⟩
    rintro e ⟨⟩
  · refine ⟨2, by decide, ?_⟩
    rintro e ⟨⟩

theorem executors_apart_of_killed :
    (takenOver.foldl step stale).servers 1 = .serving 12 ∧
    (∀ o p, (takenOver.foldl step stale).servers o ≠ .idle →
      (takenOver.foldl step stale).servers p ≠ .idle → o = p) ∧
    (∀ o error, (takenOver.foldl step stale).servers o ≠ .raised error) ∧
    ∀ o socket, (takenOver.foldl step stale).servers o = .serving socket →
      (takenOver.foldl step stale).file = some ⟨socket, true⟩ :=
  ⟨by decide, executors_apart started_stale entered_takenOver⟩

/-- The lock events of the run keep the locks accounted for. -/
def Orderly (h : ExecutorHost Path) : HostEvent Path → Prop
  | .lock event => h.system.Orderly event
  | _ => True

/-- What an executor does from its start until it serves, with nothing between. -/
def startAlone (h : ExecutorHost Path) (o : ℕ) : ExecutorHost Path :=
  [HostEvent.lock (.acquire o), .lock (.advance o), .lock (.advance o), .lock (.advance o),
    .serve o, .proceed o, .proceed o, .proceed o].foldl step h

theorem system_startAlone (h : ExecutorHost Path) (o : ℕ) :
    (h.startAlone o).system = h.system.acquireAlone o := by
  have hServe : ∀ g : ExecutorHost Path, (g.step (.serve o)).system = g.system := by
    intro g
    simp only [step]
    split <;> rfl
  simp only [startAlone, List.foldl_cons, List.foldl_nil]
  exact hServe _

theorem serving_startAlone (hIdle : h.servers o = .idle) :
    ∃ socket, (h.startAlone o).servers o = .serving socket ∧
      (h.startAlone o).file = some ⟨socket, true⟩ := by
  cases hFile : h.file with
  | none =>
    refine ⟨h.sockets, ?_⟩
    simp [startAlone, step, proceedFrom, startUnixServer, hIdle, hFile]
  | some file =>
    refine ⟨h.sockets + 1, ?_⟩
    simp [startAlone, step, proceedFrom, startUnixServer, hIdle, hFile]

theorem Started.accounted (hStart : h.Started path) {events : List (HostEvent Path)}
    (hOrderly : Throughout ExecutorHost.step Orderly h events) :
    (events.foldl ExecutorHost.step h).system.Sound ∧
      (events.foldl ExecutorHost.step h).system.Accounted := by
  have hStep : ∀ (h : ExecutorHost Path) e, h.Orderly e → h.system.Sound ∧ h.system.Accounted →
      (h.step e).system.Sound ∧ (h.step e).system.Accounted := by
    intro h e hOrderly hBoth
    cases e with
    | lock event => exact ⟨hBoth.1.step event, hBoth.2.step hBoth.1 hOrderly⟩
    | serve o =>
      simp only [step]
      split <;> exact hBoth
    | proceed o => exact hBoth
    | close o cleans => exact hBoth
  exact Throughout.invariant hStep ⟨hStart.system.sound, hStart.system.accounted⟩ hOrderly

/-- Wherever executors were killed, and whatever socket file they left: the next one to start
serves, unless one that lives has the lock. -/
theorem executor_restarts (hStart : h.Started path) {events : List (HostEvent Path)}
    (hOrderly : Throughout ExecutorHost.step Orderly h events)
    (hServer : (events.foldl ExecutorHost.step h).servers o = .idle)
    (hIdle : ((events.foldl ExecutorHost.step h).system.locks o).call = .idle)
    (hFree : ¬(events.foldl ExecutorHost.step h).system.Contended o) :
    (((events.foldl ExecutorHost.step h).startAlone o).system.locks o).Has ∧
    ∃ socket, ((events.foldl ExecutorHost.step h).startAlone o).servers o = .serving socket ∧
      ((events.foldl ExecutorHost.step h).startAlone o).file = some ⟨socket, true⟩ := by
  obtain ⟨hSound, hAccounted⟩ := hStart.accounted hOrderly
  refine ⟨?_, serving_startAlone hServer⟩
  rw [system_startAlone]
  exact (hAccounted.acquireAlone hSound hIdle).1 hFree

theorem executor_restarts_of_killed :
    let h := [HostEvent.lock (.acquire 2), .lock (.advance 2), .lock (.exit 2)].foldl step stale
    ((h.startAlone 3).system.locks 3).Has ∧
    ∃ socket, (h.startAlone 3).servers 3 = .serving socket ∧
      (h.startAlone 3).file = some ⟨socket, true⟩ := by
  refine executor_restarts started_stale ?_ (by decide) (by decide) ?_
  · exact .cons rfl <| .cons trivial <| .cons trivial throughout_nil
  · -- the lock of the killed process went with it
    have hFresh : ∀ p, ([HostEvent.lock (.acquire 2), .lock (.advance 2), .lock (.exit 2)].foldl step
        stale).system.locks p = { lockPath := 'n', process := p } := by
      intro p
      by_cases hKilled : p = 2
      · subst p
        rfl
      · simp [step, stale, LockSystem.step, LockSystem.created, LockSystem.act, hKilled]
    rintro ⟨p, d, -, hLocks, -⟩
    rw [hFresh] at hLocks
    obtain hNone | hNone | ⟨hNone, -⟩ := hLocks <;> cases hNone

end Steps

end ExecutorHost

end KalshiBot.Ipc

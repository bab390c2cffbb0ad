import KalshiBot.Ipc.ExecutorServer
import KalshiBot.Library.Runs
import KalshiBot.Transport.RestClient

/-! # Shadow fires

The executor with its client, every fire cut where it can be suspended: in front of the rate
limiter, in its request, and between two attempts. The log holds what a real fire sees of the gate,
the jobs for `orders_fired` and the requests given to the session. A shadow fire leaves no mark on
any of them.
-/

namespace KalshiBot.Ipc

open PythonText Execution Risk Transport

set_option autoImplicit false

inductive Observation where
  /-- A real fire is about to use the gate, and finds this. -/
  | gate (gate : Option RiskGate)
  | job (job : OrderJob)
  | request (m : WakeMessage) (request : SessionRequest OrderRequest)

inductive PostState where
  | request (state : RequestState OrderRequest)
  | backoff
  | ended

/-- A fire inside `post`, in the attempt with this number. -/
structure PostingFire where
  fire : PendingFire
  attempt : ℕ
  state : PostState

structure ExecutorProcess where
  server : ExecutorServer
  client : KalshiRestClient
  fires : List PostingFire
  log : List Observation

inductive AttemptEnd where
  | returned (response : PyValue)
  | raised (error : TransportError) (message : String)
  | cancelled

/-- A fire is resumed by its index among those that were ever suspended. -/
inductive ExecutorEvent where
  | wake (m : WakeMessage) (r : FireReadings) (q : RequestReadings) (finish : FinishReadings)
  /-- The lock is free, or the sleep over. -/
  | resume (ticket : ℕ) (q : RequestReadings)
  | attemptEnds (ticket : ℕ) (outcome : AttemptEnd) (finish : FinishReadings)
  /-- The task is cancelled where it has no request out. -/
  | cancel (ticket : ℕ) (finish : FinishReadings)
  /-- What the polls do to the gate and to the budgets. -/
  | poll (gate : RiskGate → RiskGate) (limiter : KalshiRateLimiter → KalshiRateLimiter)

def ExecutorEvent.IsShadow : ExecutorEvent → Prop
  | .wake m _ _ _ => m.dryRun = true
  | _ => False

def ordersPath : String := "/portfolio/events/orders"

def requestCall (fire : PendingFire) : RequestCall OrderRequest where
  method := .post
  path := ordersPath
  body := fire.dispatch.request
  dryRun := fire.dispatch.dryRun

def sentOf (m : WakeMessage) : RequestState OrderRequest → List Observation
  | .sent request => [.request m request]
  | _ => []

structure LaunchedBy (m : WakeMessage) (fire : PendingFire) : Prop where
  message : fire.message = m
  dryRun : fire.dispatch.dryRun = m.dryRun
  ungated : m.dryRun = true → fire.gatingRisk = false

namespace ExecutorServer

variable {server : ExecutorServer} {m : WakeMessage} {r : FireReadings} {fire : PendingFire}
  {count : ℤ} {wirePrice : ℚ}

theorem launchedBy_sendFire (h : (server.sendFire m count wirePrice r).1 = .awaiting fire) :
    LaunchedBy m fire := by
  unfold sendFire at h
  cases hTemplate : buildTemplate m.marketTicker m.direction with
  | none =>
    rw [hTemplate] at h
    cases h
  | some template =>
    simp only [hTemplate] at h
    split at h
    next => cases h
    next dispatch jobs hOpen =>
      cases h
      refine ⟨rfl, (openDispatch_eq_some hOpen).1, fun hShadow => ?_⟩
      simp [hShadow]

theorem launchedBy_gateFire (h : (server.gateFire m count wirePrice r).1 = .awaiting fire) :
    LaunchedBy m fire := by
  unfold gateFire at h
  cases hGate : server.riskGate with
  | none =>
    rw [hGate] at h
    exact launchedBy_sendFire h
  | some gate =>
    simp only [hGate] at h
    split at h
    next => cases h
    next => exact launchedBy_sendFire h

theorem launchedBy_guardFire (h : (server.guardFire m count wirePrice r).1 = .awaiting fire) :
    LaunchedBy m fire := by
  unfold guardFire at h
  cases hSwitch : server.killSwitch with
  | none =>
    rw [hSwitch] at h
    exact launchedBy_gateFire h
  | some switch =>
    simp only [hSwitch] at h
    split at h
    · split at h
      next => cases h
      next => cases h
    · exact launchedBy_gateFire h

theorem launchedBy_startFire (h : (server.startFire m r).1 = .awaiting fire) :
    LaunchedBy m fire := by
  unfold startFire at h
  split at h
  · split at h
    next => cases h
    next => exact launchedBy_sendFire h
  · split at h
    · cases h
    · split at h
      next => cases h
      next =>
        simp only at h
        split at h
        · cases h
        · exact launchedBy_guardFire h

end ExecutorServer

namespace ExecutorProcess

def started (server : ExecutorServer) (client : KalshiRestClient) : ExecutorProcess where
  server
  client
  fires := []
  log := []

/-- The rest of a fire, from the outcome of its `post` on. -/
def finish (p : ExecutorProcess) (fire : PendingFire) (outcome : PostOutcome)
    (r : FinishReadings) : ExecutorProcess :=
  let finished := finishFire p.server fire outcome r
  { p with
    server := finished.2
    log := p.log ++ (if fire.gatingRisk then [.gate p.server.riskGate] else []) ++
      finished.1.map .job }

/-- A fire that has started comes to its `post`. -/
def post (p : ExecutorProcess) (fire : PendingFire) (q : RequestReadings) (r : FinishReadings) :
    ExecutorProcess :=
  match p.client.openRequest (requestCall fire) p.fires.length q with
  | (client, .returned response) => { p with client }.finish fire (.returned response) r
  | (client, state) =>
    { p with
      client
      fires := p.fires ++ [⟨fire, 1, .request state⟩]
      log := p.log ++ sentOf fire.message state }

def wake (p : ExecutorProcess) (m : WakeMessage) (r : FireReadings) (q : RequestReadings)
    (finish : FinishReadings) : ExecutorProcess :=
  let started := p.server.startFire m r
  let p := { p with
    server := started.2.2
    log := p.log ++ (if m.dryRun then [] else [.gate p.server.riskGate]) ++
      started.2.1.map .job }
  match started.1 with
  | .finished | .raised => p
  | .awaiting fire => p.post fire q finish

def place (p : ExecutorProcess) (ticket : ℕ) (posting : PostingFire) :
    KalshiRestClient × RequestState OrderRequest → ExecutorProcess
  | (client, state) =>
    { p with
      client
      fires := p.fires.set ticket { posting with state := .request state }
      log := p.log ++ sentOf posting.fire.message state }

def resume (p : ExecutorProcess) (ticket : ℕ) (q : RequestReadings) : ExecutorProcess :=
  match p.fires[ticket]? with
  | none => p
  | some posting =>
    match posting.state with
    | .request (.sent _) | .request (.returned _) | .ended => p
    | .request state =>
      p.place ticket posting
        (p.client.resumeRequest (requestCall posting.fire) ticket q state)
    | .backoff =>
      p.place ticket posting (p.client.openRequest (requestCall posting.fire) ticket q)

def leave (p : ExecutorProcess) (ticket : ℕ) (posting : PostingFire) (outcome : PostOutcome)
    (r : FinishReadings) : ExecutorProcess :=
  { p with fires := p.fires.set ticket { posting with state := .ended } }.finish posting.fire outcome r

/-- The `except` block of `with_retries`, around the attempt. -/
def attemptEnds (p : ExecutorProcess) (ticket : ℕ) (outcome : AttemptEnd) (r : FinishReadings) :
    ExecutorProcess :=
  match p.fires[ticket]? with
  | none => p
  | some posting =>
    match posting.state with
    | .request (.sent _) =>
      match outcome with
      | .returned response => p.leave ticket posting (.returned response) r
      | .raised error message =>
        if posting.attempt < attemptLimit ∧ isRetryable error then
          { p with
            fires := p.fires.set ticket
              { posting with attempt := posting.attempt + 1, state := .backoff } }
        else p.leave ticket posting (.raised message) r
      | .cancelled => p.leave ticket posting .cancelled r
    | _ => p

def cancel (p : ExecutorProcess) (ticket : ℕ) (r : FinishReadings) : ExecutorProcess :=
  match p.fires[ticket]? with
  | none => p
  | some posting =>
    match posting.state with
    | .request (.sent _) | .ended => p
    | .request state =>
      { p with client := p.client.abandonRequest (requestCall posting.fire) ticket state }.leave
        ticket posting .cancelled r
    | .backoff => p.leave ticket posting .cancelled r

def step (p : ExecutorProcess) : ExecutorEvent → ExecutorProcess
  | .wake m r q finish => p.wake m r q finish
  | .resume ticket q => p.resume ticket q
  | .attemptEnds ticket outcome finish => p.attemptEnds ticket outcome finish
  | .cancel ticket finish => p.cancel ticket finish
  | .poll gate limiter =>
    { p with
      server := p.server.withGate gate
      client := { p.client with rateLimiter := limiter p.client.rateLimiter } }

def run (p : ExecutorProcess) (events : List ExecutorEvent) : ExecutorProcess :=
  events.foldl step p

/-- The client may have opened its session earlier or later; all else is the same. -/
structure Same (p q : ExecutorProcess) : Prop where
  server : p.server = q.server
  rateLimiter : p.client.rateLimiter = q.client.rateLimiter
  fires : p.fires = q.fires
  log : p.log = q.log

variable {p q : ExecutorProcess}

theorem Same.finish (h : Same p q) (fire : PendingFire) (outcome : PostOutcome)
    (r : FinishReadings) : Same (p.finish fire outcome r) (q.finish fire outcome r) := by
  refine ⟨?_, h.rateLimiter, h.fires, ?_⟩
  · rw [ExecutorProcess.finish, ExecutorProcess.finish, h.server]
  · simp only [ExecutorProcess.finish, h.server, h.log]

theorem Same.place (h : Same p q) (ticket : ℕ) (posting : PostingFire)
    {placed placed' : KalshiRestClient × RequestState OrderRequest}
    (hPlaced : KalshiRestClient.SameBudget placed placed') :
    Same (p.place ticket posting placed) (q.place ticket posting placed') := by
  obtain ⟨client, state⟩ := placed
  obtain ⟨client', state'⟩ := placed'
  obtain ⟨hLimiter, rfl⟩ := hPlaced
  exact ⟨h.server, hLimiter, congrArg (List.set · _ _) h.fires, congrArg (· ++ _) h.log⟩

theorem Same.post (h : Same p q) (fire : PendingFire) (r : RequestReadings)
    (finish : FinishReadings) : Same (p.post fire r finish) (q.post fire r finish) := by
  have hOpened := KalshiRestClient.openRequest_congr h.rateLimiter (requestCall fire)
    q.fires.length r
  unfold ExecutorProcess.post
  rw [h.fires]
  generalize p.client.openRequest (requestCall fire) q.fires.length r = opened at hOpened
  generalize q.client.openRequest (requestCall fire) q.fires.length r = opened' at hOpened
  obtain ⟨client, state⟩ := opened
  obtain ⟨client', state'⟩ := opened'
  obtain ⟨hLimiter, rfl⟩ := hOpened
  have hPushed : ∀ state : RequestState OrderRequest,
      Same
        { p with
          client
          fires := q.fires ++ [⟨fire, 1, .request state⟩]
          log := p.log ++ sentOf fire.message state }
        { q with
          client := client'
          fires := q.fires ++ [⟨fire, 1, .request state⟩]
          log := q.log ++ sentOf fire.message state } := fun state =>
    ⟨h.server, hLimiter, rfl, congrArg (· ++ _) h.log⟩
  cases state with
  | returned response =>
    refine Same.finish ?_ _ _ _
    exact ⟨h.server, hLimiter, rfl, h.log⟩
  | queued => exact hPushed .queued
  | asleep => exact hPushed .asleep
  | sent request => exact hPushed (.sent request)

theorem Same.wake (h : Same p q) (m : WakeMessage) (r : FireReadings) (readings : RequestReadings)
    (finish : FinishReadings) : Same (p.wake m r readings finish) (q.wake m r readings finish) := by
  simp only [ExecutorProcess.wake, h.server, h.log]
  cases (q.server.startFire m r).1 with
  | finished => exact ⟨rfl, h.rateLimiter, h.fires, rfl⟩
  | raised => exact ⟨rfl, h.rateLimiter, h.fires, rfl⟩
  | awaiting fire =>
    refine Same.post ?_ _ _ _
    exact ⟨rfl, h.rateLimiter, h.fires, rfl⟩

theorem Same.resume (h : Same p q) (ticket : ℕ) (r : RequestReadings) :
    Same (p.resume ticket r) (q.resume ticket r) := by
  unfold ExecutorProcess.resume
  rw [h.fires]
  cases q.fires[ticket]? with
  | none => exact h
  | some posting =>
    obtain ⟨fire, attempt, state⟩ := posting
    cases state with
    | ended => exact h
    | backoff => exact h.place _ _ (KalshiRestClient.openRequest_congr h.rateLimiter _ _ _)
    | request state =>
      cases state with
      | sent request => exact h
      | returned response => exact h
      | queued => exact h.place _ _ (KalshiRestClient.resumeRequest_congr h.rateLimiter _ _ _ _)
      | asleep => exact h.place _ _ (KalshiRestClient.resumeRequest_congr h.rateLimiter _ _ _ _)

theorem Same.leave (h : Same p q) (ticket : ℕ) (posting : PostingFire) (outcome : PostOutcome)
    (r : FinishReadings) : Same (p.leave ticket posting outcome r) (q.leave ticket posting outcome r) := by
  refine Same.finish ?_ _ _ _
  exact ⟨h.server, h.rateLimiter, congrArg (List.set · _ _) h.fires, h.log⟩

theorem Same.attemptEnds (h : Same p q) (ticket : ℕ) (outcome : AttemptEnd) (r : FinishReadings) :
    Same (p.attemptEnds ticket outcome r) (q.attemptEnds ticket outcome r) := by
  unfold ExecutorProcess.attemptEnds
  rw [h.fires]
  cases q.fires[ticket]? with
  | none => exact h
  | some posting =>
    simp only
    split
    · cases outcome with
      | returned response => exact h.leave _ _ _ _
      | cancelled => exact h.leave _ _ _ _
      | raised error message =>
        simp only
        split
        · exact ⟨h.server, h.rateLimiter, rfl, h.log⟩
        · exact h.leave _ _ _ _
    · exact h

theorem Same.cancel (h : Same p q) (ticket : ℕ) (r : FinishReadings) :
    Same (p.cancel ticket r) (q.cancel ticket r) := by
  unfold ExecutorProcess.cancel
  rw [h.fires]
  cases q.fires[ticket]? with
  | none => exact h
  | some posting =>
    simp only
    split
    · exact h
    · exact h
    next state _ _ =>
      have hLimiter := KalshiRestClient.abandonRequest_congr h.rateLimiter
        (requestCall posting.fire) ticket state
      refine Same.leave ?_ _ _ _ _
      exact ⟨h.server, hLimiter, rfl, h.log⟩
    · exact h.leave _ _ _ _

theorem Same.step (h : Same p q) (event : ExecutorEvent) : Same (p.step event) (q.step event) := by
  cases event with
  | wake m r readings finish => exact h.wake m r readings finish
  | resume ticket readings => exact h.resume ticket readings
  | attemptEnds ticket outcome finish => exact h.attemptEnds ticket outcome finish
  | cancel ticket finish => exact h.cancel ticket finish
  | poll gate limiter =>
    exact ⟨congrArg (ExecutorServer.withGate · gate) h.server, congrArg limiter h.rateLimiter,
      h.fires, h.log⟩

theorem same_finish_shadow {fire : PendingFire} (hShadow : fire.dispatch.dryRun = true)
    (hUngated : fire.gatingRisk = false) (outcome : PostOutcome) (r : FinishReadings) :
    Same p (p.finish fire outcome r) := by
  refine ⟨?_, rfl, rfl, ?_⟩
  · simp [ExecutorProcess.finish, finishFire, hUngated]
  · simp [ExecutorProcess.finish, finishFire, hUngated, closeDispatch_of_dryRun hShadow]

theorem same_post_shadow {fire : PendingFire} (hShadow : fire.dispatch.dryRun = true)
    (hUngated : fire.gatingRisk = false) (readings : RequestReadings) (r : FinishReadings) :
    Same p (p.post fire readings r) := by
  have hOpened : p.client.openRequest (requestCall fire) p.fires.length readings =
      ({ p.client with session := true }, .returned (.dict [])) := by
    have hDry : (requestCall fire).dryRun = true := hShadow
    rw [KalshiRestClient.openRequest, if_pos hDry, KalshiRestClient.assemble, if_pos hDry]
  unfold ExecutorProcess.post
  rw [hOpened]
  have hFinish := same_finish_shadow (p := { p with client := { p.client with session := true } })
    hShadow hUngated (.returned (.dict [])) r
  exact ⟨hFinish.server, hFinish.rateLimiter, hFinish.fires, hFinish.log⟩

theorem startFire_shadow {server : ExecutorServer} {m : WakeMessage} (hShadow : m.dryRun = true)
    (r : FireReadings) : (server.startFire m r).2 = ([], server) := by
  rw [ExecutorServer.startFire, if_pos hShadow]
  cases snapToGrid m.wirePriceYesDollars m.priceRanges with
  | none => rfl
  | some wirePrice =>
    simp only [ExecutorServer.sendFire, hShadow, Bool.not_true, Bool.and_false, Bool.false_eq_true,
      if_false]
    cases buildTemplate m.marketTicker m.direction with
    | none => rfl
    | some template =>
      simp only
      split
      next => rfl
      next hOpen =>
        rw [(openDispatch_eq_some hOpen).2]
        rfl

/-- The shadow fire never suspends: it opens the session at most, and its `post` returns. -/
theorem same_wake_shadow {m : WakeMessage} (hShadow : m.dryRun = true) (r : FireReadings)
    (readings : RequestReadings) (finish : FinishReadings) : Same p (p.wake m r readings finish) := by
  have hRest : (p.server.startFire m r).2 = ([], p.server) := startFire_shadow hShadow r
  simp only [ExecutorProcess.wake, hRest, hShadow, if_true, List.map_nil, List.append_nil]
  cases hStart : (p.server.startFire m r).1 with
  | finished => exact ⟨rfl, rfl, rfl, rfl⟩
  | raised => exact ⟨rfl, rfl, rfl, rfl⟩
  | awaiting fire =>
    have hLaunched := ExecutorServer.launchedBy_startFire hStart
    exact same_post_shadow (hLaunched.dryRun.trans hShadow) (hLaunched.ungated hShadow) readings finish

theorem Same.insert (h : Same p q) {event : ExecutorEvent} (hShadow : event.IsShadow) :
    Same p (q.step event) := by
  cases event with
  | wake m r readings finish =>
    have hQuiet := same_wake_shadow (p := q) hShadow r readings finish
    exact ⟨h.server.trans hQuiet.server, h.rateLimiter.trans hQuiet.rateLimiter,
      h.fires.trans hQuiet.fires, h.log.trans hQuiet.log⟩
  | resume ticket readings => cases hShadow
  | attemptEnds ticket outcome finish => cases hShadow
  | cancel ticket finish => cases hShadow
  | poll gate limiter => cases hShadow

/-- Only real fires are suspended, and only their requests are sent. -/
structure RealOnly (p : ExecutorProcess) : Prop where
  fires : ∀ posting ∈ p.fires, posting.fire.message.dryRun = false
  requests : ∀ m request, .request m request ∈ p.log → m.dryRun = false

theorem realOnly_started (server : ExecutorServer) (client : KalshiRestClient) :
    RealOnly (started server client) where
  fires _ hMem := by cases hMem
  requests _ _ hMem := by cases hMem

theorem sentOf_request {m m' : WakeMessage} {state : RequestState OrderRequest}
    {request : SessionRequest OrderRequest} (h : .request m' request ∈ sentOf m state) : m' = m := by
  cases state with
  | sent _ =>
    cases List.mem_singleton.mp h
    rfl
  | queued => cases h
  | asleep => cases h
  | returned _ => cases h

theorem RealOnly.finish (h : RealOnly p) (fire : PendingFire) (outcome : PostOutcome)
    (r : FinishReadings) : RealOnly (p.finish fire outcome r) := by
  refine ⟨h.fires, fun m request hMem => ?_⟩
  simp only [ExecutorProcess.finish, List.append_assoc, List.mem_append, List.mem_map] at hMem
  obtain hOld | hGate | ⟨job, -, hJob⟩ := hMem
  · exact h.requests m request hOld
  · split at hGate
    · cases List.mem_singleton.mp hGate
    · cases hGate
  · cases hJob

theorem RealOnly.leave (h : RealOnly p) {ticket : ℕ} {posting : PostingFire}
    (hMem : posting ∈ p.fires) (outcome : PostOutcome) (r : FinishReadings) :
    RealOnly (p.leave ticket posting outcome r) := by
  refine RealOnly.finish ?_ _ _ _
  refine ⟨fun other hOther => ?_, h.requests⟩
  obtain hOld | rfl := List.mem_or_eq_of_mem_set hOther
  · exact h.fires other hOld
  · exact h.fires posting hMem

theorem RealOnly.place (h : RealOnly p) {ticket : ℕ} {posting : PostingFire}
    (hMem : posting ∈ p.fires) (placed : KalshiRestClient × RequestState OrderRequest) :
    RealOnly (p.place ticket posting placed) := by
  refine ⟨fun other hOther => ?_, fun m request hRequest => ?_⟩
  · obtain hOld | rfl := List.mem_or_eq_of_mem_set hOther
    · exact h.fires other hOld
    · exact h.fires posting hMem
  · obtain hOld | hNew := List.mem_append.mp hRequest
    · exact h.requests m request hOld
    · rw [sentOf_request hNew]
      exact h.fires posting hMem

theorem RealOnly.post (h : RealOnly p) {fire : PendingFire} (hReal : fire.message.dryRun = false)
    (readings : RequestReadings) (r : FinishReadings) : RealOnly (p.post fire readings r) := by
  unfold ExecutorProcess.post
  split
  next =>
    refine RealOnly.finish ?_ _ _ _
    exact ⟨h.fires, h.requests⟩
  next state _ _ =>
    refine ⟨?_, fun m request hRequest => ?_⟩
    · rw [List.forall_mem_append, List.forall_mem_singleton]
      exact ⟨h.fires, hReal⟩
    · obtain hOld | hNew := List.mem_append.mp hRequest
      · exact h.requests m request hOld
      · rw [sentOf_request hNew]
        exact hReal

theorem RealOnly.wake (h : RealOnly p) {m : WakeMessage} (hReal : m.dryRun = false)
    (r : FireReadings) (readings : RequestReadings) (finish : FinishReadings) :
    RealOnly (p.wake m r readings finish) := by
  have hStarted : RealOnly { p with
      server := (p.server.startFire m r).2.2
      log := p.log ++ (if m.dryRun then [] else [.gate p.server.riskGate]) ++
        (p.server.startFire m r).2.1.map .job } := by
    refine ⟨h.fires, fun m' request hMem => ?_⟩
    simp only [hReal, Bool.false_eq_true, if_false, List.append_assoc, List.mem_append,
      List.mem_map] at hMem
    obtain hOld | hGate | ⟨job, -, hJob⟩ := hMem
    · exact h.requests m' request hOld
    · cases List.mem_singleton.mp hGate
    · cases hJob
  unfold ExecutorProcess.wake
  simp only
  cases hStart : (p.server.startFire m r).1 with
  | finished => exact hStarted
  | raised => exact hStarted
  | awaiting fire =>
    have hMessage := (ExecutorServer.launchedBy_startFire hStart).message
    exact hStarted.post (hMessage ▸ hReal) _ _

theorem RealOnly.resume (h : RealOnly p) (ticket : ℕ) (readings : RequestReadings) :
    RealOnly (p.resume ticket readings) := by
  unfold ExecutorProcess.resume
  split
  next => exact h
  next posting hAt =>
    have hMem := List.mem_of_getElem? hAt
    split
    · exact h
    · exact h
    · exact h
    · exact h.place hMem _
    · exact h.place hMem _

theorem RealOnly.attemptEnds (h : RealOnly p) (ticket : ℕ) (outcome : AttemptEnd)
    (r : FinishReadings) : RealOnly (p.attemptEnds ticket outcome r) := by
  unfold ExecutorProcess.attemptEnds
  split
  next => exact h
  next posting hAt =>
    have hMem := List.mem_of_getElem? hAt
    split
    · cases outcome with
      | returned response => exact h.leave hMem _ _
      | cancelled => exact h.leave hMem _ _
      | raised error message =>
        simp only
        split
        · refine ⟨fun other hOther => ?_, h.requests⟩
          obtain hOld | rfl := List.mem_or_eq_of_mem_set hOther
          · exact h.fires other hOld
          · exact h.fires posting hMem
        · exact h.leave hMem _ _
    · exact h

theorem RealOnly.cancel (h : RealOnly p) (ticket : ℕ) (r : FinishReadings) :
    RealOnly (p.cancel ticket r) := by
  unfold ExecutorProcess.cancel
  split
  next => exact h
  next posting hAt =>
    have hMem := List.mem_of_getElem? hAt
    split
    · exact h
    · exact h
    next state _ _ =>
      have hAbandoned : RealOnly { p with
          client := p.client.abandonRequest (requestCall posting.fire) ticket state } :=
        ⟨h.fires, h.requests⟩
      exact hAbandoned.leave hMem _ _
    · exact h.leave hMem _ _

theorem RealOnly.congr (h : RealOnly p) (hSame : Same p q) : RealOnly q :=
  ⟨hSame.fires ▸ h.fires, hSame.log ▸ h.requests⟩

theorem RealOnly.step (h : RealOnly p) (event : ExecutorEvent) : RealOnly (p.step event) := by
  cases event with
  | wake m r readings finish =>
    cases hReal : m.dryRun with
    | false => exact h.wake hReal r readings finish
    | true => exact h.congr (same_wake_shadow hReal r readings finish)
  | resume ticket readings => exact h.resume ticket readings
  | attemptEnds ticket outcome finish => exact h.attemptEnds ticket outcome finish
  | cancel ticket finish => exact h.cancel ticket finish
  | poll gate limiter => exact ⟨h.fires, h.requests⟩

theorem realOnly_run (h : RealOnly p) (events : List ExecutorEvent) : RealOnly (p.run events) := by
  induction events generalizing p with
  | nil => exact h
  | cons event events ih => exact ih (h.step event)

theorem run_shadows (server : ExecutorServer) (client : KalshiRestClient)
    (events events' : List ExecutorEvent)
    (hShadows : Runs.Inserted ExecutorEvent.IsShadow events events') :
    ((started server client).run events').log = ((started server client).run events).log ∧
      ∀ m request, .request m request ∈ ((started server client).run events').log →
        m.dryRun = false := by
  have hSame : Same ((started server client).run events) ((started server client).run events') :=
    hShadows.run (fun _ _ event h => h.step event) (fun _ _ _ hEvent h => h.insert hEvent)
      ⟨rfl, rfl, rfl, rfl⟩
  exact ⟨hSame.log.symm, (realOnly_run (realOnly_started server client) events').requests⟩

def demoClient : KalshiRestClient where
  rateLimiter := .started 0

def demoArrival (dryRun : Bool) : ExecutorEvent :=
  .wake ⟨"corr-1", "KX-A-1", "yes", 1 / 2, 1 / 10, dryRun, 1 / 2, 0, 0, [[0, 1, 1 / 100]], ""⟩
    demoReadings ⟨0, 1000⟩ ⟨1000, 1000⟩

theorem demoArrival_isShadow : (demoArrival true).IsShadow := rfl

theorem run_shadows_before_real :
    ((started demoServer demoClient).run [demoArrival true, demoArrival false]).log =
        ((started demoServer demoClient).run [demoArrival false]).log ∧
      ∀ m request,
        .request m request ∈
            ((started demoServer demoClient).run [demoArrival true, demoArrival false]).log →
          m.dryRun = false :=
  run_shadows demoServer demoClient [demoArrival false] [demoArrival true, demoArrival false]
    (.insert demoArrival_isShadow (.keep (demoArrival false) .nil))

-- the gate that is seen, the pending row and the request
example : ((started demoServer demoClient).run [demoArrival false]).log.length = 3 := by
  decide +kernel

end ExecutorProcess

end KalshiBot.Ipc

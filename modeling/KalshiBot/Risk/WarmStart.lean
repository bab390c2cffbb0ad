import Mathlib.Order.Bounds.Basic
import KalshiBot.Risk.Drain
import KalshiBot.Risk.Groups

/-! # A restarted gate answers as the live one

The live gate learns of an order twice, when it is sent and when its fill comes
back; the warm start reads both from one row, under the time of the attempt. What
`check` can still see at a later moment is the same in the two.
-/

namespace KalshiBot.Risk

open PythonText RollingWindow

set_option autoImplicit false

/-- An attempt and, once it is recorded, its fill count with the time of the record. -/
structure Order where
  attempt : WireAttempt
  fill : Option (ℚ × ℤ) := none

namespace Order

def key (o : Order) : String × String := (o.attempt.ticker, o.attempt.direction)

def fillsAt (stampMs : Order → ℤ) (o : Order) : List Fill :=
  match o.fill with
  | none => []
  | some (fillCount, _) =>
    if h : 0 < fillCount then
      [⟨stampMs o, o.attempt.ticker, o.attempt.correlationGroup, fillCount, h⟩]
    else []

def attemptMs (o : Order) : ℤ := o.attempt.nowMs

def fillMs (o : Order) : ℤ := (o.fill.map Prod.snd).getD o.attempt.nowMs

end Order

/-- The orders sent from an empty gate and the gate they leave, under an epoch clock
that never runs back. Checks may fall anywhere in between. -/
inductive LiveRun (limits : RiskLimits) : List Order → ℤ → RiskGate → Prop
  | start : LiveRun limits [] 0 { limits }
  | attempt {orders : List Order} {clock : ℤ} {g : RiskGate} (a : WireAttempt)
      (h : LiveRun limits orders clock g) (hNow : clock ≤ a.nowMs) :
      LiveRun limits (orders ++ [⟨a, none⟩]) a.nowMs ((GateCall.recordAttempt a).apply g)
  | fill {before after : List Order} {a : WireAttempt} {clock : ℤ} {g : RiskGate}
      (fillCount : ℚ) (nowMs : ℤ) (h : LiveRun limits (before ++ ⟨a, none⟩ :: after) clock g)
      (hNow : clock ≤ nowMs) :
      LiveRun limits (before ++ ⟨a, some (fillCount, nowMs)⟩ :: after) nowMs
        (g.recordFill a.ticker fillCount nowMs)
  | check {orders : List Order} {clock : ℤ} {g : RiskGate} (c : Candidate) (nowMs : ℤ)
      (h : LiveRun limits orders clock g) (hNow : clock ≤ nowMs) :
      LiveRun limits orders nowMs (g.check c nowMs).2

structure StoredOrder extends RiskGate.FetchedOrder where
  status : String

/-- The row that the telemetry holds for an order which reached the wire. -/
structure StoredOrder.Records (row : StoredOrder) (o : Order) : Prop where
  ticker : row.ticker = o.attempt.ticker
  outcomeSide : row.outcomeSide = o.attempt.direction
  requestedAtMs : row.requestedAtMs = o.attempt.nowMs
  count : RiskGate.asFloat row.count = o.attempt.count
  priceDollars : RiskGate.asFloat row.priceDollars = o.attempt.priceDollars
  correlationGroup : row.correlationGroup =
    if o.attempt.correlationGroup = "" then none else some o.attempt.correlationGroup
  fillCount : match o.fill with
    | none => row.fillCount = .null
    | some (fillCount, _) => RiskGate.asFloat row.fillCount = fillCount

/-- `orders_fired` in any row order, with any rejected rows besides. -/
def RecordedIn (orders : List Order) (table : List StoredOrder) : Prop :=
  ∃ sent : List StoredOrder, sent.Perm (table.filter fun row => row.status ≠ "rejected") ∧
    List.Forall₂ StoredOrder.Records sent orders

/-- The results that the warm start's query may return: SQL leaves ties open. -/
def Selects (table : List StoredOrder) (nowMs : ℤ) (rows : List RiskGate.FetchedOrder) : Prop :=
  rows.Pairwise (fun r s => r.requestedAtMs ≤ s.requestedAtMs) ∧
    rows.Perm ((table.filter fun row =>
      nowMs - dayMs ≤ row.requestedAtMs ∧ row.status ≠ "rejected").map StoredOrder.toFetchedOrder)

/-- The gates that `warm_start` may build from the table at `nowMs`. -/
def WarmStarts (limits : RiskLimits) (table : List StoredOrder) (nowMs : ℤ) (g : RiskGate) : Prop :=
  ∃ rows, Selects table nowMs rows ∧ g = RiskGate.warmStart limits rows

/-- The greatest of the times, `none` if there is none. -/
def IsLatest (times : Set ℤ) : Option ℤ → Prop
  | none => times = ∅
  | some last => IsGreatest times last

theorem IsLatest.insert {times : Set ℤ} {t : ℤ} (ht : ∀ s ∈ times, s ≤ t) :
    IsLatest (insert t times) (some t) :=
  ⟨Set.mem_insert t times, Set.forall_mem_insert.mpr ⟨le_rfl, ht⟩⟩

/-- Forgetting the times before a floor changes nothing for a test that only recent
times can pass. -/
theorem IsLatest.filter_eq {times recent : Set ℤ} {a b : Option ℤ} {floor : ℤ} {p : ℤ → Bool}
    (ha : IsLatest times a) (hb : IsLatest recent b)
    (hRecent : ∀ t, t ∈ recent ↔ t ∈ times ∧ floor ≤ t) (hp : ∀ t, p t = true → floor ≤ t) :
    a.filter p = b.filter p := by
  cases a with
  | none =>
    obtain rfl : b = none := by
      cases b with
      | none => rfl
      | some t =>
        obtain ⟨hMem, _⟩ := (hRecent t).mp hb.1
        rw [show times = ∅ from ha] at hMem
        exact hMem.elim
    rfl
  | some s =>
    by_cases hFloor : floor ≤ s
    · have hMem : s ∈ recent := (hRecent s).mpr ⟨ha.1, hFloor⟩
      cases b with
      | none =>
        rw [show recent = ∅ from hb] at hMem
        exact hMem.elim
      | some t => rw [le_antisymm (hb.2 hMem) (ha.2 ((hRecent t).mp hb.1).1)]
    · obtain rfl : b = none := by
        cases b with
        | none => rfl
        | some t =>
          obtain ⟨hMem, hLe⟩ := (hRecent t).mp hb.1
          exact absurd (hLe.trans (ha.2 hMem)) hFloor
      have hNot : p s = false := Bool.eq_false_iff.mpr fun h => hFloor (hp s h)
      rw [Option.filter_some, hNot]
      rfl

/-- What `check` reads of a gate at one moment. -/
structure AgreeAt (nowMs : ℤ) (g h : RiskGate) : Prop where
  limits : g.limits = h.limits
  inFlight : g.inFlight = h.inFlight
  cooling : ∀ key, ((g.lastAttemptMs.lookup key).filter fun last =>
      ((nowMs - last : ℤ) : ℚ) < g.limits.refireCooldownSeconds * 1000) =
    (h.lastAttemptMs.lookup key).filter fun last =>
      ((nowMs - last : ℤ) : ℚ) < g.limits.refireCooldownSeconds * 1000
  attempts : (g.prune nowMs).attempts.Perm (h.prune nowMs).attempts
  tickers : ∀ ticker, g.positionForTicker ticker nowMs = h.positionForTicker ticker nowMs
  events : ∀ event, g.positionForEvent event nowMs = h.positionForEvent event nowMs
  groups : ∀ group, g.positionForGroup group nowMs = h.positionForGroup group nowMs

theorem bind_refuseIf_filter (latest : Option ℤ) (p : ℤ → Prop) [DecidablePred p]
    (r : ℤ → Rejection) : (latest.bind fun last => refuseIf (p last) (r last)) =
      (latest.filter fun last => p last).map r := by
  cases latest with
  | none => rfl
  | some last => by_cases h : p last <;> simp [refuseIf, Option.filter_some, h]

theorem AgreeAt.check_eq {nowMs : ℤ} {g h : RiskGate} (hAgree : AgreeAt nowMs g h)
    (c : Candidate) : (g.check c nowMs).1 = (h.check c nowMs).1 := by
  have hEarly : g.checkEarly c nowMs = h.checkEarly c nowMs := by
    simp only [RiskGate.checkEarly, bind_refuseIf_filter, hAgree.inFlight]
    rw [hAgree.cooling, hAgree.limits]
  have hAttempts : (g.prune nowMs).checkAttempts c nowMs =
      (h.prune nowMs).checkAttempts c nowMs := by
    have hCount (p : Attempt → Bool) : ((g.prune nowMs).attempts.filter p).length =
        ((h.prune nowMs).attempts.filter p).length := (hAgree.attempts.filter p).length_eq
    simp only [RiskGate.checkAttempts, since, hCount, hAgree.attempts.length_eq,
      RiskGate.prune_limits, hAgree.limits]
    congr!
  have hExposure : (g.prune nowMs).checkExposure c nowMs =
      (h.prune nowMs).checkExposure c nowMs := by
    simp only [RiskGate.checkExposure, RiskGate.positionForTicker_prune _ _ le_rfl,
      RiskGate.positionForEvent_prune _ _ le_rfl, RiskGate.positionForGroup_prune _ _ le_rfl,
      hAgree.tickers, hAgree.events, hAgree.groups, RiskGate.prune_limits, hAgree.limits,
      total_perm _ hAgree.attempts]
    congr!
  unfold RiskGate.check
  rw [hEarly]
  cases h.checkEarly c nowMs with
  | some rejection => rfl
  | none => simp only [hAttempts, hExposure]

theorem insert_latest {known : Dict (String × String) ℤ} {stamps : List ((String × String) × ℤ)}
    (h : ∀ key, IsLatest {s | (key, s) ∈ stamps} (known.lookup key)) {key : String × String} {t : ℤ}
    (ht : ∀ s, (key, s) ∈ stamps → s ≤ t) (other : String × String) :
    IsLatest {s | (other, s) ∈ stamps ++ [(key, t)]} ((known.insert key t).lookup other) := by
  by_cases hKey : other = key
  · subst hKey
    have hTimes : {s | (other, s) ∈ stamps ++ [(other, t)]} = insert t {s | (other, s) ∈ stamps} := by
      ext s
      simp [or_comm]
    rw [AList.lookup_insert, hTimes]
    exact IsLatest.insert ht
  · have hTimes : {s | (other, s) ∈ stamps ++ [(key, t)]} = {s | (other, s) ∈ stamps} := by
      ext s
      simp [hKey]
    rw [AList.lookup_insert_ne hKey, hTimes]
    exact h other

def attemptLog (orders : List Order) : List Attempt := orders.map fun o => o.attempt.entry

def stampLog (orders : List Order) : List ((String × String) × ℤ) :=
  orders.map fun o => (o.key, o.attemptMs)

def fillLog (stampMs : Order → ℤ) (orders : List Order) : List Fill :=
  orders.flatMap (Order.fillsAt stampMs)

structure Knows (groupFor : String → String) (orders : List Order) (clock : ℤ) (g : RiskGate) :
    Prop where
  epoch : ∀ o ∈ orders, 0 ≤ o.attemptMs ∧ o.attemptMs ≤ o.fillMs ∧ o.fillMs ≤ clock
  ordered : (attemptLog orders).Pairwise fun a b => a.requestedAtMs ≤ b.requestedAtMs
  inFlight : g.inFlight = 0
  reconciledAtMs : g.reconciledAtMs = 0
  baseline : BaselineOf ∅ g
  attempts : g.attempts <:+ attemptLog orders
  recent : ∀ floor, clock - dayMs ≤ floor →
    since Attempt.requestedAtMs floor g.attempts = since Attempt.requestedAtMs floor (attemptLog orders)
  latest : ∀ key, IsLatest {t | (key, t) ∈ stampLog orders} (g.lastAttemptMs.lookup key)
  fills : ∀ p : Fill → Bool, (∀ f, f.recordedAtMs < clock - dayMs → p f = false) →
    (g.fills.filter p).Perm ((fillLog Order.fillMs orders).filter p)
  learned : Learned groupFor (fun ticker => ∃ o ∈ orders, o.attempt.ticker = ticker)
    g.correlationGroupByTicker

namespace Knows

variable {groupFor : String → String} {orders : List Order} {clock : ℤ} {g : RiskGate}

theorem start (groupFor : String → String) (limits : RiskLimits) :
    Knows groupFor [] 0 { limits } where
  epoch := nofun
  ordered := .nil
  inFlight := rfl
  reconciledAtMs := rfl
  baseline := ⟨rfl, ⟨groupFor, rfl⟩, rfl⟩
  attempts := List.nil_suffix
  recent _ _ := rfl
  latest _ := by ext; simp [stampLog]
  fills _ _ := .nil
  learned := .of_empty _ (by rintro ticker ⟨o, ho, -⟩; cases ho)

theorem epoch_later (h : Knows groupFor orders clock g) {laterMs : ℤ} (hNow : clock ≤ laterMs) :
    ∀ o ∈ orders, 0 ≤ o.attemptMs ∧ o.attemptMs ≤ o.fillMs ∧ o.fillMs ≤ laterMs := by
  intro o ho
  obtain ⟨hZero, hFill, hClock⟩ := h.epoch o ho
  exact ⟨hZero, hFill, hClock.trans hNow⟩

theorem fills_recordFill (h : Knows groupFor orders clock g) {a : WireAttempt}
    (hMem : ⟨a, none⟩ ∈ orders) (hGroup : a.correlationGroup = groupFor a.ticker) (fillCount : ℚ)
    (nowMs : ℤ) :
    (g.recordFill a.ticker fillCount nowMs).fills =
      g.fills ++ Order.fillsAt Order.fillMs ⟨a, some (fillCount, nowMs)⟩ := by
  have hKnown : g.groupOf a.ticker = a.correlationGroup :=
    (h.learned.groupOf_eq ⟨_, hMem, rfl⟩).trans hGroup.symm
  obtain hPos | hNot := lt_or_ge 0 fillCount
  · rw [g.recordFill_of_pos _ _ hPos, hKnown]
    simp only [Order.fillsAt, dif_pos hPos]
    rfl
  · rw [g.recordFill_of_nonpos _ _ hNot]
    simp only [Order.fillsAt, dif_neg (not_lt.mpr hNot), List.append_nil]

theorem attempt {a : WireAttempt} (h : Knows groupFor orders clock g) (hNow : clock ≤ a.nowMs)
    (hEpoch : 0 ≤ clock) (hGroup : a.correlationGroup = groupFor a.ticker) :
    Knows groupFor (orders ++ [⟨a, none⟩]) a.nowMs ((GateCall.recordAttempt a).apply g) := by
  have hOlder : ∀ o ∈ orders, o.attemptMs ≤ a.nowMs := by
    intro o ho
    obtain ⟨_, hFill, hClock⟩ := h.epoch o ho
    omega
  have hLog : attemptLog (orders ++ [⟨a, none⟩]) = attemptLog orders ++ [a.entry] := List.map_append
  have hStamps : stampLog (orders ++ [⟨a, none⟩]) =
      stampLog orders ++ [((a.ticker, a.direction), a.nowMs)] := List.map_append
  have hFills : fillLog Order.fillMs (orders ++ [⟨a, none⟩]) = fillLog Order.fillMs orders := by
    rw [fillLog, List.flatMap_append]
    exact List.append_nil _
  refine ⟨?_, ?_, h.inFlight, h.reconciledAtMs, h.baseline, ?_, ?_, ?_, ?_, ?_⟩
  · intro o ho
    obtain ho | ho := List.mem_append.mp ho
    · exact h.epoch_later hNow o ho
    · obtain rfl := List.mem_singleton.mp ho
      exact ⟨hEpoch.trans hNow, le_rfl, le_rfl⟩
  · rw [hLog]
    refine List.pairwise_append.mpr ⟨h.ordered, List.pairwise_singleton _ _, ?_⟩
    intro b hb b' hb'
    obtain ⟨o, ho, rfl⟩ := List.mem_map.mp hb
    obtain rfl := List.mem_singleton.mp hb'
    exact hOlder o ho
  · rw [hLog]
    obtain ⟨before, hBefore⟩ := h.attempts
    exact ⟨before, by rw [← hBefore, List.append_assoc]; rfl⟩
  · intro floor hFloor
    rw [hLog, since_append, ← h.recent floor (by omega), ← since_append]
    rfl
  · rw [hStamps]
    apply insert_latest h.latest
    intro s hs
    obtain ⟨o, ho, hEq⟩ := List.mem_map.mp hs
    rw [← (Prod.mk.inj hEq).2]
    exact hOlder o ho
  · intro p hp
    rw [hFills]
    exact h.fills p fun f hf => hp f (by omega)
  · have hLearned := h.learned.learnGroup a.ticker
    rw [← hGroup] at hLearned
    refine hLearned.mono ?_
    rintro ticker ⟨o, ho, rfl⟩
    obtain ho | ho := List.mem_append.mp ho
    · exact .inl ⟨o, ho, rfl⟩
    · obtain rfl := List.mem_singleton.mp ho
      exact .inr rfl

theorem fill {before after : List Order} {a : WireAttempt} {nowMs : ℤ} (fillCount : ℚ)
    (h : Knows groupFor (before ++ ⟨a, none⟩ :: after) clock g) (hNow : clock ≤ nowMs)
    (hGroup : a.correlationGroup = groupFor a.ticker) :
    Knows groupFor (before ++ ⟨a, some (fillCount, nowMs)⟩ :: after) nowMs
      (g.recordFill a.ticker fillCount nowMs) := by
  have hMem : (⟨a, none⟩ : Order) ∈ before ++ ⟨a, none⟩ :: after := by simp
  have hLog : attemptLog (before ++ ⟨a, some (fillCount, nowMs)⟩ :: after) =
      attemptLog (before ++ ⟨a, none⟩ :: after) := by simp [attemptLog]
  have hStamps : stampLog (before ++ ⟨a, some (fillCount, nowMs)⟩ :: after) =
      stampLog (before ++ ⟨a, none⟩ :: after) := by simp [stampLog, Order.key, Order.attemptMs]
  have hKept : ∀ o ∈ before ++ ⟨a, some (fillCount, nowMs)⟩ :: after,
      o ∈ before ++ ⟨a, none⟩ :: after ∨ o = ⟨a, some (fillCount, nowMs)⟩ := by
    intro o ho
    simp only [List.mem_append, List.mem_cons] at ho ⊢
    tauto
  have hFills := h.fills_recordFill hMem hGroup fillCount nowMs
  rw [RiskGate.recordFill_eq, hFills]
  refine ⟨?_, hLog ▸ h.ordered, h.inFlight, h.reconciledAtMs, h.baseline, hLog ▸ h.attempts, ?_,
    hStamps ▸ h.latest, ?_, ?_⟩
  · intro o ho
    obtain ho | rfl := hKept o ho
    · exact h.epoch_later hNow o ho
    · obtain ⟨hZero, hFill, hClock⟩ := h.epoch _ hMem
      exact ⟨hZero, (hFill.trans hClock).trans hNow, le_rfl⟩
  · intro floor hFloor
    rw [hLog]
    exact h.recent floor (by omega)
  · intro p hp
    have hOld := h.fills p fun f hf => hp f (by omega)
    simp only [fillLog, List.flatMap_append, List.flatMap_cons, List.filter_append] at hOld ⊢
    refine (hOld.append_right _).trans ?_
    rw [List.append_assoc]
    refine .append_left _ ?_
    exact List.perm_append_comm
  · refine h.learned.mono ?_
    rintro ticker ⟨o, ho, rfl⟩
    obtain ho | rfl := hKept o ho
    · exact ⟨o, ho, rfl⟩
    · exact ⟨_, hMem, rfl⟩

theorem check (h : Knows groupFor orders clock g) (c : Candidate) {nowMs : ℤ}
    (hNow : clock ≤ nowMs) : Knows groupFor orders nowMs (g.check c nowMs).2 := by
  have hEpoch := h.epoch_later hNow
  obtain hSame | hPruned := g.check_gate c nowMs
  · rw [hSame]
    exact { h with
      epoch := hEpoch
      recent := fun floor hFloor => h.recent floor (by omega)
      fills := fun p hp => h.fills p fun f hf => hp f (by omega) }
  · rw [hPruned]
    refine ⟨hEpoch, h.ordered, h.inFlight, h.reconciledAtMs, h.baseline, ?_, ?_, h.latest, ?_,
      h.learned⟩
    · exact (pruneBefore_suffix _ _ _).trans h.attempts
    · intro floor hFloor
      exact (since_pruneBefore _ hFloor _).trans (h.recent floor (by omega))
    · intro p hp
      have hSeen : (g.prune nowMs).fills.filter p = g.fills.filter p := filter_pruneBefore _ _ p _ hp
      rw [hSeen]
      exact h.fills p fun f hf => hp f (by omega)

end Knows

theorem LiveRun.knows {limits : RiskLimits} {orders : List Order} {clock : ℤ} {g : RiskGate}
    (h : LiveRun limits orders clock g) {groupFor : String → String}
    (hGroups : ∀ o ∈ orders, o.attempt.correlationGroup = groupFor o.attempt.ticker) :
    0 ≤ clock ∧ Knows groupFor orders clock g := by
  induction h with
  | start => exact ⟨le_rfl, .start groupFor limits⟩
  | attempt a _ hNow ih =>
    obtain ⟨hEpoch, hKnows⟩ := ih fun o ho => hGroups o (List.mem_append_left _ ho)
    exact ⟨hEpoch.trans hNow, hKnows.attempt hNow hEpoch (hGroups ⟨a, none⟩ (by simp))⟩
  | @fill before after a _ _ fillCount nowMs _ hNow ih =>
    have hGroup : a.correlationGroup = groupFor a.ticker :=
      hGroups ⟨a, some (fillCount, nowMs)⟩ (by simp)
    obtain ⟨hEpoch, hKnows⟩ := ih fun o ho => by
      obtain ho | ho := List.mem_append.mp ho
      · exact hGroups o (List.mem_append_left _ ho)
      · obtain rfl | ho := List.mem_cons.mp ho
        · exact hGroup
        · exact hGroups o (List.mem_append_right _ (List.mem_cons_of_mem _ ho))
    exact ⟨hEpoch.trans hNow, hKnows.fill fillCount hNow hGroup⟩
  | check c nowMs _ hNow ih =>
    obtain ⟨hEpoch, hKnows⟩ := ih hGroups
    exact ⟨hEpoch.trans hNow, hKnows.check c hNow⟩

theorem LiveRun.limits_eq {limits : RiskLimits} {orders : List Order} {clock : ℤ} {g : RiskGate}
    (h : LiveRun limits orders clock g) : g.limits = limits := by
  induction h with
  | start => rfl
  | attempt _ _ _ ih => exact ih
  | fill _ _ _ _ ih => rw [RiskGate.recordFill_eq]; exact ih
  | @check _ _ g c nowMs _ _ ih => exact (apply_limits g (.check c nowMs)).trans ih

namespace RiskGate.FetchedOrder

def attempt (row : FetchedOrder) : Attempt :=
  ⟨row.requestedAtMs, row.ticker, row.correlationGroup.getD "",
    asFloat row.count * asFloat row.priceDollars⟩

def stamp (row : FetchedOrder) : (String × String) × ℤ :=
  ((row.ticker, row.outcomeSide), row.requestedAtMs)

end RiskGate.FetchedOrder

theorem warmStart_attempts (limits : RiskLimits) (rows : List RiskGate.FetchedOrder) :
    (RiskGate.warmStart limits rows).attempts = rows.map RiskGate.FetchedOrder.attempt := by
  induction rows using List.reverseRecOn with
  | nil => rfl
  | append_singleton rows row ih =>
    rw [warmStart_snoc, List.map_append, ← ih]
    rfl

theorem warmStart_fills (limits : RiskLimits) (rows : List RiskGate.FetchedOrder) :
    (RiskGate.warmStart limits rows).fills = rows.flatMap RiskGate.warmStartFill := by
  induction rows using List.reverseRecOn with
  | nil => rfl
  | append_singleton rows row ih =>
    rw [warmStart_snoc, List.flatMap_append, ← ih, List.flatMap_singleton]
    rfl

theorem warmStart_latest (limits : RiskLimits) {rows : List RiskGate.FetchedOrder}
    (hSorted : rows.Pairwise fun r s => r.requestedAtMs ≤ s.requestedAtMs)
    (hEpoch : ∀ row ∈ rows, 0 ≤ row.requestedAtMs) (key : String × String) :
    IsLatest {t | (key, t) ∈ rows.map RiskGate.FetchedOrder.stamp}
      ((RiskGate.warmStart limits rows).lastAttemptMs.lookup key) := by
  induction rows using List.reverseRecOn generalizing key with
  | nil => ext; simp
  | append_singleton rows row ih =>
    obtain ⟨hBefore, -, hLast⟩ := List.pairwise_append.mp hSorted
    have hRows := ih hBefore fun r hr => hEpoch r (List.mem_append_left _ hr)
    have hOlder : ∀ other t, (other, t) ∈ rows.map RiskGate.FetchedOrder.stamp →
        t ≤ row.requestedAtMs := by
      intro other t ht
      obtain ⟨r, hr, hEq⟩ := List.mem_map.mp ht
      rw [← (Prod.mk.inj hEq).2]
      exact hLast r hr row List.mem_cons_self
    have hMax : max (((RiskGate.warmStart limits rows).lastAttemptMs.lookup
        (row.ticker, row.outcomeSide)).getD 0) row.requestedAtMs = row.requestedAtMs := by
      apply max_eq_right
      have hKey := hRows (row.ticker, row.outcomeSide)
      cases hLookup : (RiskGate.warmStart limits rows).lastAttemptMs.lookup
          (row.ticker, row.outcomeSide) with
      | none => exact hEpoch row (by simp)
      | some before =>
        rw [hLookup] at hKey
        exact hOlder _ _ hKey.1
    rw [warmStart_snoc, RiskGate.warmStartRow, hMax, List.map_append]
    exact insert_latest hRows (hOlder _) key

theorem warmStartFill_eq (row : RiskGate.FetchedOrder) : RiskGate.warmStartFill row =
    if h : 0 < RiskGate.asFloat row.fillCount then
      [⟨row.requestedAtMs, row.ticker, row.correlationGroup.getD "",
        RiskGate.asFloat row.fillCount, h⟩]
    else [] := by
  unfold RiskGate.warmStartFill
  split
  · next hNull => rw [dif_neg]; rw [hNull]; exact lt_irrefl 0
  · rfl

namespace StoredOrder.Records

variable {row : StoredOrder} {o : Order}

theorem group (h : row.Records o) :
    row.correlationGroup.getD "" = o.attempt.correlationGroup := by
  rw [h.correlationGroup]
  split
  · next hEmpty => exact hEmpty.symm
  · rfl

theorem attempt (h : row.Records o) : row.toFetchedOrder.attempt = o.attempt.entry := by
  rw [RiskGate.FetchedOrder.attempt, h.group, h.requestedAtMs, h.ticker, h.count, h.priceDollars]
  rfl

theorem stamp (h : row.Records o) : row.toFetchedOrder.stamp = (o.key, o.attemptMs) := by
  rw [RiskGate.FetchedOrder.stamp, h.ticker, h.outcomeSide, h.requestedAtMs]
  rfl

theorem fill (h : row.Records o) :
    RiskGate.warmStartFill row.toFetchedOrder = o.fillsAt Order.attemptMs := by
  have hFill := h.fillCount
  cases hCount : o.fill with
  | none =>
    rw [hCount] at hFill
    simp only [RiskGate.warmStartFill, hFill, Order.fillsAt, hCount]
  | some counted =>
    obtain ⟨fillCount, fillMs⟩ := counted
    rw [hCount] at hFill
    simp only [warmStartFill_eq, Order.fillsAt, hCount, hFill, h.group, h.ticker, h.requestedAtMs]
    rfl

end StoredOrder.Records

theorem map_eq_of_records {α : Type} {f : StoredOrder → α} {g : Order → α}
    (hfg : ∀ row o, row.Records o → f row = g o) {sent : List StoredOrder} {orders : List Order}
    (h : List.Forall₂ StoredOrder.Records sent orders) : sent.map f = orders.map g := by
  induction h with
  | nil => rfl
  | cons hHead _ ih => rw [List.map_cons, List.map_cons, hfg _ _ hHead, ih]

theorem since_fillsAt (stampMs : Order → ℤ) (floor : ℤ) (o : Order) :
    since Fill.recordedAtMs floor (o.fillsAt stampMs) =
      if floor ≤ stampMs o then o.fillsAt stampMs else [] := by
  unfold Order.fillsAt
  split
  · simp [since]
  · split
    · rw [since, List.filter_singleton, Bool.cond_decide]
    · simp [since]

theorem fills_of_records {floor : ℤ} {sent : List StoredOrder} {orders : List Order}
    (h : List.Forall₂ StoredOrder.Records sent orders) :
    (sent.filter fun row => floor ≤ row.requestedAtMs).flatMap
        (fun row => RiskGate.warmStartFill row.toFetchedOrder) =
      since Fill.recordedAtMs floor (fillLog Order.attemptMs orders) := by
  induction h with
  | nil => rfl
  | @cons row o sent orders hHead _ ih =>
    have hTime : row.requestedAtMs = o.attemptMs := hHead.requestedAtMs
    rw [fillLog, List.flatMap_cons, since_append, since_fillsAt, List.filter_cons, hTime]
    by_cases hRecent : floor ≤ o.attemptMs
    · rw [if_pos hRecent, if_pos (by simpa using hRecent), List.flatMap_cons, hHead.fill, ih]
      rfl
    · rw [if_neg hRecent, if_neg (by simpa using hRecent), List.nil_append, ih]
      rfl

theorem total_filter_fillLog {on : Fill → Bool} {floor : ℤ} {orders : List Order}
    (hOn : ∀ s t ticker group count pos,
      on ⟨s, ticker, group, count, pos⟩ = on ⟨t, ticker, group, count, pos⟩)
    (hSide : ∀ o ∈ orders, floor ≤ o.attemptMs ↔ floor ≤ o.fillMs) :
    total Fill.fillCount ((fillLog Order.attemptMs orders).filter fun f =>
        on f ∧ floor ≤ f.recordedAtMs) =
      total Fill.fillCount ((fillLog Order.fillMs orders).filter fun f =>
        on f ∧ floor ≤ f.recordedAtMs) := by
  induction orders with
  | nil => rfl
  | cons o orders ih =>
    obtain ⟨hHead, hTail⟩ := List.forall_mem_cons.mp hSide
    simp only [fillLog, List.flatMap_cons, List.filter_append, total_append] at ih ⊢
    rw [ih hTail]
    congr 1
    unfold Order.fillsAt
    split
    · rfl
    · split
      · simp only [List.filter_singleton, Bool.cond_decide, hOn o.attemptMs o.fillMs, hHead]
        split <;> simp
      · rfl

/-- What the rows of the query hold, in terms of the orders behind them. -/
structure Restores (floor : ℤ) (orders : List Order) (rows : List RiskGate.FetchedOrder) : Prop where
  sorted : rows.Pairwise fun r s => r.requestedAtMs ≤ s.requestedAtMs
  attempts : (rows.map RiskGate.FetchedOrder.attempt).Perm
    (since Attempt.requestedAtMs floor (attemptLog orders))
  stamps : ∀ key t, (key, t) ∈ rows.map RiskGate.FetchedOrder.stamp ↔
    (key, t) ∈ stampLog orders ∧ floor ≤ t
  fills : (rows.flatMap RiskGate.warmStartFill).Perm
    (since Fill.recordedAtMs floor (fillLog Order.attemptMs orders))

theorem restores_of_selects {orders : List Order} {table : List StoredOrder} {nowMs : ℤ}
    {rows : List RiskGate.FetchedOrder} (hTable : RecordedIn orders table)
    (hRows : Selects table nowMs rows) : Restores (nowMs - dayMs) orders rows := by
  obtain ⟨sent, hSent, hRecords⟩ := hTable
  obtain ⟨hSorted, hPerm⟩ := hRows
  have hPicked : rows.Perm ((sent.filter fun row => nowMs - dayMs ≤ row.requestedAtMs).map
      StoredOrder.toFetchedOrder) := by
    refine hPerm.trans (.map _ ?_)
    have hBoth := (hSent.filter fun row => decide (nowMs - dayMs ≤ row.requestedAtMs)).symm
    rw [List.filter_filter] at hBoth
    simpa only [Bool.decide_and] using hBoth
  refine ⟨hSorted, ?_, ?_, ?_⟩
  · have hLog : sent.map (fun row => row.toFetchedOrder.attempt) = attemptLog orders :=
      map_eq_of_records (fun _ _ h => h.attempt) hRecords
    refine (hPicked.map _).trans (.of_eq ?_)
    rw [← hLog, since, List.filter_map, List.map_map]
    rfl
  · intro key t
    have hLog : sent.map (fun row => row.toFetchedOrder.stamp) = stampLog orders :=
      map_eq_of_records (fun _ _ h => h.stamp) hRecords
    rw [(hPicked.map _).mem_iff, ← hLog, List.map_map]
    simp only [List.mem_map, List.mem_filter, decide_eq_true_eq, Function.comp]
    constructor
    · rintro ⟨row, ⟨hRow, hRecent⟩, hStamp⟩
      exact ⟨⟨row, hRow, hStamp⟩, (Prod.mk.inj hStamp).2 ▸ hRecent⟩
    · rintro ⟨⟨row, hRow, hStamp⟩, hRecent⟩
      exact ⟨row, ⟨hRow, (Prod.mk.inj hStamp).2.symm ▸ hRecent⟩, hStamp⟩
  · refine (hPicked.flatMap_right _).trans (.of_eq ?_)
    rw [List.flatMap_map]
    exact fills_of_records hRecords

theorem BaselineOf.lookups {g : RiskGate} (h : BaselineOf ∅ g) :
    g.reconciledPositionByTicker = ∅ ∧ g.reconciledPositionByGroup = ∅ ∧
      g.reconciledPositionByEvent = ∅ := by
  obtain ⟨hTicker, ⟨known, hGroup⟩, hEvent⟩ := h
  exact ⟨hTicker, hGroup, hEvent⟩

section Restored

variable {limits : RiskLimits} {groupFor : String → String} {orders : List Order}
  {clock nowMs laterMs : ℤ} {live : RiskGate} {rows : List RiskGate.FetchedOrder}

theorem warmStart_unconfirmed (hKnows : Knows groupFor orders clock live)
    (hRows : Restores (nowMs - dayMs) orders rows) (hNow : clock ≤ nowMs) (hLater : nowMs ≤ laterMs)
    (hSide : ∀ o ∈ orders, laterMs - dayMs ≤ o.attemptMs ↔ laterMs - dayMs ≤ o.fillMs)
    {on : Fill → Bool} (hOn : ∀ s t ticker group count pos,
      on ⟨s, ticker, group, count, pos⟩ = on ⟨t, ticker, group, count, pos⟩) :
    (RiskGate.warmStart limits rows).unconfirmed on laterMs = live.unconfirmed on laterMs := by
  obtain ⟨-, -, hWarmAt, -⟩ := warmStart_fresh limits rows
  have hSeen : ∀ f : Fill, decide (on f ∧ max 0 (laterMs - dayMs) ≤ f.recordedAtMs) = true →
      nowMs - dayMs ≤ f.recordedAtMs := by
    intro f hf
    have := (of_decide_eq_true hf).2
    omega
  rw [RiskGate.unconfirmed, RiskGate.unconfirmed, hWarmAt, hKnows.reconciledAtMs, warmStart_fills]
  calc total Fill.fillCount ((rows.flatMap RiskGate.warmStartFill).filter fun f =>
        on f ∧ max 0 (laterMs - dayMs) ≤ f.recordedAtMs)
      = total Fill.fillCount ((fillLog Order.attemptMs orders).filter fun f =>
          on f ∧ max 0 (laterMs - dayMs) ≤ f.recordedAtMs) := by
        rw [total_perm _ (hRows.fills.filter _), filter_since _ hSeen]
    _ = total Fill.fillCount ((fillLog Order.fillMs orders).filter fun f =>
          on f ∧ max 0 (laterMs - dayMs) ≤ f.recordedAtMs) := by
        apply total_filter_fillLog hOn
        intro o ho
        obtain ⟨hZero, hFill, -⟩ := hKnows.epoch o ho
        have := hSide o ho
        omega
    _ = total Fill.fillCount (live.fills.filter fun f =>
          on f ∧ max 0 (laterMs - dayMs) ≤ f.recordedAtMs) := by
        refine (total_perm _ (hKnows.fills _ ?_)).symm
        intro f hf
        refine decide_eq_false ?_
        omega

/-- A cooldown of at most a day looks no further back than the query of the warm start. -/
theorem warmStart_cooling (hKnows : Knows groupFor orders clock live)
    (hRows : Restores (nowMs - dayMs) orders rows)
    (hCooldown : limits.refireCooldownSeconds ≤ 86400) (hLater : nowMs ≤ laterMs)
    (key : String × String) :
    (((RiskGate.warmStart limits rows).lastAttemptMs.lookup key).filter fun last =>
        ((laterMs - last : ℤ) : ℚ) < limits.refireCooldownSeconds * 1000) =
      (live.lastAttemptMs.lookup key).filter fun last =>
        ((laterMs - last : ℤ) : ℚ) < limits.refireCooldownSeconds * 1000 := by
  have hEpoch : ∀ row ∈ rows, 0 ≤ row.requestedAtMs := by
    intro row hRow
    obtain ⟨hStamp, -⟩ := (hRows.stamps _ _).mp (List.mem_map_of_mem hRow)
    obtain ⟨o, ho, hEq⟩ := List.mem_map.mp hStamp
    rw [← (Prod.mk.inj hEq).2]
    exact (hKnows.epoch o ho).1
  symm
  refine (hKnows.latest key).filter_eq (warmStart_latest limits hRows.sorted hEpoch key)
    (hRows.stamps key) ?_
  intro t ht
  have hRecent : ((laterMs - t : ℤ) : ℚ) < ((86400000 : ℤ) : ℚ) := by
    push_cast
    have := of_decide_eq_true ht
    push_cast at this
    linarith
  have := Int.cast_lt.mp hRecent
  simp only [dayMs]
  omega

theorem warmStart_recent (hKnows : Knows groupFor orders clock live)
    (hRows : Restores (nowMs - dayMs) orders rows) (hNow : clock ≤ nowMs) (hLater : nowMs ≤ laterMs) :
    ((RiskGate.warmStart limits rows).prune laterMs).attempts.Perm (live.prune laterMs).attempts := by
  have hLive : (live.prune laterMs).attempts =
      since Attempt.requestedAtMs (laterMs - dayMs) (attemptLog orders) := by
    rw [← hKnows.recent _ (by omega)]
    exact pruneBefore_eq_since _ (hKnows.ordered.sublist hKnows.attempts.sublist)
  have hWarm : ((RiskGate.warmStart limits rows).prune laterMs).attempts =
      since Attempt.requestedAtMs (laterMs - dayMs) (rows.map RiskGate.FetchedOrder.attempt) := by
    rw [← warmStart_attempts limits]
    apply pruneBefore_eq_since
    rw [warmStart_attempts]
    exact List.pairwise_map.mpr hRows.sorted
  rw [hLive, hWarm]
  refine (hRows.attempts.filter _).trans (.of_eq ?_)
  apply filter_since
  intro a ha
  have := of_decide_eq_true ha
  omega

theorem warmStart_agreeAt (hKnows : Knows groupFor orders clock live) (hLimits : live.limits = limits)
    (hRows : Restores (nowMs - dayMs) orders rows)
    (hCooldown : limits.refireCooldownSeconds ≤ 86400) (hNow : clock ≤ nowMs)
    (hLater : nowMs ≤ laterMs)
    (hSide : ∀ o ∈ orders, laterMs - dayMs ≤ o.attemptMs ↔ laterMs - dayMs ≤ o.fillMs) :
    AgreeAt laterMs (RiskGate.warmStart limits rows) live := by
  obtain ⟨hWarmLimits, hWarmSlots, -, hWarmBaseline⟩ := warmStart_fresh limits rows
  obtain ⟨hWarmTicker, hWarmGroup, hWarmEvent⟩ := hWarmBaseline.lookups
  obtain ⟨hTicker, hGroup, hEvent⟩ := hKnows.baseline.lookups
  constructor
  case limits => exact hWarmLimits.trans hLimits.symm
  case inFlight => exact hWarmSlots.trans hKnows.inFlight.symm
  case cooling =>
    intro key
    rw [hWarmLimits]
    exact warmStart_cooling hKnows hRows hCooldown hLater key
  case attempts => exact warmStart_recent hKnows hRows hNow hLater
  case tickers =>
    intro ticker
    rw [RiskGate.positionForTicker, RiskGate.positionForTicker, hWarmTicker, hTicker,
      warmStart_unconfirmed hKnows hRows hNow hLater hSide fun _ _ _ _ _ _ => rfl]
  case events =>
    intro event
    rw [RiskGate.positionForEvent, RiskGate.positionForEvent, hWarmEvent, hEvent,
      warmStart_unconfirmed hKnows hRows hNow hLater hSide fun _ _ _ _ _ _ => rfl]
  case groups =>
    intro group
    rw [RiskGate.positionForGroup, RiskGate.positionForGroup, hWarmGroup, hGroup,
      warmStart_unconfirmed hKnows hRows hNow hLater hSide fun _ _ _ _ _ _ => rfl]

end Restored

/-- Whatever the warm start's query made of ties and of rejected rows, every later
candidate meets the verdict that the gate which never restarted gives. -/
theorem warmStart_check_eq {limits : RiskLimits} {orders : List Order} {clock nowMs laterMs : ℤ}
    {live warm : RiskGate} {table : List StoredOrder} (groupFor : String → String)
    (hLive : LiveRun limits orders clock live) (hTable : RecordedIn orders table)
    (hWarm : WarmStarts limits table nowMs warm)
    (hCooldown : limits.refireCooldownSeconds ≤ 86400)
    (hGroups : ∀ o ∈ orders, o.attempt.correlationGroup = groupFor o.attempt.ticker)
    (hNow : clock ≤ nowMs) (hLater : nowMs ≤ laterMs)
    (hSide : ∀ o ∈ orders, laterMs - dayMs ≤ o.attemptMs ↔ laterMs - dayMs ≤ o.fillMs)
    (c : Candidate) : (warm.check c laterMs).1 = (live.check c laterMs).1 := by
  obtain ⟨rows, hRows, rfl⟩ := hWarm
  obtain ⟨-, hKnows⟩ := hLive.knows hGroups
  have hRestores := restores_of_selects hTable hRows
  exact (warmStart_agreeAt hKnows hLive.limits_eq hRestores hCooldown hNow hLater hSide).check_eq c

def firstAttempt : WireAttempt := ⟨"KX-A-1", "yes", 5, 1 / 2, 1000, ""⟩

def firstRow (status : String) : StoredOrder :=
  { ticker := "KX-A-1", correlationGroup := none, outcomeSide := "yes", count := .str "5.00",
    priceDollars := .str "0.5000", fillCount := .str "2.00", requestedAtMs := 1000, status }

/-- A restart between a partial fill and the next candidate, with a rejected row beside. -/
theorem warmStart_check_eq_after_fill :
    ((RiskGate.warmStart { allowedExchangeIndexes := {0} }
        [(firstRow "executed").toFetchedOrder]).check ⟨"KX-A-2", "yes", 0, 4, 1 / 2, ""⟩ 70000).1 =
      ((((GateCall.recordAttempt firstAttempt).apply
        { limits := { allowedExchangeIndexes := {0} } }).recordFill "KX-A-1" 2 2000).check
          ⟨"KX-A-2", "yes", 0, 4, 1 / 2, ""⟩ 70000).1 := by
  have hSent : LiveRun { allowedExchangeIndexes := {0} } ([] ++ [⟨firstAttempt, none⟩]) 1000
      ((GateCall.recordAttempt firstAttempt).apply { limits := { allowedExchangeIndexes := {0} } }) :=
    .attempt firstAttempt .start (by decide)
  have hFilled : LiveRun { allowedExchangeIndexes := {0} }
      ([] ++ [⟨firstAttempt, some (2, 2000)⟩]) 2000 _ := .fill 2 2000 hSent (by decide)
  have hTable : RecordedIn ([] ++ [⟨firstAttempt, some (2, 2000)⟩])
      [firstRow "executed", firstRow "rejected"] := by
    refine ⟨[firstRow "executed"], .of_eq rfl, .cons ?_ .nil⟩
    constructor <;> first | rfl | decide +kernel
  have hWarm : WarmStarts { allowedExchangeIndexes := {0} }
      [firstRow "executed", firstRow "rejected"] 3000 _ :=
    ⟨_, ⟨List.pairwise_singleton _ (firstRow "executed").toFetchedOrder, .of_eq rfl⟩, rfl⟩
  refine warmStart_check_eq (fun _ => "") hFilled hTable hWarm ?_ ?_ (by decide) (by decide) ?_ _
  · decide +kernel
  · decide
  · decide

end KalshiBot.Risk

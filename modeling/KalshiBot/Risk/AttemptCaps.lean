import KalshiBot.Risk.Calls

/-! # The rolling attempt caps hold in every run

The gate keeps its attempts in one deque that some checks prune and others do not.
`Tracks` says what survives: the deque and the full history agree on every window
no older than a day before the last clock reading.
-/

namespace KalshiBot.Risk

open RollingWindow

set_option autoImplicit false

/-- Every recorded attempt follows directly on a check of the same order that let
it pass, as in the executor; the record may carry a later clock reading. -/
def Vetted (start : RiskGate) (calls : List GateCall) : Prop :=
  ∀ before a after, calls = before ++ .recordAttempt a :: after →
    ∃ earlier c nowMs, before = earlier ++ [.check c nowMs] ∧ a.Matches c ∧
      ((runCalls start earlier).check c nowMs).1 = none

theorem Vetted.before {start : RiskGate} {calls : List GateCall} {call : GateCall}
    (h : Vetted start (calls ++ [call])) : Vetted start calls := by
  intro before a after hCalls
  exact h before a (after ++ [call]) (by rw [hCalls]; simp)

theorem vetted_nil (start : RiskGate) : Vetted start [] := by
  intro before a after hCalls
  simp at hCalls

theorem Vetted.snoc {start : RiskGate} {calls : List GateCall} (h : Vetted start calls)
    (call : GateCall) (hCall : ∀ a, call = .recordAttempt a →
      ∃ earlier c nowMs, calls = earlier ++ [.check c nowMs] ∧ a.Matches c ∧
        ((runCalls start earlier).check c nowMs).1 = none) : Vetted start (calls ++ [call]) := by
  intro before a after hCalls
  rcases List.eq_nil_or_concat after with rfl | ⟨after, last, rfl⟩
  · obtain ⟨rfl, hLast⟩ := List.append_inj' hCalls rfl
    exact hCall a (List.cons.inj hLast).1
  · rw [List.concat_eq_append, ← List.cons_append, ← List.append_assoc] at hCalls
    exact h before a after (List.append_inj' hCalls rfl).1

structure AttemptCaps (limits : RiskLimits) (attempts : List WireAttempt) : Prop where
  perDay : WithinCap WireAttempt.nowMs (fun _ => (1 : ℤ)) dayMs limits.maxAttemptsPerDay attempts
  perTicker : ∀ ticker, WithinCap WireAttempt.nowMs (fun _ => (1 : ℤ)) dayMs
    limits.maxAttemptsPerTickerPerDay (attempts.filter fun a => a.ticker = ticker)
  perEvent : ∀ event, WithinCap WireAttempt.nowMs (fun _ => (1 : ℤ)) dayMs
    limits.maxAttemptsPerEventPerDay (attempts.filter fun a => eventTickerOf a.ticker = event)
  perGroup : ∀ group, group ≠ "" → WithinCap WireAttempt.nowMs (fun _ => (1 : ℤ)) dayMs
    limits.maxAttemptsPerCorrelationGroupPerDay
      (attempts.filter fun a => a.correlationGroup = group)
  notional : WithinCap WireAttempt.nowMs WireAttempt.notional dayMs
    limits.maxNotionalPerDayDollars attempts
  perHour : WithinCap WireAttempt.nowMs (fun _ => (1 : ℤ)) hourMs limits.maxAttemptsPerHour attempts
  cooldown : attempts.Pairwise fun a b => a.ticker = b.ticker → a.direction = b.direction →
    limits.refireCooldownSeconds * 1000 ≤ ((b.nowMs - a.nowMs : ℤ) : ℚ)

structure Tracks (g : RiskGate) (calls : List GateCall) : Prop where
  windows : ∀ lo, (∀ t ∈ timesOf calls, t - dayMs ≤ lo) →
    since Attempt.requestedAtMs lo g.attempts =
      since Attempt.requestedAtMs lo ((attemptsOf calls).map WireAttempt.entry)
  recorded : ∀ x ∈ g.attempts, ∃ a ∈ attemptsOf calls, a.entry = x
  last : ∀ a ∈ attemptsOf calls, ∃ last,
    g.lastAttemptMs.lookup (a.ticker, a.direction) = some last ∧ a.nowMs ≤ last

theorem tracks_init (limits : RiskLimits) : Tracks { limits } [] where
  windows _ _ := rfl
  recorded x hx := by cases hx
  last a ha := by cases ha

theorem times_before {calls : List GateCall} {call : GateCall} {lo : ℤ}
    (h : ∀ t ∈ timesOf (calls ++ [call]), t - dayMs ≤ lo) : ∀ t ∈ timesOf calls, t - dayMs ≤ lo := by
  intro t ht
  exact h t (by rw [timesOf_snoc]; exact List.mem_append_left _ ht)

theorem Tracks.attempt {g g' : RiskGate} {calls : List GateCall} {a : WireAttempt}
    (h : Tracks g calls) (hOrder : InOrder (calls ++ [.recordAttempt a]))
    (hAttempts : g'.attempts = g.attempts ++ [a.entry])
    (hLast : g'.lastAttemptMs = g.lastAttemptMs.insert (a.ticker, a.direction) a.nowMs) :
    Tracks g' (calls ++ [.recordAttempt a]) := by
  have hSnoc : attemptsOf (calls ++ [.recordAttempt a]) = attemptsOf calls ++ [a] :=
    attemptsOf_snoc _ _
  constructor
  case windows =>
    intro lo hlo
    rw [hAttempts, hSnoc, List.map_append, since, since, List.filter_append, List.filter_append]
    exact congrArg (· ++ _) (h.windows lo (times_before hlo))
  case recorded =>
    intro x hx
    rw [hAttempts] at hx
    rw [hSnoc]
    rcases List.mem_append.mp hx with hx | hx
    · obtain ⟨b, hb, rfl⟩ := h.recorded x hx
      exact ⟨b, List.mem_append_left _ hb, rfl⟩
    · exact ⟨a, List.mem_append_right _ List.mem_cons_self, (List.mem_singleton.mp hx).symm⟩
  case last =>
    intro b hb
    rw [hSnoc] at hb
    rw [hLast]
    by_cases hKey : (b.ticker, b.direction) = (a.ticker, a.direction)
    · refine ⟨a.nowMs, by rw [hKey, AList.lookup_insert], ?_⟩
      rcases List.mem_append.mp hb with hb | hb
      · exact hOrder.le_last rfl (time_of_attempt hb)
      · rw [List.mem_singleton.mp hb]
    · rcases List.mem_append.mp hb with hb | hb
      · obtain ⟨last, hLookup, hle⟩ := h.last b hb
        exact ⟨last, by rw [AList.lookup_insert_ne hKey, hLookup], hle⟩
      · exact absurd (by rw [List.mem_singleton.mp hb]) hKey

/-- Any other call leaves the deque as it is, or prunes it at its own clock reading. -/
theorem Tracks.other {g g' : RiskGate} {calls : List GateCall} {call : GateCall}
    (h : Tracks g calls) (hSame : attemptsOf (calls ++ [call]) = attemptsOf calls)
    (hLast : g'.lastAttemptMs = g.lastAttemptMs)
    (hAttempts : g'.attempts = g.attempts ∨ ∃ nowMs ∈ timesOf (calls ++ [call]),
      g'.attempts = pruneBefore Attempt.requestedAtMs (nowMs - dayMs) g.attempts) :
    Tracks g' (calls ++ [call]) := by
  constructor
  case windows =>
    intro lo hlo
    rw [hSame, ← h.windows lo (times_before hlo)]
    rcases hAttempts with hAttempts | ⟨nowMs, hNow, hAttempts⟩
    · rw [hAttempts]
    · rw [hAttempts]
      exact since_pruneBefore _ (hlo nowMs hNow) _
  case recorded =>
    intro x hx
    rw [hSame]
    rcases hAttempts with hAttempts | ⟨nowMs, -, hAttempts⟩
    · exact h.recorded x (hAttempts ▸ hx)
    · exact h.recorded x ((pruneBefore_suffix _ _ _).subset (hAttempts ▸ hx))
  case last =>
    rw [hSame, hLast]
    exact h.last

theorem Tracks.step {g : RiskGate} {calls : List GateCall} {call : GateCall}
    (h : Tracks g calls) (hOrder : InOrder (calls ++ [call])) :
    Tracks (call.apply g) (calls ++ [call]) := by
  rcases apply_attempts g call with ⟨a, rfl, hAttempts, hLast⟩ | ⟨hNone, hLast, hAttempts⟩
  · exact h.attempt hOrder hAttempts hLast
  · have hSame : attemptsOf (calls ++ [call]) = attemptsOf calls := by
      rw [attemptsOf_snoc, hNone]
      exact List.append_nil _
    refine h.other hSame hLast (hAttempts.imp_right ?_)
    rintro ⟨nowMs, hNow, hPruned⟩
    exact ⟨nowMs, by rw [timesOf_snoc, hNow]; simp, hPruned⟩

theorem tracks_run (limits : RiskLimits) {calls : List GateCall} (h : InOrder calls) :
    Tracks (runCalls { limits } calls) calls := by
  induction calls using List.reverseRecOn with
  | nil => exact tracks_init limits
  | append_singleton calls call ih =>
    rw [runCalls_snoc]
    exact (ih h.before).step h

theorem since_entry (lo : ℤ) (attempts : List WireAttempt) :
    since Attempt.requestedAtMs lo (attempts.map WireAttempt.entry) =
      (since WireAttempt.nowMs lo attempts).map WireAttempt.entry := by
  rw [since, since, List.filter_map]
  rfl

/-- The window of the history that ends at a check weighs no more than the same
part of the pruned deque. -/
theorem Tracks.window_le {R : Type} [AddCommMonoid R] [PartialOrder R] [IsOrderedAddMonoid R]
    {g : RiskGate} {calls : List GateCall} {nowMs : ℤ} (h : Tracks g calls)
    (hNow : ∀ t ∈ timesOf calls, t ≤ nowMs) (weight : Attempt → R) (p : Attempt → Bool)
    (hw : ∀ a ∈ attemptsOf calls, 0 ≤ weight a.entry) :
    total (fun a => weight a.entry) (since WireAttempt.nowMs (nowMs - dayMs)
        ((attemptsOf calls).filter fun a => p a.entry)) ≤
      total weight ((g.prune nowMs).attempts.filter p) := by
  have hWindow : since Attempt.requestedAtMs (nowMs - dayMs) (g.prune nowMs).attempts =
      (since WireAttempt.nowMs (nowMs - dayMs) (attemptsOf calls)).map WireAttempt.entry := by
    rw [← since_entry, ← h.windows _ fun t ht => by have := hNow t ht; omega]
    exact since_pruneBefore _ le_rfl _
  have hPruned : ∀ x ∈ (g.prune nowMs).attempts, 0 ≤ weight x := by
    intro x hx
    obtain ⟨a, ha, rfl⟩ := h.recorded x ((pruneBefore_suffix _ _ _).subset hx)
    exact hw a ha
  calc total (fun a => weight a.entry) (since WireAttempt.nowMs (nowMs - dayMs)
          ((attemptsOf calls).filter fun a => p a.entry))
      = total weight (((since WireAttempt.nowMs (nowMs - dayMs) (attemptsOf calls)).map
          WireAttempt.entry).filter p) := by
        rw [List.filter_map, total, total, List.map_map, since, since, List.filter_comm]
        rfl
    _ = total weight
          ((since Attempt.requestedAtMs (nowMs - dayMs) (g.prune nowMs).attempts).filter p) := by
        rw [hWindow]
    _ ≤ total weight ((g.prune nowMs).attempts.filter p) := by
        rw [since, List.filter_filter]
        apply total_filter_le weight hPruned
        intro x _ hx
        exact (Bool.and_eq_true_iff.mp hx).1

theorem Tracks.room {g : RiskGate} {calls : List GateCall} {nowMs cap : ℤ} (h : Tracks g calls)
    (hNow : ∀ t ∈ timesOf calls, t ≤ nowMs) (p : Attempt → Bool)
    (hRoom : (((g.prune nowMs).attempts.filter p).length : ℤ) < cap) :
    total (fun _ => (1 : ℤ)) (since WireAttempt.nowMs (nowMs - dayMs)
      ((attemptsOf calls).filter fun a => p a.entry)) + 1 ≤ cap := by
  have hLe := h.window_le hNow (fun _ => (1 : ℤ)) p fun _ _ => zero_le_one
  rw [total_one (List.filter p _)] at hLe
  omega

theorem Tracks.hour_room {g : RiskGate} {calls : List GateCall} {nowMs cap : ℤ} (h : Tracks g calls)
    (hNow : ∀ t ∈ timesOf calls, t ≤ nowMs)
    (hRoom : ((since Attempt.requestedAtMs (nowMs - hourMs)
      (g.prune nowMs).attempts).length : ℤ) < cap) :
    total (fun _ => (1 : ℤ)) (since WireAttempt.nowMs (nowMs - hourMs) (attemptsOf calls)) + 1 ≤
      cap := by
  have hWindow : (since Attempt.requestedAtMs (nowMs - hourMs) (g.prune nowMs).attempts).length =
      (since WireAttempt.nowMs (nowMs - hourMs) (attemptsOf calls)).length := by
    have hPrune : since Attempt.requestedAtMs (nowMs - hourMs) (g.prune nowMs).attempts =
        since Attempt.requestedAtMs (nowMs - hourMs) g.attempts :=
      since_pruneBefore _ (by unfold hourMs dayMs; omega) _
    have hSince := h.windows (nowMs - hourMs) fun t ht => by
      have := hNow t ht
      unfold hourMs dayMs
      omega
    rw [hPrune, hSince, since_entry, List.length_map]
  rw [total_one]
  omega

theorem Tracks.notional_room {g : RiskGate} {calls : List GateCall} {nowMs : ℤ} {own cap : ℚ}
    (h : Tracks g calls) (hNow : ∀ t ∈ timesOf calls, t ≤ nowMs)
    (hNotional : ∀ b ∈ attemptsOf calls, 0 ≤ b.notional)
    (hRoom : total Attempt.notionalDollars (g.prune nowMs).attempts + own ≤ cap) :
    total WireAttempt.notional (since WireAttempt.nowMs (nowMs - dayMs) (attemptsOf calls)) + own ≤
      cap := by
  have hLe := h.window_le hNow Attempt.notionalDollars (fun _ => true) hNotional
  simp only [List.filter_true] at hLe
  exact (add_le_add_left hLe _).trans hRoom

/-- The gate remembers the last attempt of each ticker and direction. -/
theorem Tracks.cooled {g : RiskGate} {calls : List GateCall} {c : Candidate} {nowMs : ℤ}
    {earlier : WireAttempt} (h : Tracks g calls) (hAdmits : g.Admits c nowMs)
    (hMem : earlier ∈ attemptsOf calls) (hTicker : earlier.ticker = c.ticker)
    (hDirection : earlier.direction = c.direction) :
    g.limits.refireCooldownSeconds * 1000 ≤ ((nowMs - earlier.nowMs : ℤ) : ℚ) := by
  obtain ⟨last, hLookup, hLast⟩ := h.last earlier hMem
  rw [hTicker, hDirection] at hLookup
  refine (hAdmits.cooled last hLookup).trans ?_
  exact_mod_cast sub_le_sub_left hLast nowMs

/-- One admitted attempt: each cap had room at the check, and the record comes no
earlier than the check. -/
theorem AttemptCaps.record {g : RiskGate} {calls : List GateCall} {c : Candidate} {nowMs : ℤ}
    {a : WireAttempt} (h : AttemptCaps g.limits (attemptsOf calls)) (hTracks : Tracks g calls)
    (hAdmits : g.Admits c nowMs) (hMatches : a.Matches c)
    (hNow : ∀ t ∈ timesOf calls, t ≤ nowMs) (hLater : nowMs ≤ a.nowMs)
    (hNotional : ∀ b ∈ attemptsOf calls ++ [a], 0 ≤ b.notional) :
    AttemptCaps g.limits (attemptsOf calls ++ [a]) := by
  obtain ⟨hTicker, hDirection, hCount, hPrice, hGroup⟩ := hMatches
  have hTimes : ∀ b ∈ attemptsOf calls, b.nowMs ≤ a.nowMs := fun b hb =>
    (hNow _ (time_of_attempt hb)).trans hLater
  have hOne : ∀ b ∈ attemptsOf calls ++ [a], (0 : ℤ) ≤ 1 := fun _ _ => zero_le_one
  refine ⟨?_, ?_, ?_, ?_, ?_, ?_, ?_⟩
  · apply h.perDay.append _ _ hOne hTimes hLater
    simpa using hTracks.room hNow (fun _ => true) (by simpa using hAdmits.perDay)
  · intro ticker
    apply (h.perTicker ticker).append_filter _ _ _ hOne hTimes hLater
    intro hp
    have hSame : ticker = c.ticker := (of_decide_eq_true hp).symm.trans hTicker
    rw [hSame]
    exact hTracks.room hNow (fun x => x.ticker = c.ticker) hAdmits.perTicker
  · intro event
    apply (h.perEvent event).append_filter _ _ _ hOne hTimes hLater
    intro hp
    have hSame : event = eventTickerOf c.ticker :=
      (of_decide_eq_true hp).symm.trans (congrArg eventTickerOf hTicker)
    rw [hSame]
    exact hTracks.room hNow (fun x => eventTickerOf x.ticker = eventTickerOf c.ticker)
      hAdmits.perEvent
  · intro group hKnown
    apply (h.perGroup group hKnown).append_filter _ _ _ hOne hTimes hLater
    intro hp
    have hSame : group = c.correlationGroup := (of_decide_eq_true hp).symm.trans hGroup
    rw [hSame]
    exact hTracks.room hNow (fun x => x.correlationGroup = c.correlationGroup)
      (hAdmits.perGroup (hSame ▸ hKnown))
  · apply h.notional.append _ _ hNotional hTimes hLater
    have hOwn : a.notional = c.notional := by
      rw [WireAttempt.notional, Candidate.notional, hCount, hPrice]
    rw [hOwn]
    exact hTracks.notional_room hNow (fun b hb => hNotional b (List.mem_append_left _ hb))
      hAdmits.notional
  · apply h.perHour.append _ _ hOne hTimes hLater
    exact hTracks.hour_room hNow hAdmits.perHour
  · rw [List.pairwise_append]
    refine ⟨h.cooldown, List.pairwise_singleton _ _, ?_⟩
    intro b hb a' ha' hSameTicker hSameDirection
    rw [List.mem_singleton.mp ha'] at hSameTicker hSameDirection ⊢
    refine (hTracks.cooled hAdmits hb (hSameTicker.trans hTicker)
      (hSameDirection.trans hDirection)).trans ?_
    exact_mod_cast sub_le_sub_right hLater b.nowMs

/-- In every run from an empty gate, in clock order and with every record vetted by
the check before it, all seven rolling caps hold. -/
theorem attempts_within_caps (limits : RiskLimits) (calls : List GateCall)
    (hOrder : InOrder calls) (hVetted : Vetted { limits } calls)
    (hNonneg : ∀ a ∈ attemptsOf calls, 0 ≤ a.count ∧ 0 ≤ a.priceDollars) :
    AttemptCaps limits (attemptsOf calls) := by
  induction calls using List.reverseRecOn with
  | nil =>
    exact ⟨withinCap_nil _ _ _ _, fun _ => withinCap_nil _ _ _ _, fun _ => withinCap_nil _ _ _ _,
      fun _ _ => withinCap_nil _ _ _ _, withinCap_nil _ _ _ _, withinCap_nil _ _ _ _, .nil⟩
  | append_singleton calls call ih =>
    have hBefore := ih hOrder.before hVetted.before fun a ha =>
      hNonneg a (by rw [attemptsOf_snoc]; exact List.mem_append_left _ ha)
    cases hCall : call.attempt? with
    | none =>
      rw [attemptsOf_snoc, hCall]
      simpa using hBefore
    | some a =>
      obtain rfl : call = .recordAttempt a := by
        cases call <;> cases hCall
        rfl
      obtain ⟨earlier, c, nowMs, rfl, hMatches, hVerdict⟩ := hVetted calls a [] rfl
      have hAttempts : attemptsOf (earlier ++ [.check c nowMs]) = attemptsOf earlier := by
        rw [attemptsOf_snoc]
        exact List.append_nil _
      have hLater : nowMs ≤ a.nowMs :=
        hOrder.le_last rfl (by rw [timesOf_snoc]; exact List.mem_append_right _ (by simp [GateCall.nowMs?]))
      have hLimits : (runCalls { limits } earlier).limits = limits := runCalls_limits _ _
      rw [attemptsOf_snoc] at hNonneg ⊢
      rw [hAttempts] at hNonneg hBefore ⊢
      rw [← hLimits] at hBefore ⊢
      apply hBefore.record (tracks_run limits hOrder.before.before)
        ((RiskGate.check_eq_none_iff _ _ _).mp hVerdict) hMatches
        (fun t ht => hOrder.before.le_last rfl ht) hLater
      intro b hb
      obtain ⟨hCount, hPrice⟩ := hNonneg b hb
      exact mul_nonneg (by exact_mod_cast hCount) hPrice

def pairOfAttempts : List GateCall :=
  [.check ⟨"KX-A-1", "yes", 0, 1, 1 / 2, "majors"⟩ 1000,
    .recordAttempt ⟨"KX-A-1", "yes", 1, 1 / 2, 1000, "majors"⟩, .beginDispatch, .endDispatch,
    .check ⟨"KX-A-1", "yes", 0, 1, 1 / 2, "majors"⟩ 70000,
    .recordAttempt ⟨"KX-A-1", "yes", 1, 1 / 2, 70001, "majors"⟩]

theorem pairOfAttempts_vetted : Vetted { limits := { allowedExchangeIndexes := {0} } }
    pairOfAttempts := by
  have hFirst := (vetted_nil { limits := { allowedExchangeIndexes := {0} } }).snoc
    (.check ⟨"KX-A-1", "yes", 0, 1, 1 / 2, "majors"⟩ 1000) nofun
  have hSecond := hFirst.snoc (.recordAttempt ⟨"KX-A-1", "yes", 1, 1 / 2, 1000, "majors"⟩)
    fun a ha => by
      cases ha
      exact ⟨[], _, _, rfl, ⟨rfl, rfl, rfl, rfl, rfl⟩, by decide +kernel⟩
  have hThird := ((hSecond.snoc .beginDispatch nofun).snoc .endDispatch nofun).snoc
    (.check ⟨"KX-A-1", "yes", 0, 1, 1 / 2, "majors"⟩ 70000) nofun
  exact hThird.snoc _ fun a ha => by
    cases ha
    exact ⟨pairOfAttempts.take 4, _, _, rfl, ⟨rfl, rfl, rfl, rfl, rfl⟩, by decide +kernel⟩

theorem pairOfAttempts_within_caps :
    AttemptCaps { allowedExchangeIndexes := {0} } (attemptsOf pairOfAttempts) :=
  attempts_within_caps _ pairOfAttempts (by unfold InOrder; decide) pairOfAttempts_vetted
    (by decide +kernel)

end KalshiBot.Risk

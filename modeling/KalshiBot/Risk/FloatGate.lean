import KalshiBot.Library.Dicts
import KalshiBot.Library.Doubles
import KalshiBot.Risk.Gate

/-! # The risk gate in floats

`check` once more, with a float wherever the source has one: sums and products are rounded, a
limit may be infinite or NaN, and a number may be too large for a float or for a text. A `none`
is the exception that this raises. With nothing rounded it is the gate of exact numbers.
-/

namespace KalshiBot.Risk

open PythonText RollingWindow

set_option autoImplicit false

structure FloatLimits where
  allowedExchangeIndexes : Finset ℤ
  maxAttemptsPerHour : ℤ
  maxAttemptsPerDay : ℤ
  maxAttemptsPerTickerPerDay : ℤ
  maxNotionalPerDayDollars : PyFloat
  maxConcurrentDispatches : ℤ
  maxPositionContractsPerTicker : PyFloat
  maxAttemptsPerCorrelationGroupPerDay : ℤ
  maxPositionContractsPerCorrelationGroup : PyFloat
  maxAttemptsPerEventPerDay : ℤ
  maxPositionContractsPerEvent : PyFloat
  refireCooldownSeconds : PyFloat

structure FloatAttempt where
  requestedAtMs : ℤ
  ticker : String
  correlationGroup : String
  notionalDollars : PyFloat

structure FloatFill where
  recordedAtMs : ℤ
  ticker : String
  correlationGroup : String
  fillCount : PyFloat

structure FloatGate where
  limits : FloatLimits
  attempts : List FloatAttempt := []
  lastAttemptMs : Dict (String × String) ℤ := ∅
  fills : List FloatFill := []
  correlationGroupByTicker : Dict String String := ∅
  reconciledPositionByTicker : Dict String PyFloat := ∅
  reconciledPositionByGroup : Dict String PyFloat := ∅
  reconciledPositionByEvent : Dict String PyFloat := ∅
  reconciledAtMs : ℤ := 0
  inFlight : ℤ := 0

structure FloatCandidate where
  ticker : String
  direction : String
  exchangeIndex : ℤ
  count : ℤ
  priceDollars : PyFloat
  correlationGroup : String := ""

/-- Checks made in turn: the first that refuses says why, unless one raises before it. -/
def firstVerdict : List (Option (Option String)) → Option (Option String)
  | [] => some none
  | some none :: checks => firstVerdict checks
  | verdict :: _ => verdict

theorem firstVerdict_eq_none {checks : List (Option (Option String))}
    (h : firstVerdict checks = some none) : ∀ check ∈ checks, check = some none := by
  fun_induction firstVerdict checks with
  | case1 => exact List.forall_mem_nil _
  | case2 checks ih => exact List.forall_mem_cons.mpr ⟨rfl, ih h⟩
  | case3 verdict checks hOther => exact absurd h hOther

/-- One check, with the text of its refusal. -/
def refuseWith (p : Prop) [Decidable p] (text : Option String) : Option (Option String) :=
  if p then text.map some else some none

namespace FloatGate

def prune (g : FloatGate) (nowMs : ℤ) : FloatGate :=
  { g with
    attempts := pruneBefore FloatAttempt.requestedAtMs (nowMs - dayMs) g.attempts
    fills := pruneBefore FloatFill.recordedAtMs (nowMs - dayMs) g.fills }

section Checks

variable (round : ℚ → PyFloat)

def unconfirmed (g : FloatGate) (on : FloatFill → Bool) (nowMs : ℤ) : PyFloat :=
  .sum round ((g.fills.filter fun f =>
    on f ∧ max g.reconciledAtMs (nowMs - dayMs) ≤ f.recordedAtMs).map FloatFill.fillCount)

def positionForTicker (g : FloatGate) (ticker : String) (nowMs : ℤ) : PyFloat :=
  ((g.reconciledPositionByTicker.lookup ticker).getD (.finite 0)).add round
    (g.unconfirmed round (fun f => f.ticker = ticker) nowMs)

def positionForEvent (g : FloatGate) (eventTicker : String) (nowMs : ℤ) : PyFloat :=
  ((g.reconciledPositionByEvent.lookup eventTicker).getD (.finite 0)).add round
    (g.unconfirmed round (fun f => eventTickerOf f.ticker = eventTicker) nowMs)

def positionForGroup (g : FloatGate) (correlationGroup : String) (nowMs : ℤ) : PyFloat :=
  ((g.reconciledPositionByGroup.lookup correlationGroup).getD (.finite 0)).add round
    (g.unconfirmed round (fun f => f.correlationGroup = correlationGroup) nowMs)

def checkEarly (g : FloatGate) (c : FloatCandidate) (nowMs : ℤ) : Option (Option String) :=
  firstVerdict [
    refuseWith (c.exchangeIndex ∉ g.limits.allowedExchangeIndexes) do
      let allowed ← (sortedIndexes g.limits.allowedExchangeIndexes).mapM intText
      return "exchange_index=" ++ (← intText c.exchangeIndex) ++ " not in allowed [" ++
        ", ".intercalate allowed ++ "]" ++
        (if c.exchangeIndex = -1 then " (unknown shard cannot be verified as funded)" else ""),
    refuseWith (g.limits.maxConcurrentDispatches ≤ g.inFlight) do
      return (← intText g.inFlight) ++ " dispatches already in flight (max " ++
        (← intText g.limits.maxConcurrentDispatches) ++ ")",
    match g.lastAttemptMs.lookup (c.ticker, c.direction) with
    | none => some none
    | some last =>
      refuseWith ((PyFloat.finite (nowMs - last : ℤ)).lt
          (g.limits.refireCooldownSeconds.mul round (.finite 1000))) do
        let elapsed ← PyFloat.ofRat round ((nowMs - last : ℤ) / 1000)
        return "cooldown: last " ++ c.direction ++ " attempt on " ++ c.ticker ++ " was " ++
          elapsed.fixed 1 ++ "s ago (min " ++ g.limits.refireCooldownSeconds.fixed 0 ++ "s)"]

def checkAttempts (g : FloatGate) (c : FloatCandidate) (nowMs : ℤ) : Option (Option String) :=
  let lastHour := (since FloatAttempt.requestedAtMs (nowMs - hourMs) g.attempts).length
  let ticker := (g.attempts.filter fun a => a.ticker = c.ticker).length
  let event := (g.attempts.filter fun a => eventTickerOf a.ticker = eventTickerOf c.ticker).length
  let group := (g.attempts.filter fun a => a.correlationGroup = c.correlationGroup).length
  firstVerdict [
    refuseWith (g.limits.maxAttemptsPerHour ≤ lastHour) do
      return (← intText lastHour) ++ " attempts in the last hour (max " ++
        (← intText g.limits.maxAttemptsPerHour) ++ ")",
    refuseWith (g.limits.maxAttemptsPerDay ≤ g.attempts.length) do
      return (← intText g.attempts.length) ++ " attempts in the last 24h (max " ++
        (← intText g.limits.maxAttemptsPerDay) ++ ")",
    refuseWith (g.limits.maxAttemptsPerTickerPerDay ≤ ticker) do
      return (← intText ticker) ++ " attempts on " ++ c.ticker ++ " in the last 24h (max " ++
        (← intText g.limits.maxAttemptsPerTickerPerDay) ++ ")",
    refuseWith (g.limits.maxAttemptsPerEventPerDay ≤ event) do
      return (← intText event) ++ " attempts across event " ++ pyRepr (eventTickerOf c.ticker) ++
        " in the last 24h (max " ++ (← intText g.limits.maxAttemptsPerEventPerDay) ++ ")",
    refuseWith (c.correlationGroup ≠ "" ∧
        g.limits.maxAttemptsPerCorrelationGroupPerDay ≤ group) do
      return (← intText group) ++ " attempts across correlation group " ++
        pyRepr c.correlationGroup ++ " in the last 24h (max " ++
        (← intText g.limits.maxAttemptsPerCorrelationGroupPerDay) ++ ")"]

def checkExposure (g : FloatGate) (c : FloatCandidate) (nowMs : ℤ) : Option (Option String) := do
  -- raises on a count that is too large for a float
  let count ← PyFloat.ofRat round c.count
  let notional := (PyFloat.sum round (g.attempts.map FloatAttempt.notionalDollars)).add round
    (count.mul round c.priceDollars)
  let position := (g.positionForTicker round c.ticker nowMs).add round count
  let event := (g.positionForEvent round (eventTickerOf c.ticker) nowMs).add round count
  let group := (g.positionForGroup round c.correlationGroup nowMs).add round count
  firstVerdict [
    refuseWith (g.limits.maxNotionalPerDayDollars.lt notional) (some
      ("daily notional would reach $" ++ notional.fixed 2 ++ " (max $" ++
        g.limits.maxNotionalPerDayDollars.fixed 2 ++ ")")),
    refuseWith (g.limits.maxPositionContractsPerTicker.lt position) (some
      ("position on " ++ c.ticker ++ " would reach " ++ position.general ++ " contracts (max " ++
        g.limits.maxPositionContractsPerTicker.general ++ ")")),
    refuseWith (g.limits.maxPositionContractsPerEvent.lt event) (some
      ("position across event " ++ pyRepr (eventTickerOf c.ticker) ++ " would reach " ++
        event.general ++ " contracts (max " ++ g.limits.maxPositionContractsPerEvent.general ++
        ")")),
    refuseWith (c.correlationGroup ≠ "" ∧
        g.limits.maxPositionContractsPerCorrelationGroup.lt group) (some
      ("position across correlation group " ++ pyRepr c.correlationGroup ++ " would reach " ++
        group.general ++ " contracts (max " ++
        g.limits.maxPositionContractsPerCorrelationGroup.general ++ ")"))]

/-- The reason to refuse, if there is one, and the gate that the check leaves behind. -/
def check (g : FloatGate) (c : FloatCandidate) (nowMs : ℤ) :
    Option (Option String × FloatGate) := do
  match ← g.checkEarly round c nowMs with
  | some reason => return (some reason, g)
  | none =>
    let pruned := g.prune nowMs
    let verdict ← firstVerdict [pruned.checkAttempts c nowMs, pruned.checkExposure round c nowMs]
    return (verdict, pruned)

def recordAttempt (g : FloatGate) (c : FloatCandidate) (nowMs : ℤ) : Option FloatGate := do
  let count ← PyFloat.ofRat round c.count
  return { g with
    attempts := g.attempts ++
      [⟨nowMs, c.ticker, c.correlationGroup, count.mul round c.priceDollars⟩]
    lastAttemptMs := g.lastAttemptMs.insert (c.ticker, c.direction) nowMs
    correlationGroupByTicker :=
      RiskGate.learnGroup g.correlationGroupByTicker c.ticker c.correlationGroup }

/-- An order that the check admits has been turned into a float before. -/
theorem recordAttempt_of_check {g checked : FloatGate} {c : FloatCandidate} {nowMs : ℤ}
    (h : g.check round c nowMs = some (none, checked)) (recordMs : ℤ) :
    ∃ recorded, checked.recordAttempt round c recordMs = some recorded := by
  obtain ⟨early, -, h⟩ := Option.bind_eq_some_iff.mp h
  cases early with
  | some reason => cases h
  | none =>
    obtain ⟨verdict, hVerdict, h⟩ := Option.bind_eq_some_iff.mp h
    obtain ⟨rfl, -⟩ := Prod.mk.inj (Option.some.inj h)
    have hExposure := firstVerdict_eq_none hVerdict _ (List.mem_cons_of_mem _ List.mem_cons_self)
    obtain ⟨count, hCount, -⟩ := Option.bind_eq_some_iff.mp hExposure
    exact ⟨_, by rw [recordAttempt, hCount]; rfl⟩

end Checks

end FloatGate

def RiskLimits.toFloats (limits : RiskLimits) : FloatLimits where
  allowedExchangeIndexes := limits.allowedExchangeIndexes
  maxAttemptsPerHour := limits.maxAttemptsPerHour
  maxAttemptsPerDay := limits.maxAttemptsPerDay
  maxAttemptsPerTickerPerDay := limits.maxAttemptsPerTickerPerDay
  maxNotionalPerDayDollars := .finite limits.maxNotionalPerDayDollars
  maxConcurrentDispatches := limits.maxConcurrentDispatches
  maxPositionContractsPerTicker := .finite limits.maxPositionContractsPerTicker
  maxAttemptsPerCorrelationGroupPerDay := limits.maxAttemptsPerCorrelationGroupPerDay
  maxPositionContractsPerCorrelationGroup := .finite limits.maxPositionContractsPerCorrelationGroup
  maxAttemptsPerEventPerDay := limits.maxAttemptsPerEventPerDay
  maxPositionContractsPerEvent := .finite limits.maxPositionContractsPerEvent
  refireCooldownSeconds := .finite limits.refireCooldownSeconds

def Attempt.toFloats (a : Attempt) : FloatAttempt :=
  ⟨a.requestedAtMs, a.ticker, a.correlationGroup, .finite a.notionalDollars⟩

def Fill.toFloats (f : Fill) : FloatFill :=
  ⟨f.recordedAtMs, f.ticker, f.correlationGroup, .finite f.fillCount⟩

def Candidate.toFloats (c : Candidate) : FloatCandidate :=
  ⟨c.ticker, c.direction, c.exchangeIndex, c.count, .finite c.priceDollars, c.correlationGroup⟩

def RiskGate.toFloats (g : RiskGate) : FloatGate where
  limits := g.limits.toFloats
  attempts := g.attempts.map Attempt.toFloats
  lastAttemptMs := g.lastAttemptMs
  fills := g.fills.map Fill.toFloats
  correlationGroupByTicker := g.correlationGroupByTicker
  reconciledPositionByTicker := Dict.mapValues .finite g.reconciledPositionByTicker
  reconciledPositionByGroup := Dict.mapValues .finite g.reconciledPositionByGroup
  reconciledPositionByEvent := Dict.mapValues .finite g.reconciledPositionByEvent
  reconciledAtMs := g.reconciledAtMs
  inFlight := g.inFlight

/-- Unless it raises, a check says what another one says. -/
def Says (verdict : Option (Option String)) (rejection : Option Rejection) : Prop :=
  ∀ reason ∈ verdict, reason = rejection.map Rejection.message

namespace Says

theorem refuse {p q : Prop} [Decidable p] [Decidable q] {text : Option String} {r : Rejection}
    (hSame : p ↔ q) (hText : ∀ t ∈ text, t = r.message) :
    Says (refuseWith p text) (refuseIf q r) := by
  intro reason hReason
  by_cases hRefuses : p
  · rw [refuseWith, if_pos hRefuses] at hReason
    obtain ⟨t, hSome, rfl⟩ := Option.map_eq_some_iff.mp hReason
    rw [refuseIf, if_pos (hSame.mp hRefuses), Option.map_some, hText t hSome]
  · rw [refuseWith, if_neg hRefuses] at hReason
    obtain rfl := Option.some.inj hReason
    rw [refuseIf, if_neg (mt hSame.mpr hRefuses), Option.map_none]

theorem nil : Says (firstVerdict []) (firstRejection []) := by
  rintro reason ⟨⟩
  rfl

theorem cons {verdict : Option (Option String)} {rejection : Option Rejection}
    {verdicts : List (Option (Option String))} {rejections : List (Option Rejection)}
    (hFirst : Says verdict rejection)
    (hLater : Says (firstVerdict verdicts) (firstRejection rejections)) :
    Says (firstVerdict (verdict :: verdicts)) (firstRejection (rejection :: rejections)) := by
  match verdict, hFirst with
  | none, _ => rintro reason ⟨⟩
  | some none, hFirst =>
    have hNone : rejection = none := Option.map_eq_none_iff.mp (hFirst none rfl).symm
    rw [hNone]
    exact hLater
  | some (some text), hFirst =>
    rintro reason ⟨⟩
    have hText := hFirst (some text) rfl
    obtain ⟨r, rfl, -⟩ := Option.map_eq_some_iff.mp hText.symm
    exact hText

end Says

theorem map_of_mapM_intText {indexes : List ℤ} {texts : List String}
    (h : indexes.mapM intText = some texts) : texts = indexes.map toString := by
  induction indexes generalizing texts with
  | nil => exact (Option.some.inj h).symm
  | cons i indexes ih =>
    rw [List.mapM_cons] at h
    obtain ⟨text, hText, h⟩ := Option.bind_eq_some_iff.mp h
    obtain ⟨rest, hRest, h⟩ := Option.bind_eq_some_iff.mp h
    rw [← Option.some.inj h, List.map_cons, eq_of_intText hText, ih hRest]

namespace RiskGate

variable (g : RiskGate) (c : Candidate) (nowMs : ℤ)

theorem toFloats_prune : g.toFloats.prune nowMs = (g.prune nowMs).toFloats := by
  have hAttempts : ∀ floor, pruneBefore FloatAttempt.requestedAtMs floor
      (g.attempts.map Attempt.toFloats) =
        (pruneBefore Attempt.requestedAtMs floor g.attempts).map Attempt.toFloats := by
    intro floor
    exact List.dropWhile_map
  have hFills : ∀ floor, pruneBefore FloatFill.recordedAtMs floor (g.fills.map Fill.toFloats) =
      (pruneBefore Fill.recordedAtMs floor g.fills).map Fill.toFloats := by
    intro floor
    exact List.dropWhile_map
  rw [FloatGate.prune, prune, toFloats, toFloats, hAttempts, hFills]

theorem says_checkEarly :
    Says (g.toFloats.checkEarly .finite c.toFloats nowMs) (g.checkEarly c nowMs) := by
  refine .cons (.refuse Iff.rfl ?_) (.cons (.refuse Iff.rfl ?_) (.cons ?_ .nil))
  · intro text hText
    obtain ⟨allowed, hAllowed, hText⟩ := Option.bind_eq_some_iff.mp hText
    obtain ⟨index, hIndex, hText⟩ := Option.bind_eq_some_iff.mp hText
    rw [← Option.some.inj hText, map_of_mapM_intText hAllowed, eq_of_intText hIndex]
    rfl
  · intro text hText
    obtain ⟨inFlight, hInFlight, hText⟩ := Option.bind_eq_some_iff.mp hText
    obtain ⟨most, hMost, hText⟩ := Option.bind_eq_some_iff.mp hText
    rw [← Option.some.inj hText, eq_of_intText hInFlight, eq_of_intText hMost]
    rfl
  · have hKey : g.toFloats.lastAttemptMs.lookup (c.toFloats.ticker, c.toFloats.direction) =
        g.lastAttemptMs.lookup c.key := rfl
    rw [hKey]
    cases g.lastAttemptMs.lookup c.key with
    | none =>
      rintro reason ⟨⟩
      rfl
    | some last =>
      refine .refuse ?_ ?_
      · simp [toFloats, RiskLimits.toFloats]
      · intro text hText
        obtain ⟨elapsed, hElapsed, hText⟩ := Option.bind_eq_some_iff.mp hText
        obtain rfl := Option.some.inj hElapsed
        rw [← Option.some.inj hText]
        rfl

theorem toFloats_attempts : g.toFloats.attempts = g.attempts.map Attempt.toFloats := rfl

theorem length_attempts (on : FloatAttempt → Bool) :
    (g.toFloats.attempts.filter on).length =
      (g.attempts.filter fun a => on a.toFloats).length := by
  rw [toFloats_attempts, List.filter_map, List.length_map]
  rfl

theorem says_checkAttempts :
    Says (g.toFloats.checkAttempts c.toFloats nowMs) (g.checkAttempts c nowMs) := by
  have hAll : g.toFloats.attempts.length = g.attempts.length := List.length_map _
  simp only [FloatGate.checkAttempts, checkAttempts, since, length_attempts, hAll]
  refine .cons (.refuse Iff.rfl ?_) (.cons (.refuse Iff.rfl ?_) (.cons (.refuse Iff.rfl ?_)
    (.cons (.refuse Iff.rfl ?_) (.cons (.refuse Iff.rfl ?_) .nil))))
  all_goals
    intro text hText
    obtain ⟨attempts, hAttempts, hText⟩ := Option.bind_eq_some_iff.mp hText
    obtain ⟨most, hMost, hText⟩ := Option.bind_eq_some_iff.mp hText
    rw [← Option.some.inj hText, eq_of_intText hAttempts, eq_of_intText hMost]
    rfl

theorem unconfirmed_toFloats {on : FloatFill → Bool} :
    g.toFloats.unconfirmed .finite on nowMs =
      .finite (g.unconfirmed (fun f => on f.toFloats) nowMs) := by
  rw [FloatGate.unconfirmed, unconfirmed, total, ← PyFloat.sum_finite]
  congr 1
  rw [toFloats, List.filter_map, List.map_map, List.map_map]
  rfl

theorem position_toFloats (baseline : Dict String ℚ) (key : String) (on : FloatFill → Bool) :
    (((Dict.mapValues PyFloat.finite baseline).lookup key).getD (.finite 0)).add .finite
        (g.toFloats.unconfirmed .finite on nowMs) =
      .finite ((baseline.lookup key).getD 0 + g.unconfirmed (fun f => on f.toFloats) nowMs) := by
  rw [unconfirmed_toFloats, Dict.lookup_mapValues]
  cases baseline.lookup key <;> rfl

theorem says_checkExposure :
    Says (g.toFloats.checkExposure .finite c.toFloats nowMs) (g.checkExposure c nowMs) := by
  have hNotional : PyFloat.sum .finite (g.toFloats.attempts.map FloatAttempt.notionalDollars) =
      .finite (total Attempt.notionalDollars g.attempts) := by
    rw [total, ← PyFloat.sum_finite, toFloats_attempts, List.map_map, List.map_map]
    rfl
  have hTicker : g.toFloats.positionForTicker .finite c.ticker nowMs =
      .finite (g.positionForTicker c.ticker nowMs) := g.position_toFloats nowMs _ _ _
  have hEvent : g.toFloats.positionForEvent .finite (eventTickerOf c.ticker) nowMs =
      .finite (g.positionForEvent (eventTickerOf c.ticker) nowMs) := g.position_toFloats nowMs _ _ _
  have hGroup : g.toFloats.positionForGroup .finite c.correlationGroup nowMs =
      .finite (g.positionForGroup c.correlationGroup nowMs) := g.position_toFloats nowMs _ _ _
  simp only [FloatGate.checkExposure, checkExposure, Candidate.toFloats, PyFloat.ofRat_finite,
    Option.bind_eq_bind, Option.bind_some, hNotional, hTicker, hEvent, hGroup,
    PyFloat.mul_finite, PyFloat.add_finite]
  refine .cons (.refuse ?_ ?_) (.cons (.refuse ?_ ?_) (.cons (.refuse ?_ ?_)
    (.cons (.refuse ?_ ?_) .nil)))
  all_goals first
    | exact decide_eq_true_iff
    | exact and_congr_right' decide_eq_true_iff
    | rintro text ⟨⟩; rfl

/-- With nothing rounded, a check that does not raise is that of the exact gate. -/
theorem check_toFloats {reason : Option String} {h : FloatGate}
    (hCheck : g.toFloats.check .finite c.toFloats nowMs = some (reason, h)) :
    reason = (g.check c nowMs).1.map Rejection.message ∧ h = (g.check c nowMs).2.toFloats := by
  have hEarly := g.says_checkEarly c nowMs
  obtain ⟨early, hVerdict, hCheck⟩ := Option.bind_eq_some_iff.mp hCheck
  have hSame := hEarly early hVerdict
  cases early with
  | some text =>
    obtain ⟨rfl, rfl⟩ := Prod.mk.inj (Option.some.inj hCheck)
    obtain ⟨rejection, hRejection, -⟩ := Option.map_eq_some_iff.mp hSame.symm
    rw [check, hRejection]
    rw [hRejection] at hSame
    exact ⟨hSame, rfl⟩
  | none =>
    have hNone : g.checkEarly c nowMs = none := Option.map_eq_none_iff.mp hSame.symm
    obtain ⟨verdict, hLater, hCheck⟩ := Option.bind_eq_some_iff.mp hCheck
    obtain ⟨rfl, rfl⟩ := Prod.mk.inj (Option.some.inj hCheck)
    rw [toFloats_prune] at hLater ⊢
    rw [check, hNone]
    exact ⟨Says.cons (says_checkAttempts _ c nowMs) (.cons (says_checkExposure _ c nowMs) .nil)
      _ hLater, rfl⟩

end RiskGate

end KalshiBot.Risk

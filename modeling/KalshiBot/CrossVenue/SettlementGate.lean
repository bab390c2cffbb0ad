import KalshiBot.CrossVenue.Markets

/-! # The settlement gate

Each check returns its blockers and its evidence. What lets a check pass is stated beside it.
-/

namespace KalshiBot.CrossVenue

open PythonText

set_option autoImplicit false

variable (u : Unicode) (config : MatcherConfig) (kalshi other : NormalizedMarket)

def affirmativeLabels : List String := ["yes", "over", "true"]
def negativeLabels : List String := ["no", "under", "false"]

def drawCapableSports : List String :=
  ["soccer", "cricket", "chess", "football club", "test match", "draw", "kbo", "npb"]

/-- The draw-capable sports that either side's wording mentions. -/
def drawable : List String :=
  let wording :=
    u.lower (kalshi.terms.rawRules ++ " " ++ kalshi.question ++ " " ++ other.question).toList
  sortTexts (drawCapableSports.filter fun token => token.toList <:+: wording)

def drawBlockers : List String × List String :=
  if foldLabel u other.yesLabel ∈ affirmativeLabels then ([], [])
  else match drawable u kalshi other with
    | token :: _ =>
      (["outcome set may not be exhaustive: wording mentions " ++ pyRepr token ++
        ", where a draw means the two named results are not complements"], [])
    | [] => ([], ["two-competitor outcomes with no draw-capable sport in the wording"])

/-- The two outcomes are a proposition's, or no draw-capable sport is mentioned. -/
def Exhaustive : Prop :=
  foldLabel u other.yesLabel ∈ affirmativeLabels ∨ drawable u kalshi other = []

theorem drawBlockers_eq_nil_iff :
    (drawBlockers u kalshi other).1 = [] ↔ Exhaustive u kalshi other := by
  rw [drawBlockers, Exhaustive]
  split
  next hYes => simp [hYes]
  next hNo =>
    split
    next token rest hDrawable => simp [hNo, hDrawable]
    next hNone => simp [hNone]

def reprThreshold (threshold : Option ℚ) : String := (threshold.map reprFloat).getD "None"

def thresholdBlockers : List String × List String :=
  match kalshi.terms.threshold, other.terms.threshold with
  | none, none => ([], ["neither side makes a numeric claim"])
  | some kalshiLevel, some otherLevel =>
    let kalshiUnits := kalshi.terms.thresholdUnits
    let otherUnits := other.terms.thresholdUnits
    let kalshiClaim := kalshi.terms.comparator.value ++ " " ++ reprFloat kalshiLevel
    let otherClaim := other.terms.comparator.value ++ " " ++ reprFloat otherLevel
    if Stated kalshiUnits ∧ Stated otherUnits ∧ kalshiUnits ≠ otherUnits then
      (["threshold units differ (" ++ kalshiUnits.getD "None" ++ " vs " ++
        otherUnits.getD "None" ++ ")"], [])
    else if kalshi.terms.comparator = .between ∨ other.terms.comparator = .between then
      (["range markets are not compared: a one-sided venue cannot hedge a two-sided range"], [])
    else if thresholdsEquivalent kalshi.terms.comparator.value kalshiLevel
        other.terms.comparator.value otherLevel (1 / 100) then
      ([], ["thresholds equivalent (" ++ kalshiClaim ++ ")"])
    else (["thresholds differ (" ++ kalshiClaim ++ " vs " ++ otherClaim ++ ")"], [])
  | kalshiLevel, otherLevel =>
    (["one side is a level market and the other is not (kalshi=" ++ reprThreshold kalshiLevel ++
      ", other=" ++ reprThreshold otherLevel ++ ")"], [])

/-- Both sides state a level, neither of them a range, and the levels are equivalent. -/
structure SameLevel : Prop where
  noRange : kalshi.terms.comparator ≠ .between ∧ other.terms.comparator ≠ .between
  stated : kalshi.terms.threshold.isSome ∧ other.terms.threshold.isSome
  equivalent : thresholdsEquivalent kalshi.terms.comparator.value kalshi.terms.threshold
    other.terms.comparator.value other.terms.threshold (1 / 100)

def NoLevel : Prop := kalshi.terms.threshold = none ∧ other.terms.threshold = none

theorem sameLevel_iff : SameLevel kalshi other ↔
    (kalshi.terms.comparator ≠ .between ∧ other.terms.comparator ≠ .between) ∧
      (kalshi.terms.threshold.isSome ∧ other.terms.threshold.isSome) ∧
        thresholdsEquivalent kalshi.terms.comparator.value kalshi.terms.threshold
          other.terms.comparator.value other.terms.threshold (1 / 100) :=
  ⟨fun h => ⟨h.noRange, h.stated, h.equivalent⟩, fun h => ⟨h.1, h.2.1, h.2.2⟩⟩

theorem thresholdBlockers_eq_nil_iff :
    (thresholdBlockers kalshi other).1 = [] ↔ NoLevel kalshi other ∨ SameLevel kalshi other ∧
      (Stated kalshi.terms.thresholdUnits → Stated other.terms.thresholdUnits →
        kalshi.terms.thresholdUnits = other.terms.thresholdUnits) := by
  rw [thresholdBlockers, NoLevel, sameLevel_iff]
  cases kalshi.terms.threshold with
  | none => cases other.terms.threshold <;> simp
  | some kalshiLevel =>
    cases other.terms.threshold with
    | none => simp
    | some otherLevel =>
      simp only [reduceCtorEq, and_self, false_or, Option.isSome_some, true_and]
      split
      next hUnits =>
        obtain ⟨hKalshiUnits, hOtherUnits, hDiffer⟩ := hUnits
        simp [hKalshiUnits, hOtherUnits, hDiffer]
      next hUnits =>
        have hEqual : Stated kalshi.terms.thresholdUnits → Stated other.terms.thresholdUnits →
            kalshi.terms.thresholdUnits = other.terms.thresholdUnits :=
          fun hKalshiUnits hOtherUnits =>
            by_contra fun hDiffer => hUnits ⟨hKalshiUnits, hOtherUnits, hDiffer⟩
        split
        next hRange => simp [← not_or, hRange]
        next hRange =>
          rw [not_or] at hRange
          split
          next hEquivalent =>
            simp only [true_iff]
            exact ⟨⟨hRange, hEquivalent⟩, hEqual⟩
          next hDiffer =>
            refine iff_of_false (List.cons_ne_nil _ _) ?_
            rintro ⟨⟨-, hEquivalent⟩, -⟩
            exact hDiffer hEquivalent

def sameDay (left right : Option ℤ) : Bool :=
  match left, right with
  | some left, some right => dateOf left = dateOf right
  | _, _ => false

def timingBlockers : List String × List String :=
  match kalshi.terms.scheduledEventTime, other.terms.scheduledEventTime with
  | some kalshiStart, some otherStart =>
    let delta := secondsBetween kalshiStart otherStart
    if (config.scheduledTimeToleranceSeconds : ℚ) < delta then
      (["scheduled event times differ by " ++ formatFixed 0 (delta / 60) ++ " minutes"], [])
    else ([], ["same scheduled event time"])
  | _, _ =>
    if sameDay kalshi.terms.expiryTime other.terms.expiryTime then
      ([], ["settlement dates agree to the day"])
    else (["settlement dates could not be shown to be the same day"], [])

/-- Both sides state a start, within the tolerance. -/
def StartsAgree : Prop :=
  ∃ kalshiStart ∈ kalshi.terms.scheduledEventTime, ∃ otherStart ∈ other.terms.scheduledEventTime,
    secondsBetween kalshiStart otherStart ≤ config.scheduledTimeToleranceSeconds

/-- Both sides state an expiry, on the same UTC date. -/
def DatesAgree : Prop :=
  ∃ kalshiExpiry ∈ kalshi.terms.expiryTime, ∃ otherExpiry ∈ other.terms.expiryTime,
    dateOf kalshiExpiry = dateOf otherExpiry

theorem sameDay_iff :
    sameDay kalshi.terms.expiryTime other.terms.expiryTime ↔ DatesAgree kalshi other := by
  rw [sameDay.eq_def, DatesAgree]
  cases kalshi.terms.expiryTime <;> cases other.terms.expiryTime <;> simp

/-- Two stated starts decide; the dates are looked at only where one is missing. -/
theorem timingBlockers_eq_nil_iff :
    (timingBlockers config kalshi other).1 = [] ↔
      StartsAgree config kalshi other ∨ DatesAgree kalshi other ∧
        (kalshi.terms.scheduledEventTime = none ∨ other.terms.scheduledEventTime = none) := by
  rw [timingBlockers, StartsAgree, ← sameDay_iff]
  cases kalshi.terms.scheduledEventTime with
  | none => cases sameDay kalshi.terms.expiryTime other.terms.expiryTime <;> simp
  | some kalshiStart =>
    cases other.terms.scheduledEventTime with
    | none => cases sameDay kalshi.terms.expiryTime other.terms.expiryTime <;> simp
    | some otherStart =>
      simp only [Option.mem_some_iff, exists_eq_left', reduceCtorEq, or_self, and_false, or_false]
      rw [← not_lt]
      split <;> simp [*]

def sourceNoise : List String :=
  ["https", "http", "www", "com", "org", "net", "official", "website"]

def sourceTokens (sources : List String) : List String :=
  (sources.flatMap fun source =>
    let cleaned := source.toList.map fun c => if c = '/' ∨ c = '.' ∨ c = ':' then ' ' else c
    (tokenize u (String.ofList cleaned)).filter fun token =>
      token ∉ sourceNoise ∧ 2 < token.length).dedup

def sharedSources : List String :=
  (sourceTokens u kalshi.terms.resolutionSources).filter
    (· ∈ sourceTokens u other.terms.resolutionSources)

def sourceBlockers : List String × List String :=
  if kalshi.terms.resolutionSources = [] ∨ other.terms.resolutionSources = [] then
    (["settlement source unverifiable: at least one venue states none"], [])
  else
    let kalshiTokens := sourceTokens u kalshi.terms.resolutionSources
    let otherTokens := sourceTokens u other.terms.resolutionSources
    let shared := sharedSources u kalshi other
    if shared = [] then
      (["settlement sources share no term (kalshi=" ++ reprTexts ((sortTexts kalshiTokens).take 4) ++
        ", other=" ++ reprTexts ((sortTexts otherTokens).take 4) ++ ")"], [])
    else ([], ["settlement sources share " ++ reprTexts ((sortTexts shared).take 3)])

def SourcesAgree : Prop :=
  ∃ term ∈ sourceTokens u kalshi.terms.resolutionSources,
    term ∈ sourceTokens u other.terms.resolutionSources

theorem sourceBlockers_eq_nil_iff :
    (sourceBlockers u kalshi other).1 = [] ↔ SourcesAgree u kalshi other := by
  have hShared : sharedSources u kalshi other ≠ [] ↔ SourcesAgree u kalshi other := by
    simp [sharedSources, SourcesAgree, List.filter_eq_nil_iff]
  rw [sourceBlockers]
  split
  next hMissing =>
    refine iff_of_false (List.cons_ne_nil _ _) ?_
    rintro ⟨term, hKalshi, hOther⟩
    obtain hNone | hNone := hMissing
    · simp [hNone, sourceTokens] at hKalshi
    · simp [hNone, sourceTokens] at hOther
  next =>
    rw [← hShared]
    dsimp only
    split
    next hNone => simp [hNone]
    next hSome => simp [hSome]

def settlementBlockers : List String × List String :=
  let checks := [drawBlockers u kalshi other, thresholdBlockers kalshi other,
    timingBlockers config kalshi other, sourceBlockers u kalshi other]
  let early := other.terms.canCloseEarly ∧ ¬kalshi.terms.canCloseEarly
  (checks.flatMap Prod.fst, checks.flatMap Prod.snd ++
    if early then ["note: other venue may settle early (UMA); Kalshi may not"] else [])

theorem settlementBlockers_eq_nil_iff :
    (settlementBlockers u config kalshi other).1 = [] ↔
      Exhaustive u kalshi other ∧
      (NoLevel kalshi other ∨ SameLevel kalshi other ∧
        (Stated kalshi.terms.thresholdUnits → Stated other.terms.thresholdUnits →
          kalshi.terms.thresholdUnits = other.terms.thresholdUnits)) ∧
      (StartsAgree config kalshi other ∨ DatesAgree kalshi other ∧
        (kalshi.terms.scheduledEventTime = none ∨ other.terms.scheduledEventTime = none)) ∧
      SourcesAgree u kalshi other := by
  rw [← drawBlockers_eq_nil_iff, ← thresholdBlockers_eq_nil_iff, ← timingBlockers_eq_nil_iff,
    ← sourceBlockers_eq_nil_iff]
  simp [settlementBlockers]

end KalshiBot.CrossVenue

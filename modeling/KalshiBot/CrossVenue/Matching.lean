import Mathlib.Data.Prod.Lex
import Mathlib.Algebra.Field.Defs
import KalshiBot.CrossVenue.SettlementGate
import KalshiBot.Library.Dicts

/-! # Matching two venues' markets

Candidates come from an inverted index over the counterparty's tokens, each is scored, and
what scores well enough goes through the settlement gate. Weights and scores are exact.
-/

namespace KalshiBot.CrossVenue

open PythonText

set_option autoImplicit false

/-- What scoring takes from Python besides field operations: `math.log`, and the format `.3f`. -/
structure FloatMath (K : Type) where
  log : ℚ → K
  threePlaces : K → String

variable {K : Type} [Field K] [LinearOrder K] (u : Unicode) (f : FloatMath K)
  (config : MatcherConfig)

def documentFrequencies (documents : List (List String)) : Dict String ℕ :=
  documents.foldl (fun frequencies document =>
    document.dedup.foldl (fun frequencies token =>
      frequencies.insert token (Dict.getD frequencies token 0 + 1)) frequencies) ∅

def inverseDocumentFrequency (documents : List (List String)) : Dict String K :=
  if documents.length = 0 then ∅
  else Dict.mapValues (fun frequency : ℕ => max 0 (f.log (documents.length / (1 + frequency))))
    (documentFrequencies documents)

def weightedOverlap (left right : List String) (weights : Dict String K) (default : K := 1) : K :=
  let left := left.dedup
  let right := right.dedup
  if left = [] ∨ right = [] then 0
  else
    let union := left ∪ right
    let intersection := left ∩ right
    let unionWeight := (union.map fun token => Dict.getD weights token default).sum
    if unionWeight ≤ 0 then intersection.length / union.length
    else (intersection.map fun token => Dict.getD weights token default).sum / unionWeight

structure Indexed where
  market : NormalizedMarket
  tokens : List String
deriving DecidableEq

def Indexed.of (market : NormalizedMarket) : Indexed := ⟨market, tokenize u market.searchText⟩

def resolveAlignment (kalshi other : NormalizedMarket) : Option Bool × String :=
  let yesLabel := foldLabel u other.yesLabel
  let noLabel := foldLabel u other.noLabel
  let labels := "(" ++ other.yesLabel ++ "/" ++ other.noLabel ++ ")"
  let matchesYes := teamsMatch u kalshi.yesLabel.toList other.yesLabel.toList
  let matchesNo := teamsMatch u kalshi.yesLabel.toList other.noLabel.toList
  let matched := fun label => "teams matched (" ++ kalshi.yesLabel ++ " -> " ++ label ++ ")"
  if yesLabel ∈ affirmativeLabels ∧ noLabel ∈ negativeLabels then
    (some true, "proposition outcomes " ++ labels)
  else if yesLabel ∈ negativeLabels ∧ noLabel ∈ affirmativeLabels then
    (some false, "inverted proposition outcomes " ++ labels)
  else if matchesYes then
    if matchesNo then (none, "teams ambiguous: Kalshi label matches both outcomes")
    else (some true, matched other.yesLabel)
  else if matchesNo then (some false, matched other.noLabel)
  else (none, "")

def labelAgreement (kalshi : NormalizedMarket) (other : Indexed) (matchedByTeam : Bool) :
    ℚ × String :=
  let labelTokens := (tokenize u kalshi.yesLabel).dedup
  let questionTokens := tokenize u (other.market.question ++ " " ++ other.market.yesLabel)
  let present := labelTokens.filter (· ∈ questionTokens)
  let score : ℚ := present.length / labelTokens.length
  if matchedByTeam then (1, "label agreement 1.000 (teams)")
  else if labelTokens = [] then
    (0, "label agreement 0.000 (Kalshi states no distinguishing label)")
  else
    (score, "label agreement " ++ formatFixed 3 score ++ " (" ++ reprTexts (sortTexts present) ++
      " of " ++ reprTexts (sortTexts labelTokens) ++ ")")

def qualifierTokens : List String :=
  ["vp", "vice", "deputy", "runner", "loser", "not", "without", "excluding", "runoff",
    "consecutive", "combined", "top", "second", "third", "highest", "lowest", "map", "global",
    "worldwide"]

/-- The first qualifier, in order, that exactly one side's claim carries. -/
def qualifierConflict (kalshiTokens otherTokens : List String) : Option String :=
  (sortTexts (qualifierTokens.filter fun token =>
    decide (token ∈ kalshiTokens) ≠ decide (token ∈ otherTokens))).head?

def timeAgreement (kalshi other : NormalizedMarket) : ℚ × String :=
  match kalshi.terms.scheduledEventTime, other.terms.scheduledEventTime with
  | some kalshiStart, some otherStart =>
    let delta := secondsBetween kalshiStart otherStart
    if delta ≤ config.scheduledTimeToleranceSeconds then
      (1, "scheduled start agrees within " ++ formatFixed 0 delta ++ "s")
    else (0, "scheduled start differs by " ++ formatFixed 0 delta ++ "s")
  | _, _ =>
    match kalshi.terms.expiryTime, other.terms.expiryTime with
    | some kalshiExpiry, some otherExpiry =>
      let delta := secondsBetween kalshiExpiry otherExpiry
      if delta ≤ config.expiryToleranceSeconds then
        (6 / 10, "expiry within " ++ formatFixed 1 (delta / 3600) ++
          "h (no scheduled start on either side)")
      else (0, "expiry differs by " ++ formatFixed 1 (delta / 3600) ++ "h")
    | _, _ => (3 / 10, "no comparable timestamps on both sides")

def score (kalshi other : Indexed) (weights : Dict String K) : K × List String :=
  let lexical := weightedOverlap kalshi.tokens other.tokens weights
  let (aligned, alignmentEvidence) := resolveAlignment u kalshi.market other.market
  let (timeScore, timeEvidence) := timeAgreement config kalshi.market other.market
  let matchedByTeam := aligned.isSome && "teams".toList <+: alignmentEvidence.toList
  let (labelScore, labelEvidence) := labelAgreement u kalshi.market other matchedByTeam
  (((45 / 100 : ℚ) : K) * lexical + ((20 / 100 * timeScore : ℚ) : K) +
      ((35 / 100 * labelScore : ℚ) : K),
    ["lexical overlap " ++ f.threePlaces lexical] ++
      (if alignmentEvidence = "" then [] else [alignmentEvidence]) ++
      [timeEvidence, labelEvidence])

def evaluate (kalshi other : Indexed) (weights : Dict String K) : Option (MatchedPair K) :=
  let aligned := (resolveAlignment u kalshi.market other.market).1
  let (score, evidence) := score u f config kalshi other weights
  let pair : MatchedPair K :=
    { kalshi := kalshi.market, other := other.market, aligned := aligned.getD true,
      confidence := .rejected, score := score, evidence := evidence }
  if score < ((config.minScore : ℚ) : K) then none
  else match qualifierConflict (tokenize u kalshi.market.claimText)
      (tokenize u other.market.claimText) with
    | some conflict => some { pair with
        blockers := ["only one side's wording carries " ++ pyRepr conflict ++
          ", which changes which claim is being made"] }
    | none => match aligned with
      | none => some { pair with
          blockers := ["could not determine which outcome corresponds to Kalshi YES"] }
      | some _ =>
        if score < ((config.strongScore : ℚ) : K) then
          some { pair with
            confidence := .weak
            blockers := ["score below the settlement gate's threshold"] }
        else
          let (blockers, gateEvidence) :=
            settlementBlockers u config kalshi.market other.market
          some { pair with
            confidence := if blockers = [] then .identical else .strong
            evidence := evidence ++ gateEvidence
            blockers := blockers }

/-- Enough of a score, the same claim and known sides: the gate has the last word. -/
structure ReachesGate (kalshi other : Indexed) (weights : Dict String K) : Prop where
  likely : ((config.minScore : ℚ) : K) ≤ (score u f config kalshi other weights).1
  strong : ((config.strongScore : ℚ) : K) ≤ (score u f config kalshi other weights).1
  sameClaim : qualifierConflict (tokenize u kalshi.market.claimText)
    (tokenize u other.market.claimText) = none
  aligned : (resolveAlignment u kalshi.market other.market).1.isSome

/-- What a returned pair carries, whatever the gate makes of it. -/
structure Carries (kalshi other : Indexed) (weights : Dict String K) (pair : MatchedPair K) :
    Prop where
  kalshiMarket : pair.kalshi = kalshi.market
  otherMarket : pair.other = other.market
  side : pair.aligned = (resolveAlignment u kalshi.market other.market).1.getD true
  scored : pair.score = (score u f config kalshi other weights).1
  likely : ((config.minScore : ℚ) : K) ≤ pair.score

theorem evaluate_carries {kalshi other : Indexed} {weights : Dict String K} {pair : MatchedPair K}
    (h : evaluate u f config kalshi other weights = some pair) :
    Carries u f config kalshi other weights pair := by
  rw [evaluate] at h
  dsimp only at h
  split at h
  · cases h
  next hLikely =>
    have hLikely := not_lt.mp hLikely
    split at h
    · cases h
      exact ⟨rfl, rfl, rfl, rfl, hLikely⟩
    · split at h
      next hAligned =>
        cases h
        exact ⟨rfl, rfl, by rw [hAligned], rfl, hLikely⟩
      · split at h
        · cases h
          exact ⟨rfl, rfl, rfl, rfl, hLikely⟩
        · cases h
          exact ⟨rfl, rfl, rfl, rfl, hLikely⟩

theorem evaluate_markets {kalshi other : Indexed} {weights : Dict String K} {pair : MatchedPair K}
    (h : evaluate u f config kalshi other weights = some pair) :
    pair.kalshi = kalshi.market ∧ pair.other = other.market :=
  ⟨(evaluate_carries u f config h).kalshiMarket, (evaluate_carries u f config h).otherMarket⟩

theorem evaluate_identical_iff (kalshi other : Indexed) (weights : Dict String K) :
    (∃ pair, evaluate u f config kalshi other weights = some pair ∧
      pair.confidence = .identical) ↔
    ReachesGate u f config kalshi other weights ∧
      (settlementBlockers u config kalshi.market other.market).1 = [] := by
  rw [evaluate]
  dsimp only
  constructor
  · rintro ⟨pair, hPair, hIdentical⟩
    split at hPair
    · cases hPair
    next hLikely =>
      split at hPair
      · cases hPair
        cases hIdentical
      next hClaim =>
        split at hPair
        · cases hPair
          cases hIdentical
        next side hAligned =>
          split at hPair
          · cases hPair
            cases hIdentical
          next hStrong =>
            cases hPair
            by_cases hClear : (settlementBlockers u config kalshi.market other.market).1 = []
            · exact ⟨⟨not_lt.mp hLikely, not_lt.mp hStrong, hClaim, hAligned ▸ rfl⟩, hClear⟩
            · simp only [if_neg hClear] at hIdentical
              cases hIdentical
  · rintro ⟨⟨hLikely, hStrong, hClaim, hAligned⟩, hClear⟩
    obtain ⟨side, hSide⟩ := Option.isSome_iff_exists.mp hAligned
    rw [if_neg (not_lt.mpr hLikely), hClaim, hSide]
    dsimp only
    rw [if_neg (not_lt.mpr hStrong), hClear]
    exact ⟨_, rfl, rfl⟩

/-- `int(count * 0.08)`, and at least one. -/
def indexCeiling (count : ℕ) : ℕ := max 1 (count * 8 / 100)

/-- The markets that carry each token, before the common ones are dropped. -/
def postings (entries : List Indexed) : Dict String (List Indexed) :=
  entries.foldl (fun postings entry =>
    entry.tokens.dedup.foldl (fun postings token =>
      postings.insert token (Dict.getD postings token [] ++ [entry])) postings) ∅

def buildIndex (entries : List Indexed) : Dict String (List Indexed) × ℕ :=
  let postings := postings entries
  let index := Dict.filterValues (fun markets : List Indexed =>
    decide (markets.length ≤ indexCeiling entries.length)) postings
  (index, Dict.size postings - Dict.size index)

/-- `items[:limit]` -/
def firstOf {α : Type} (limit : ℤ) (items : List α) : List α :=
  items.take (if 0 ≤ limit then limit else items.length + limit).toNat

/-- Heavier tokens first, ties by the token. -/
def tokenBefore (weights : Dict String K) (left right : String) : Prop :=
  toLex (-Dict.getD weights left 1, left) ≤ toLex (-Dict.getD weights right 1, right)

instance (weights : Dict String K) : DecidableRel (tokenBefore weights) :=
  fun _ _ => inferInstanceAs (Decidable (_ ≤ _))

def seeds (entry : Indexed) (weights : Dict String K) : List String :=
  (entry.tokens.dedup.insertionSort (tokenBefore weights)).take 6

/-- Larger totals first, ties by the market. -/
def hitBefore (left right : Indexed × K) : Prop :=
  toLex (-left.2, left.1.market.marketId) ≤ toLex (-right.2, right.1.market.marketId)

instance : DecidableRel (hitBefore (K := K)) := fun _ _ => inferInstanceAs (Decidable (_ ≤ _))

/-- What the seeds retrieve, by market, with the weights accumulated. -/
def hits (seeds : List String) (index : Dict String (List Indexed)) (weights : Dict String K) :
    Dict String (Indexed × K) :=
  seeds.foldl (fun hits token =>
    (Dict.getD index token []).foldl (fun hits candidate =>
      let key := candidate.market.marketId
      let accumulated := ((hits.lookup key).map Prod.snd).getD 0
      hits.insert key (candidate, accumulated + Dict.getD weights token 1)) hits) ∅

def candidates (entry : Indexed) (index : Dict String (List Indexed)) (weights : Dict String K) :
    List Indexed :=
  let ranked := (Dict.values (hits (seeds entry weights) index weights)).insertionSort hitBefore
  (firstOf config.maxCandidatesPerMarket ranked).map Prod.fst

structure MatchStats where
  kalshiMarkets : ℕ
  otherMarkets : ℕ
  totalPairs : ℕ
  indexedTokens : ℕ
  tokensDroppedAsTooCommon : ℕ
  candidatesScored : ℕ
deriving DecidableEq

def confidenceRank : MatchConfidence → ℕ
  | .identical => 0
  | .strong => 1
  | .weak => 2
  | .rejected => 3

def MatchedPair.key (pair : MatchedPair K) : ℕ ×ₗ K :=
  toLex (confidenceRank pair.confidence, -pair.score)

def corpusWeights (kalshiIndexed otherIndexed : List Indexed) : Dict String K :=
  inverseDocumentFrequency f (kalshiIndexed.map Indexed.tokens ++ otherIndexed.map Indexed.tokens)

def matchAll (kalshiMarkets otherMarkets : List NormalizedMarket) :
    List (MatchedPair K) × MatchStats :=
  let kalshiIndexed := kalshiMarkets.map (Indexed.of u)
  let otherIndexed := otherMarkets.map (Indexed.of u)
  if kalshiIndexed = [] ∨ otherIndexed = [] then
    ([], ⟨kalshiIndexed.length, otherIndexed.length, 0, 0, 0, 0⟩)
  else
    let weights := corpusWeights f kalshiIndexed otherIndexed
    let (index, droppedTokens) := buildIndex otherIndexed
    let scored := kalshiIndexed.flatMap fun entry =>
      (candidates config entry index weights).map fun candidate => (entry, candidate)
    let pairs := scored.filterMap fun (entry, candidate) =>
      evaluate u f config entry candidate weights
    (pairs.insertionSort fun left right => left.key ≤ right.key,
      ⟨kalshiIndexed.length, otherIndexed.length, kalshiIndexed.length * otherIndexed.length,
        Dict.size index, droppedTokens, scored.length⟩)

theorem exists_evaluate_of_mem_matchAll {kalshiMarkets otherMarkets : List NormalizedMarket}
    {pair : MatchedPair K} (h : pair ∈ (matchAll u f config kalshiMarkets otherMarkets).1) :
    ∃ kalshi other : Indexed, evaluate u f config kalshi other
      (corpusWeights f (kalshiMarkets.map (.of u)) (otherMarkets.map (.of u))) = some pair := by
  rw [matchAll] at h
  dsimp only at h
  split at h
  · cases h
  · rw [List.mem_insertionSort, List.mem_filterMap] at h
    obtain ⟨⟨entry, candidate⟩, -, hPair⟩ := h
    exact ⟨entry, candidate, hPair⟩

/-- Each identical pair has been through the gate, with tokens and weights of its own run. -/
theorem gate_passed_of_mem_matchAll {kalshiMarkets otherMarkets : List NormalizedMarket}
    {pair : MatchedPair K} (h : pair ∈ (matchAll u f config kalshiMarkets otherMarkets).1)
    (hIdentical : pair.confidence = .identical) :
    ∃ (kalshiTokens otherTokens : List String) (weights : Dict String K),
      ReachesGate u f config ⟨pair.kalshi, kalshiTokens⟩ ⟨pair.other, otherTokens⟩ weights ∧
        (settlementBlockers u config pair.kalshi pair.other).1 = [] := by
  obtain ⟨kalshi, other, hPair⟩ := exists_evaluate_of_mem_matchAll u f config h
  obtain ⟨hKalshi, hOther⟩ := evaluate_markets u f config hPair
  rw [hKalshi, hOther]
  exact ⟨kalshi.tokens, other.tokens, _,
    (evaluate_identical_iff u f config kalshi other _).mp ⟨pair, hPair, hIdentical⟩⟩

theorem clear_of_mem_matchAll {kalshiMarkets otherMarkets : List NormalizedMarket}
    {pair : MatchedPair K} (h : pair ∈ (matchAll u f config kalshiMarkets otherMarkets).1)
    (hIdentical : pair.confidence = .identical) :
    (settlementBlockers u config pair.kalshi pair.other).1 = [] := by
  obtain ⟨-, -, -, -, hClear⟩ := gate_passed_of_mem_matchAll u f config h hIdentical
  exact hClear

omit [Field K] [LinearOrder K] in
theorem exists_returned {pairs : List (MatchedPair K)} {kalshi other : NormalizedMarket}
    {confidence : MatchConfidence}
    (h : pairs.map (fun pair => (pair.kalshi, pair.other, pair.confidence)) =
      [(kalshi, other, confidence)]) :
    ∃ pair ∈ pairs, pair.kalshi = kalshi ∧ pair.other = other ∧ pair.confidence = confidence := by
  obtain ⟨pair, hPair, hFields⟩ := List.mem_map.mp (h ▸ List.mem_singleton_self _)
  obtain ⟨hKalshi, hRest⟩ := Prod.mk.inj hFields
  obtain ⟨hOther, hConfidence⟩ := Prod.mk.inj hRest
  exact ⟨pair, hPair, hKalshi, hOther, hConfidence⟩

end KalshiBot.CrossVenue

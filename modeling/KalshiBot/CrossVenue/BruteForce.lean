import KalshiBot.CrossVenue.MissingData

/-! # Indexed matching is the plain definition

The plain definition goes through all counterparty markets for every Kalshi market, counts
tokens where the index looks them up, and ranks what shares a heavy and rare token.
-/

namespace KalshiBot.CrossVenue

open PythonText

set_option autoImplicit false

variable {K : Type} [Field K] [LinearOrder K] (u : Unicode) (f : FloatMath K)
  (config : MatcherConfig)

/-- Sorting forgets the order of what it is given where no two members tie. -/
theorem insertionSort_eq_of_perm {α : Type} {r : α → α → Prop} [DecidableRel r] [Std.Total r]
    [IsTrans α r] {l l' : List α} (hAntisymm : ∀ a ∈ l, ∀ b ∈ l, r a b → r b a → a = b)
    (h : l.Perm l') : l.insertionSort r = l'.insertionSort r := by
  have hPerm : (l.insertionSort r).Perm (l'.insertionSort r) :=
    (l.perm_insertionSort r).trans (h.trans (l'.perm_insertionSort r).symm)
  refine hPerm.eq_of_pairwise ?_ (List.pairwise_insertionSort r l) (List.pairwise_insertionSort r l')
  intro a b hA hB
  exact hAntisymm a ((List.mem_insertionSort r).mp hA) b
    (h.mem_iff.mpr ((List.mem_insertionSort r).mp hB))

section Plain

variable (kalshi other : List Indexed)

def occurrences (entries : List Indexed) (token : String) : ℕ :=
  entries.countP fun entry => token ∈ entry.tokens

/-- Unseen tokens count as rare. -/
def weightOf (token : String) : K :=
  if occurrences (kalshi ++ other) token = 0 then 1
  else max 0 (f.log ((kalshi ++ other).length / (1 + occurrences (kalshi ++ other) token)))

def Heavier (left right : String) : Prop :=
  toLex (-weightOf f kalshi other left, left) ≤ toLex (-weightOf f kalshi other right, right)

instance : DecidableRel (Heavier f kalshi other) := fun _ _ => inferInstanceAs (Decidable (_ ≤ _))

def heaviest (entry : Indexed) : List String :=
  (entry.tokens.dedup.insertionSort (Heavier f kalshi other)).take 6

/-- Those of the heaviest tokens that the candidate has and few counterparty markets have. -/
def sharedTokens (entry candidate : Indexed) : List String :=
  (heaviest f kalshi other entry).filter fun token =>
    token ∈ candidate.tokens ∧ occurrences other token ≤ indexCeiling other.length

def sharedWeight (entry candidate : Indexed) : K :=
  ((sharedTokens f kalshi other entry candidate).map (weightOf f kalshi other)).sum

def RankedBefore (entry left right : Indexed) : Prop :=
  toLex (-sharedWeight f kalshi other entry left, left.market.marketId) ≤
    toLex (-sharedWeight f kalshi other entry right, right.market.marketId)

instance (entry : Indexed) : DecidableRel (RankedBefore f kalshi other entry) :=
  fun _ _ => inferInstanceAs (Decidable (_ ≤ _))

instance (entry : Indexed) : Std.Total (RankedBefore f kalshi other entry) :=
  ⟨fun _ _ => le_total _ _⟩

instance (entry : Indexed) : IsTrans Indexed (RankedBefore f kalshi other entry) :=
  ⟨fun _ _ _ => le_trans⟩

def ranked (entry : Indexed) : List Indexed :=
  (other.filter fun candidate => sharedTokens f kalshi other entry candidate ≠ []).insertionSort
    (RankedBefore f kalshi other entry)

def scoredPairs : List (Indexed × Indexed) :=
  kalshi.flatMap fun entry =>
    (firstOf config.maxCandidatesPerMarket (ranked f kalshi other entry)).map (entry, ·)

def bruteForce : List (MatchedPair K) :=
  (scoredPairs f config kalshi other).filterMap fun pair =>
    evaluate u f config pair.1 pair.2 (corpusWeights f kalshi other)

end Plain

section Index

variable {f} {kalshi other : List Indexed}

theorem lookup_documentFrequencies (documents : List (List String)) (token : String) :
    (documentFrequencies documents).lookup token =
      if documents.countP (token ∈ ·) = 0 then none else some (documents.countP (token ∈ ·)) := by
  have hCount : ∀ (documents : List (List String)) (count : ℕ),
      documents.foldl (fun value _ => some (value.getD 0 + 1)) (some count) =
        some (count + documents.length) := by
    intro documents
    induction documents with
    | nil => exact fun _ => rfl
    | cons document documents ih =>
      intro count
      rw [List.foldl_cons, Option.getD_some, ih, List.length_cons]
      congr 1
      omega
  have hLookup := Dict.lookup_foldl_touch (fun (_ : List String) (value : Option ℕ) =>
    value.getD 0 + 1) (fun document => document.nodup_dedup) documents ∅ token
  refine hLookup.trans ?_
  simp only [List.mem_dedup, AList.lookup_empty]
  rw [List.countP_eq_length_filter]
  cases documents.filter (token ∈ ·) with
  | nil => rfl
  | cons document documents =>
    rw [List.foldl_cons, Option.getD_none, hCount, List.length_cons, if_neg (Nat.succ_ne_zero _)]
    congr 1
    omega

theorem getD_corpusWeights (token : String) :
    Dict.getD (corpusWeights f kalshi other) token 1 = weightOf f kalshi other token := by
  have hOccurrences : (kalshi.map Indexed.tokens ++ other.map Indexed.tokens).countP (token ∈ ·) =
      occurrences (kalshi ++ other) token := by
    rw [← List.map_append, List.countP_map]
    rfl
  rw [corpusWeights, inverseDocumentFrequency, weightOf, ← hOccurrences, ← List.map_append,
    List.length_map]
  split
  next hEmpty =>
    rw [List.length_eq_zero_iff] at hEmpty
    rw [hEmpty]
    rfl
  next =>
    rw [Dict.getD, Dict.lookup_mapValues, lookup_documentFrequencies]
    split <;> rfl

theorem seeds_eq (entry : Indexed) :
    seeds entry (corpusWeights f kalshi other) = heaviest f kalshi other entry := by
  have hOrder : tokenBefore (corpusWeights f kalshi other) = Heavier f kalshi other := by
    funext left right
    rw [tokenBefore, getD_corpusWeights, getD_corpusWeights, Heavier]
  rw [seeds, heaviest]
  simp only [hOrder]

theorem lookup_postings (token : String) :
    (postings other).lookup token =
      if other.filter (token ∈ ·.tokens) = [] then none
      else some (other.filter (token ∈ ·.tokens)) := by
  have hCollect : ∀ entries collected : List Indexed,
      entries.foldl (fun value entry => some (value.getD [] ++ [entry])) (some collected) =
        some (collected ++ entries) := by
    intro entries
    induction entries with
    | nil => exact fun _ => by rw [List.append_nil]; rfl
    | cons entry entries ih =>
      intro collected
      rw [List.foldl_cons, Option.getD_some, ih, List.append_assoc, List.singleton_append]
  have hLookup := Dict.lookup_foldl_touch
    (fun (entry : Indexed) (value : Option (List Indexed)) => value.getD [] ++ [entry])
    (fun entry => entry.tokens.nodup_dedup) other ∅ token
  refine hLookup.trans ?_
  simp only [List.mem_dedup, AList.lookup_empty]
  cases other.filter (token ∈ ·.tokens) with
  | nil => rfl
  | cons entry entries =>
    rw [List.foldl_cons, Option.getD_none, hCollect, if_neg (List.cons_ne_nil _ _)]
    rfl

/-- What the index returns for a token: all its markets, or none where they are too many. -/
theorem getD_buildIndex (token : String) :
    Dict.getD (buildIndex other).1 token [] =
      if occurrences other token ≤ indexCeiling other.length then
        other.filter (token ∈ ·.tokens)
      else [] := by
  rw [buildIndex, Dict.getD, Dict.lookup_filterValues, lookup_postings, occurrences,
    List.countP_eq_length_filter]
  split
  next hNone =>
    rw [hNone]
    split <;> rfl
  next =>
    rw [Option.filter_some]
    simp only [decide_eq_true_eq]
    split <;> rfl

/-- No two markets of one venue have the same id. -/
def Distinct (entries : List Indexed) : Prop :=
  (entries.map fun entry => entry.market.marketId).Nodup

theorem Distinct.nodup {entries : List Indexed} (h : Distinct entries) : entries.Nodup :=
  List.Nodup.of_map _ h

theorem Distinct.eq_of_id {entries : List Indexed} (h : Distinct entries) {left right : Indexed}
    (hLeft : left ∈ entries) (hRight : right ∈ entries)
    (hId : left.market.marketId = right.market.marketId) : left = right :=
  List.inj_on_of_nodup_map h hLeft hRight hId

/-- One occurrence of a seed in a candidate, as the loop over the index meets them. -/
def occasions (seeds : List String) (index : Dict String (List Indexed))
    (weights : Dict String K) : List (Indexed × K) :=
  seeds.flatMap fun token =>
    (Dict.getD index token []).map fun candidate => (candidate, Dict.getD weights token 1)

omit [LinearOrder K] in
theorem lookup_hits (seeds : List String) (index : Dict String (List Indexed))
    (weights : Dict String K) (key : String) :
    (hits seeds index weights).lookup key =
      ((occasions seeds index weights).filter fun occasion =>
        key = occasion.1.market.marketId).foldl
          (fun value occasion => some (occasion.1, (value.map Prod.snd).getD 0 + occasion.2))
          none := by
  have hLookup := Dict.lookup_foldl_touch
    (fun (occasion : Indexed × K) (value : Option (Indexed × K)) =>
      (occasion.1, (value.map Prod.snd).getD 0 + occasion.2))
    (fun occasion => List.nodup_singleton occasion.1.market.marketId)
    (occasions seeds index weights) ∅ key
  simp only [List.mem_singleton, AList.lookup_empty] at hLookup
  rw [← hLookup, hits, occasions, List.foldl_flatMap]
  simp only [List.foldl_map, Dict.touch, List.foldl_cons, List.foldl_nil]

omit [LinearOrder K] in
theorem foldl_occasions (candidate : Indexed) (weights : List K) :
    (weights.map fun weight => (candidate, weight)).foldl
        (fun value occasion => some (occasion.1, (value.map Prod.snd).getD 0 + occasion.2)) none =
      if weights = [] then none else some (candidate, weights.sum) := by
  have hAdd : ∀ (weights : List K) (total : K),
      (weights.map fun weight => (candidate, weight)).foldl
          (fun value occasion => some (occasion.1, (value.map Prod.snd).getD 0 + occasion.2))
          (some (candidate, total)) = some (candidate, total + weights.sum) := by
    intro weights
    induction weights with
    | nil => exact fun total => by rw [List.sum_nil, add_zero]; rfl
    | cons weight weights ih =>
      intro total
      rw [List.map_cons, List.foldl_cons, List.sum_cons, ← add_assoc]
      exact ih (total + weight)
  cases weights with
  | nil => rfl
  | cons weight weights =>
    rw [List.map_cons, List.foldl_cons, if_neg (List.cons_ne_nil _ _), List.sum_cons]
    exact (hAdd weights (0 + weight)).trans (by rw [zero_add])

theorem Distinct.filter_id {entries : List Indexed} (h : Distinct entries) {candidate : Indexed}
    (hMem : candidate ∈ entries) :
    (entries.filter fun entry => candidate.market.marketId = entry.market.marketId) =
      [candidate] := by
  have hSame : (entries.filter fun entry => candidate.market.marketId = entry.market.marketId) =
      entries.filter (· = candidate) := by
    refine List.filter_congr fun entry hEntry => decide_eq_decide.mpr ?_
    constructor
    · exact fun hId => h.eq_of_id hEntry hMem hId.symm
    · rintro rfl
      rfl
  rw [hSame, List.filter_eq, List.count_eq_one_of_mem h.nodup hMem]
  rfl

variable {entry : Indexed}

theorem filter_occasions (hDistinct : Distinct other) {candidate : Indexed}
    (hMem : candidate ∈ other) :
    ((occasions (heaviest f kalshi other entry) (buildIndex other).1
        (corpusWeights f kalshi other)).filter fun occasion =>
      candidate.market.marketId = occasion.1.market.marketId) =
    ((sharedTokens f kalshi other entry candidate).map (weightOf f kalshi other)).map fun weight =>
      (candidate, weight) := by
  rw [occasions, sharedTokens, List.filter_flatMap, List.map_map]
  induction heaviest f kalshi other entry with
  | nil => rfl
  | cons token tokens ih =>
    rw [List.flatMap_cons, ih, getD_buildIndex, getD_corpusWeights, List.filter_map,
      List.filter_cons]
    simp only [Function.comp_def, decide_eq_true_eq]
    split
    next hRare =>
      rw [List.filter_filter, List.filter_congr fun entry _ => Bool.and_comm _ _,
        ← List.filter_filter, hDistinct.filter_id hMem, List.filter_singleton]
      simp only [hRare, and_true]
      split
      next hToken =>
        rw [decide_eq_true hToken]
        rfl
      next hToken =>
        rw [decide_eq_false hToken]
        rfl
    next hCommon =>
      simp only [hCommon, and_false, if_false]
      rfl

theorem candidate_of_occasion {occasion : Indexed × K}
    (h : occasion ∈ occasions (heaviest f kalshi other entry) (buildIndex other).1
      (corpusWeights f kalshi other)) : occasion.1 ∈ other := by
  obtain ⟨token, -, hMem⟩ := List.mem_flatMap.mp h
  obtain ⟨candidate, hCandidate, rfl⟩ := List.mem_map.mp hMem
  rw [getD_buildIndex] at hCandidate
  split at hCandidate
  · exact List.mem_of_mem_filter hCandidate
  · cases hCandidate

theorem lookup_hits_of_mem (hDistinct : Distinct other) {candidate : Indexed}
    (hMem : candidate ∈ other) :
    (hits (heaviest f kalshi other entry) (buildIndex other).1
        (corpusWeights f kalshi other)).lookup candidate.market.marketId =
      if sharedTokens f kalshi other entry candidate = [] then none
      else some (candidate, sharedWeight f kalshi other entry candidate) := by
  rw [lookup_hits, filter_occasions hDistinct hMem, foldl_occasions]
  simp only [List.map_eq_nil_iff]
  rfl

theorem lookup_hits_eq_some_iff (hDistinct : Distinct other) {key : String}
    {hit : Indexed × K} :
    (hits (heaviest f kalshi other entry) (buildIndex other).1
        (corpusWeights f kalshi other)).lookup key = some hit ↔
      ∃ candidate ∈ other, sharedTokens f kalshi other entry candidate ≠ [] ∧
        candidate.market.marketId = key ∧
          (candidate, sharedWeight f kalshi other entry candidate) = hit := by
  constructor
  · intro hLookup
    have hSome : ∃ occasion ∈ occasions (heaviest f kalshi other entry) (buildIndex other).1
        (corpusWeights f kalshi other), key = occasion.1.market.marketId := by
      by_contra hNone
      rw [lookup_hits, List.filter_eq_nil_iff.mpr] at hLookup
      · cases hLookup
      · exact fun occasion hMem hKey => hNone ⟨occasion, hMem, of_decide_eq_true hKey⟩
    obtain ⟨occasion, hMem, rfl⟩ := hSome
    have hCandidate := candidate_of_occasion hMem
    rw [lookup_hits_of_mem hDistinct hCandidate] at hLookup
    split at hLookup
    · cases hLookup
    next hShared => exact ⟨occasion.1, hCandidate, hShared, rfl, Option.some.inj hLookup⟩
  · rintro ⟨candidate, hMem, hShared, rfl, rfl⟩
    rw [lookup_hits_of_mem hDistinct hMem, if_neg hShared]

/-- The hits are the sharing markets, each with what it shares. -/
theorem values_hits (hDistinct : Distinct other) :
    (Dict.values (hits (heaviest f kalshi other entry) (buildIndex other).1
      (corpusWeights f kalshi other))).Perm
    ((other.filter fun candidate => sharedTokens f kalshi other entry candidate ≠ []).map
      fun candidate => (candidate, sharedWeight f kalshi other entry candidate)) := by
  set d := hits (heaviest f kalshi other entry) (buildIndex other).1 (corpusWeights f kalshi other)
    with hHits
  refine (List.perm_ext_iff_of_nodup ?_ ?_).mpr fun hit => ?_
  · have hKeys : (Dict.values d).map (fun hit => hit.1.market.marketId) = d.keys := by
      rw [Dict.values, List.map_map, AList.keys, List.keys]
      refine List.map_congr_left fun item hItem => ?_
      obtain ⟨candidate, -, -, hId, hHit⟩ :=
        (lookup_hits_eq_some_iff hDistinct).mp (AList.mem_lookup_iff.mpr hItem)
      rw [← hId, Function.comp_apply, ← hHit]
    exact List.Nodup.of_map _ (hKeys ▸ d.keys_nodup)
  · exact (hDistinct.nodup.filter _).map fun _ _ hEq => congrArg Prod.fst hEq
  · rw [Dict.mem_values_iff, List.mem_map]
    simp only [hHits, lookup_hits_eq_some_iff hDistinct, List.mem_filter, decide_eq_true_eq]
    constructor
    · rintro ⟨key, candidate, hMem, hShared, -, rfl⟩
      exact ⟨candidate, ⟨hMem, hShared⟩, rfl⟩
    · rintro ⟨candidate, ⟨hMem, hShared⟩, rfl⟩
      exact ⟨_, candidate, hMem, hShared, rfl, rfl⟩

instance : Std.Total (hitBefore (K := K)) := ⟨fun _ _ => le_total _ _⟩

instance : IsTrans (Indexed × K) hitBefore := ⟨fun _ _ _ => le_trans⟩

theorem RankedBefore.antisymm (hDistinct : Distinct other) {left right : Indexed}
    (hLeft : left ∈ other) (hRight : right ∈ other) (h : RankedBefore f kalshi other entry left right)
    (h' : RankedBefore f kalshi other entry right left) : left = right :=
  hDistinct.eq_of_id hLeft hRight (Prod.mk.inj (toLex_inj.mp (le_antisymm h h'))).2

theorem firstOf_map {α β : Type} (limit : ℤ) (g : α → β) (items : List α) :
    firstOf limit (items.map g) = (firstOf limit items).map g := by
  rw [firstOf, firstOf, List.length_map, List.map_take]

theorem candidates_eq (hDistinct : Distinct other) :
    candidates config entry (buildIndex other).1 (corpusWeights f kalshi other) =
      firstOf config.maxCandidatesPerMarket (ranked f kalshi other entry) := by
  have hSorted : (Dict.values (hits (heaviest f kalshi other entry) (buildIndex other).1
      (corpusWeights f kalshi other))).insertionSort hitBefore =
        (ranked f kalshi other entry).map fun candidate =>
          (candidate, sharedWeight f kalshi other entry candidate) := by
    rw [ranked, List.map_insertionSort (RankedBefore f kalshi other entry) hitBefore _ _
      fun _ _ _ _ => Iff.rfl]
    refine (insertionSort_eq_of_perm ?_ (values_hits hDistinct).symm).symm
    intro left hLeft right hRight h h'
    obtain ⟨left, hLeftMem, rfl⟩ := List.mem_map.mp hLeft
    obtain ⟨right, hRightMem, rfl⟩ := List.mem_map.mp hRight
    rw [RankedBefore.antisymm hDistinct (List.mem_of_mem_filter hLeftMem)
      (List.mem_of_mem_filter hRightMem) h h']
  rw [candidates, seeds_eq, hSorted, firstOf_map, List.map_map]
  exact List.map_id _

theorem nodup_ranked (hDistinct : Distinct other) : (ranked f kalshi other entry).Nodup :=
  (List.perm_insertionSort _ _).nodup_iff.mpr (hDistinct.nodup.filter _)

end Index

variable {u config} {kalshiMarkets otherMarkets : List NormalizedMarket}

theorem distinct_of_markets (h : (otherMarkets.map NormalizedMarket.marketId).Nodup) :
    Distinct (otherMarkets.map (.of u)) := by
  rw [Distinct, List.map_map]
  exact h

theorem scoredPairs_of_empty {kalshi other : List Indexed} (h : kalshi = [] ∨ other = []) :
    scoredPairs f config kalshi other = [] := by
  obtain rfl | rfl := h
  · rfl
  · refine List.flatMap_eq_nil_iff.mpr fun entry _ => ?_
    rw [ranked, List.filter_nil, List.insertionSort_nil, firstOf, List.take_nil, List.map_nil]

theorem matchAll_eq (h : (otherMarkets.map NormalizedMarket.marketId).Nodup) :
    (matchAll u f config kalshiMarkets otherMarkets).1 =
      (bruteForce u f config (kalshiMarkets.map (.of u)) (otherMarkets.map (.of u))).insertionSort
        (fun left right => left.key ≤ right.key) ∧
    (matchAll u f config kalshiMarkets otherMarkets).2.candidatesScored =
      (scoredPairs f config (kalshiMarkets.map (.of u)) (otherMarkets.map (.of u))).length := by
  rw [matchAll, bruteForce]
  dsimp only
  split
  next hEmpty =>
    rw [scoredPairs_of_empty f hEmpty]
    exact ⟨rfl, rfl⟩
  next =>
    simp only [candidates_eq config (distinct_of_markets h)]
    exact ⟨rfl, rfl⟩

/-- The result, with nothing said about its order, and the pairs counted. -/
structure MatchesBruteForce (u : Unicode) (config : MatcherConfig)
    (kalshiMarkets otherMarkets : List NormalizedMarket) : Prop where
  pairs : (matchAll u f config kalshiMarkets otherMarkets).1.Perm
    (bruteForce u f config (kalshiMarkets.map (.of u)) (otherMarkets.map (.of u)))
  once : ∀ kalshi other, ((matchAll u f config kalshiMarkets otherMarkets).1.countP fun pair =>
    pair.kalshi = kalshi ∧ pair.other = other) ≤ kalshiMarkets.count kalshi
  ordered : (matchAll u f config kalshiMarkets otherMarkets).1.Pairwise fun left right =>
    left.key ≤ right.key
  scored : (matchAll u f config kalshiMarkets otherMarkets).2.candidatesScored =
    (scoredPairs f config (kalshiMarkets.map (.of u)) (otherMarkets.map (.of u))).length
  total : (matchAll u f config kalshiMarkets otherMarkets).2.totalPairs =
    kalshiMarkets.length * otherMarkets.length

section Once

variable {f} {kalshi other : List Indexed}

theorem firstOf_sublist {α : Type} (limit : ℤ) (items : List α) :
    (firstOf limit items).Sublist items := List.take_sublist _ _

theorem countP_chosen_le (config : MatcherConfig) (hDistinct : Distinct other)
    (hOf : ∀ candidate ∈ other, candidate = .of u candidate.market) (entry : Indexed)
    (market : NormalizedMarket) :
    (firstOf config.maxCandidatesPerMarket (ranked f kalshi other entry)).countP
      (fun candidate => candidate.market = market) ≤ 1 := by
  have hSublist := firstOf_sublist config.maxCandidatesPerMarket (ranked f kalshi other entry)
  have hNodup := (nodup_ranked hDistinct).sublist hSublist
  refine le_trans (List.countP_mono_left fun candidate hMem hMarket => ?_)
    (List.nodup_iff_count_le_one.mp hNodup (.of u market))
  have hOther := (List.mem_insertionSort _).mp (hSublist.subset hMem)
  rw [beq_iff_eq, hOf candidate (List.mem_of_mem_filter hOther), of_decide_eq_true hMarket]

theorem countP_scored_le (hDistinct : Distinct other)
    (hOf : ∀ candidate ∈ other, candidate = .of u candidate.market)
    (left right : NormalizedMarket) (markets : List NormalizedMarket) :
    ((markets.map (.of u)).flatMap fun entry =>
      (firstOf config.maxCandidatesPerMarket (ranked f kalshi other entry)).map
        (entry, ·)).countP (fun pair => pair.1.market = left ∧ pair.2.market = right) ≤
      markets.count left := by
  induction markets with
  | nil => exact le_rfl
  | cons market markets ih =>
    rw [List.map_cons, List.flatMap_cons, List.countP_append, List.countP_map, List.count_cons,
      add_comm]
    refine Nat.add_le_add ih ?_
    simp only [Function.comp_def, beq_iff_eq]
    split
    next hMarket =>
      refine (List.countP_mono_left fun candidate _ h => ?_).trans
        (countP_chosen_le config hDistinct hOf (.of u market) right)
      exact decide_eq_true (of_decide_eq_true h).2
    next hMarket =>
      refine (List.countP_eq_zero.mpr fun candidate _ h => ?_).le
      exact hMarket (of_decide_eq_true h).1

end Once

theorem countP_bruteForce_le (h : (otherMarkets.map NormalizedMarket.marketId).Nodup)
    (left right : NormalizedMarket) :
    ((bruteForce u f config (kalshiMarkets.map (.of u)) (otherMarkets.map (.of u))).countP
      fun pair => pair.kalshi = left ∧ pair.other = right) ≤ kalshiMarkets.count left := by
  have hOf : ∀ candidate ∈ otherMarkets.map (Indexed.of u), candidate = .of u candidate.market := by
    intro candidate hMem
    obtain ⟨market, -, rfl⟩ := List.mem_map.mp hMem
    rfl
  rw [bruteForce, List.countP_filterMap]
  refine le_trans (List.countP_mono_left fun pair _ hPair => ?_)
    (countP_scored_le (distinct_of_markets h) hOf left right kalshiMarkets)
  cases hEvaluate : evaluate u f config pair.1 pair.2
      (corpusWeights f (kalshiMarkets.map (.of u)) (otherMarkets.map (.of u))) with
  | none =>
    rw [hEvaluate] at hPair
    cases hPair
  | some matched =>
    rw [hEvaluate] at hPair
    obtain ⟨hLeft, hRight⟩ := of_decide_eq_true hPair
    obtain ⟨hKalshi, hOther⟩ := evaluate_markets u f config hEvaluate
    exact decide_eq_true ⟨hKalshi.symm.trans hLeft, hOther.symm.trans hRight⟩

theorem matchesBruteForce (h : (otherMarkets.map NormalizedMarket.marketId).Nodup) :
    MatchesBruteForce f u config kalshiMarkets otherMarkets := by
  obtain ⟨hPairs, hScored⟩ : (matchAll u f config kalshiMarkets otherMarkets).1 = _ ∧ _ :=
    matchAll_eq f h
  have hPerm := List.perm_insertionSort (fun left right : MatchedPair K => left.key ≤ right.key)
    (bruteForce u f config (kalshiMarkets.map (.of u)) (otherMarkets.map (.of u)))
  rw [← hPairs] at hPerm
  refine ⟨hPerm, fun left right => ?_, ?_, hScored, ?_⟩
  · rw [hPerm.countP_eq]
    exact countP_bruteForce_le f h left right
  · have hTotal : Std.Total fun left right : MatchedPair K => left.key ≤ right.key :=
      ⟨fun _ _ => le_total _ _⟩
    have hTrans : IsTrans (MatchedPair K) fun left right => left.key ≤ right.key :=
      ⟨fun _ _ _ => le_trans⟩
    rw [hPairs]
    exact List.pairwise_insertionSort _ _
  · rw [matchAll]
    dsimp only
    split
    next hEmpty =>
      rw [List.map_eq_nil_iff, List.map_eq_nil_iff] at hEmpty
      obtain rfl | rfl := hEmpty
      · rw [List.length_nil, Nat.zero_mul]
      · rw [List.length_nil, Nat.mul_zero]
    next => rw [List.length_map, List.length_map]

section Permuted

variable {f} {kalshi other kalshi' other' : List Indexed}

theorem occurrences_perm {entries entries' : List Indexed} (h : entries'.Perm entries) :
    occurrences entries' = occurrences entries :=
  funext fun _ => h.countP_eq _

theorem weightOf_perm (hKalshi : kalshi'.Perm kalshi) (hOther : other'.Perm other) :
    weightOf f kalshi' other' = weightOf f kalshi other := by
  funext token
  rw [weightOf, weightOf, occurrences_perm (hKalshi.append hOther),
    (hKalshi.append hOther).length_eq]

theorem heaviest_perm (hKalshi : kalshi'.Perm kalshi) (hOther : other'.Perm other) :
    heaviest f kalshi' other' = heaviest f kalshi other := by
  have hOrder : Heavier f kalshi' other' = Heavier f kalshi other := by
    funext left right
    rw [Heavier, weightOf_perm hKalshi hOther, Heavier]
  funext entry
  rw [heaviest, heaviest]
  simp only [hOrder]

theorem sharedTokens_perm (hKalshi : kalshi'.Perm kalshi) (hOther : other'.Perm other) :
    sharedTokens f kalshi' other' = sharedTokens f kalshi other := by
  funext entry candidate
  rw [sharedTokens, heaviest_perm hKalshi hOther, occurrences_perm hOther, hOther.length_eq,
    sharedTokens]

theorem sharedWeight_perm (hKalshi : kalshi'.Perm kalshi) (hOther : other'.Perm other) :
    sharedWeight f kalshi' other' = sharedWeight f kalshi other := by
  funext entry candidate
  rw [sharedWeight, sharedTokens_perm hKalshi hOther, weightOf_perm hKalshi hOther, sharedWeight]

/-- The ranking leaves no ties, so it does not see the order of the corpus. -/
theorem ranked_perm (hDistinct : Distinct other) (hKalshi : kalshi'.Perm kalshi)
    (hOther : other'.Perm other) : ranked f kalshi' other' = ranked f kalshi other := by
  funext entry
  have hOrder : RankedBefore f kalshi' other' entry = RankedBefore f kalshi other entry := by
    funext left right
    rw [RankedBefore, sharedWeight_perm hKalshi hOther, RankedBefore]
  rw [ranked, sharedTokens_perm hKalshi hOther]
  simp only [hOrder]
  refine (insertionSort_eq_of_perm ?_ (hOther.symm.filter _)).symm
  intro left hLeft right hRight h h'
  exact RankedBefore.antisymm hDistinct (List.mem_of_mem_filter hLeft)
    (List.mem_of_mem_filter hRight) h h'

theorem scoredPairs_perm (hDistinct : Distinct other) (hKalshi : kalshi'.Perm kalshi)
    (hOther : other'.Perm other) :
    (scoredPairs f config kalshi' other').Perm (scoredPairs f config kalshi other) := by
  rw [scoredPairs, ranked_perm hDistinct hKalshi hOther]
  exact hKalshi.flatMap_right _

theorem evaluate_congr {weights weights' : Dict String K}
    (h : ∀ token, Dict.getD weights' token 1 = Dict.getD weights token 1) (entry candidate : Indexed) :
    evaluate u f config entry candidate weights' = evaluate u f config entry candidate weights := by
  have hScore : score u f config entry candidate weights' =
      score u f config entry candidate weights := by
    rw [score, score, weightedOverlap, weightedOverlap]
    simp only [h]
  rw [evaluate, evaluate, hScore]

theorem bruteForce_perm (hDistinct : Distinct other) (hKalshi : kalshi'.Perm kalshi)
    (hOther : other'.Perm other) :
    (bruteForce u f config kalshi' other').Perm (bruteForce u f config kalshi other) := by
  have hWeights : ∀ token, Dict.getD (corpusWeights f kalshi' other') token 1 =
      Dict.getD (corpusWeights f kalshi other) token 1 := by
    intro token
    rw [getD_corpusWeights, getD_corpusWeights, weightOf_perm hKalshi hOther]
  rw [bruteForce]
  simp only [evaluate_congr hWeights]
  exact (scoredPairs_perm hDistinct hKalshi hOther).filterMap _

end Permuted

/-- Another order of the inputs reorders ties, and nothing else. -/
structure SameUpToTies (left right : List (MatchedPair K)) : Prop where
  pairs : left.Perm right
  keys : left.map MatchedPair.key = right.map MatchedPair.key

theorem sameUpToTies_of_perm {left right : List (MatchedPair K)} (h : left.Perm right)
    (hLeft : left.Pairwise fun a b => a.key ≤ b.key)
    (hRight : right.Pairwise fun a b => a.key ≤ b.key) : SameUpToTies left right where
  pairs := h
  keys := (h.map _).eq_of_pairwise (fun _ _ _ _ => le_antisymm)
    (List.pairwise_map.mpr hLeft) (List.pairwise_map.mpr hRight)

theorem matchAll_exact (u : Unicode) (f : FloatMath K) (config : MatcherConfig)
    (kalshiMarkets otherMarkets : List NormalizedMarket)
    (hDistinct : (otherMarkets.map NormalizedMarket.marketId).Nodup) :
    MatchesBruteForce f u config kalshiMarkets otherMarkets ∧
      ∀ kalshiMarkets' otherMarkets', kalshiMarkets'.Perm kalshiMarkets →
        otherMarkets'.Perm otherMarkets →
          SameUpToTies (matchAll u f config kalshiMarkets' otherMarkets').1
            (matchAll u f config kalshiMarkets otherMarkets).1 := by
  have hHere : MatchesBruteForce f u config kalshiMarkets otherMarkets :=
    matchesBruteForce f hDistinct
  refine ⟨hHere, ?_⟩
  intro kalshiMarkets' otherMarkets' hKalshi hOther
  have hThere : MatchesBruteForce f u config kalshiMarkets' otherMarkets' :=
    matchesBruteForce f ((hOther.map _).nodup_iff.mpr hDistinct)
  have hPlain : (bruteForce u f config (kalshiMarkets'.map (.of u))
      (otherMarkets'.map (.of u))).Perm
        (bruteForce u f config (kalshiMarkets.map (.of u)) (otherMarkets.map (.of u))) :=
    bruteForce_perm (distinct_of_markets hDistinct) (hKalshi.map _) (hOther.map _)
  exact sameUpToTies_of_perm (hThere.pairs.trans (hPlain.trans hHere.pairs.symm)) hThere.ordered
    hHere.ordered

theorem fedCut_matchAll_exact :
    MatchesBruteForce twoDocuments .ascii {} [fedCutKalshi] [fedCutOther, fedCutKalshi] ∧
      ∀ kalshiMarkets' otherMarkets', kalshiMarkets'.Perm [fedCutKalshi] →
        otherMarkets'.Perm [fedCutOther, fedCutKalshi] →
          SameUpToTies (matchAll .ascii twoDocuments {} kalshiMarkets' otherMarkets').1
            (matchAll .ascii twoDocuments {} [fedCutKalshi] [fedCutOther, fedCutKalshi]).1 :=
  matchAll_exact .ascii twoDocuments {} [fedCutKalshi] [fedCutOther, fedCutKalshi] (by decide)

end KalshiBot.CrossVenue

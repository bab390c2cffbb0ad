import KalshiBot.CrossVenue.BruteForce
import KalshiBot.CrossVenue.ScoreBounds
import KalshiBot.CrossVenue.TokenWording

/-! # Which pairs can be retrieved

A market is retrieved through a token of its own. Every token can be the one: among markets that
have all the other tokens it is the only one with a weight.
-/

namespace KalshiBot.CrossVenue

open PythonText

set_option autoImplicit false

variable (u : Unicode) (kalshi other : NormalizedMarket)

def ShareToken : Prop :=
  ∃ token ∈ tokenize u kalshi.searchText, token ∈ tokenize u other.searchText

instance : Decidable (ShareToken u kalshi other) := inferInstanceAs (Decidable (∃ _ ∈ _, _))

/-- A logarithm has the sign of how its argument compares to one. -/
structure FloatMath.Lawful {K : Type} [Field K] [LinearOrder K] (f : FloatMath K) : Prop where
  log_pos : ∀ q, 1 < q → 0 < f.log q
  log_nonpos : ∀ q, 0 < q → q ≤ 1 → f.log q ≤ 0

theorem twoDocuments_lawful : twoDocuments.Lawful where
  log_pos _ := sub_pos.mpr
  log_nonpos _ _ := sub_nonpos.mpr

variable {u kalshi other} {K : Type} [Field K] [LinearOrder K] {f : FloatMath K}
  {config : MatcherConfig}

theorem tokens_of (market : NormalizedMarket) :
    (Indexed.of u market).tokens = tokenize u market.searchText := by rw [Indexed.of]

theorem mem_tokens_of {market : NormalizedMarket} {token : String} :
    token ∈ (Indexed.of u market).tokens ↔ token ∈ tokenize u market.searchText := by
  rw [tokens_of]

theorem market_of (market : NormalizedMarket) : (Indexed.of u market).market = market := by
  rw [Indexed.of]

section Retrieved

theorem mem_seeds {entry : Indexed} {weights : Dict String K} {token : String}
    (h : token ∈ seeds entry weights) : token ∈ entry.tokens :=
  List.mem_dedup.mp ((List.mem_insertionSort _).mp (List.mem_of_mem_take h))

omit [LinearOrder K] in
/-- Every hit was put there by some occurrence of a seed in it. -/
theorem occasion_of_hit {seeds : List String} {index : Dict String (List Indexed)}
    {weights : Dict String K} {hit : Indexed × K}
    (h : hit ∈ Dict.values (hits seeds index weights)) :
    ∃ occasion ∈ occasions seeds index weights, occasion.1 = hit.1 := by
  obtain ⟨key, hLookup⟩ := Dict.mem_values_iff.mp h
  rw [lookup_hits] at hLookup
  obtain hNone | ⟨before, last, hLast⟩ := List.eq_nil_or_concat
    ((occasions seeds index weights).filter fun occasion => key = occasion.1.market.marketId)
  · rw [hNone] at hLookup
    cases hLookup
  · rw [List.concat_eq_append] at hLast
    rw [hLast, List.foldl_append] at hLookup
    cases hLookup
    have hMem : last ∈ (occasions seeds index weights).filter fun occasion =>
        key = occasion.1.market.marketId := by
      rw [hLast]
      exact List.mem_append_right _ (List.mem_singleton_self _)
    exact ⟨last, List.mem_of_mem_filter hMem, rfl⟩

theorem mem_candidates {entry candidate : Indexed} {entries : List Indexed}
    {weights : Dict String K}
    (h : candidate ∈ candidates config entry (buildIndex entries).1 weights) :
    candidate ∈ entries ∧ ∃ token ∈ entry.tokens, token ∈ candidate.tokens := by
  obtain ⟨hit, hRanked, rfl⟩ := List.mem_map.mp h
  obtain ⟨occasion, hOccasion, hSame⟩ :=
    occasion_of_hit ((List.mem_insertionSort _).mp ((firstOf_sublist _ _).subset hRanked))
  obtain ⟨token, hSeed, hMem⟩ := List.mem_flatMap.mp hOccasion
  obtain ⟨market, hMarket, rfl⟩ := List.mem_map.mp hMem
  rw [getD_buildIndex] at hMarket
  split at hMarket
  · obtain ⟨hEntry, hToken⟩ := List.mem_filter.mp hMarket
    rw [← hSame]
    exact ⟨hEntry, token, mem_seeds hSeed, of_decide_eq_true hToken⟩
  · cases hMarket

theorem shareToken_of_mem_matchAll {kalshiMarkets otherMarkets : List NormalizedMarket}
    {pair : MatchedPair K} (h : pair ∈ (matchAll u f config kalshiMarkets otherMarkets).1) :
    ShareToken u pair.kalshi pair.other := by
  rw [matchAll] at h
  dsimp only at h
  split at h
  · cases h
  · rw [List.mem_insertionSort, List.mem_filterMap] at h
    obtain ⟨scored, hScored, hPair⟩ := h
    obtain ⟨entry, hEntry, hCandidates⟩ := List.mem_flatMap.mp hScored
    obtain ⟨candidate, hCandidate, rfl⟩ := List.mem_map.mp hCandidates
    obtain ⟨hOther, token, hLeft, hRight⟩ := mem_candidates hCandidate
    obtain ⟨market, -, rfl⟩ := List.mem_map.mp hEntry
    obtain ⟨market', -, rfl⟩ := List.mem_map.mp hOther
    obtain ⟨hKalshi, hOther⟩ := evaluate_markets u f config hPair
    rw [hKalshi, hOther, market_of, market_of]
    exact ⟨token, mem_tokens_of.mp hLeft, mem_tokens_of.mp hRight⟩

end Retrieved

section Heaviest

variable {entry : Indexed} {kalshiEntries otherEntries : List Indexed}

instance : Std.Total (Heavier f kalshiEntries otherEntries) := ⟨fun _ _ => le_total _ _⟩

instance : IsTrans String (Heavier f kalshiEntries otherEntries) := ⟨fun _ _ _ => le_trans⟩

variable [IsStrictOrderedRing K]

theorem weight_le_of_heavier {left right : String}
    (h : Heavier f kalshiEntries otherEntries left right) :
    weightOf f kalshiEntries otherEntries right ≤ weightOf f kalshiEntries otherEntries left := by
  obtain hLess | ⟨hSame, -⟩ := Prod.Lex.toLex_le_toLex.mp h
  · exact neg_le_neg_iff.mp hLess.le
  · exact neg_le_neg_iff.mp hSame.le

/-- A token with more weight than the market's others is the first of its seeds. -/
theorem mem_heaviest_of_forall {token : String} (hToken : token ∈ entry.tokens)
    (h : ∀ common ∈ entry.tokens, common ≠ token →
      weightOf f kalshiEntries otherEntries common < weightOf f kalshiEntries otherEntries token) :
    token ∈ heaviest f kalshiEntries otherEntries entry := by
  have hSorted := List.pairwise_insertionSort (Heavier f kalshiEntries otherEntries)
    entry.tokens.dedup
  have hMem : ∀ common, common ∈ entry.tokens.dedup.insertionSort
      (Heavier f kalshiEntries otherEntries) ↔ common ∈ entry.tokens := by
    intro common
    rw [List.mem_insertionSort, List.mem_dedup]
  have hHere := (hMem token).mpr hToken
  rw [heaviest]
  generalize entry.tokens.dedup.insertionSort (Heavier f kalshiEntries otherEntries) = sorted
    at hMem hHere hSorted
  cases sorted with
  | nil => cases hHere
  | cons first rest =>
    obtain rfl | hRest := List.mem_cons.mp hHere
    · exact List.mem_cons_self
    · have hFirst := weight_le_of_heavier (List.rel_of_pairwise_cons hSorted hRest)
      have hSame : first = token := by
        by_contra hOther
        exact absurd (h first ((hMem first).mp List.mem_cons_self) hOther) (not_lt.mpr hFirst)
      rw [hSame]
      exact List.mem_cons_self

end Heaviest

section Singled

/-- The market with all its tokens but one. -/
def without (u : Unicode) (token : String) (kalshi : NormalizedMarket) : NormalizedMarket :=
  { kalshi with searchText := wordingOf ((tokenize u kalshi.searchText).filter (· ≠ token)) }

/-- A corpus in which one token of the market is rarer than its others. -/
def singling (u : Unicode) (token : String) (kalshi : NormalizedMarket) : List NormalizedMarket :=
  [kalshi, without u token kalshi, without u token kalshi]

theorem tokens_without (hSplits : u.SplitsAtSpaces) (hAscii : u.AgreesOnAscii)
    (hOnce : u.FoldsOnce) (token : String) : (Indexed.of u (without u token kalshi)).tokens =
      (tokenize u kalshi.searchText).filter (· ≠ token) := by
  have hText : (without u token kalshi).searchText =
      wordingOf ((tokenize u kalshi.searchText).filter (· ≠ token)) := by rw [without]
  rw [tokens_of, hText]
  exact tokenize_wordingOf hSplits hAscii hOnce (List.filter_subset_self _)

variable {token : String}

theorem weight_singled (hLog : f.Lawful) (hSplits : u.SplitsAtSpaces) (hAscii : u.AgreesOnAscii)
    (hOnce : u.FoldsOnce) (hKalshi : token ∈ tokenize u kalshi.searchText)
    (hOther : token ∈ tokenize u other.searchText) :
    0 < weightOf f ((singling u token kalshi).map (Indexed.of u)) [Indexed.of u other] token := by
  have hOccurs : occurrences
      ((singling u token kalshi).map (Indexed.of u) ++ [Indexed.of u other]) token = 2 := by
    have hHere : token ∈ (Indexed.of u kalshi).tokens := mem_tokens_of.mpr hKalshi
    have hThere : token ∈ (Indexed.of u other).tokens := mem_tokens_of.mpr hOther
    have hNot : token ∉ (Indexed.of u (without u token kalshi)).tokens := by
      rw [tokens_without hSplits hAscii hOnce]
      simp
    simp [occurrences, singling, hHere, hThere, hNot]
  rw [weightOf, hOccurs, if_neg (by decide)]
  refine lt_max_of_lt_right (hLog.log_pos _ ?_)
  norm_num [singling]

theorem weight_unsingled (hLog : f.Lawful) (hSplits : u.SplitsAtSpaces) (hAscii : u.AgreesOnAscii)
    (hOnce : u.FoldsOnce) {common : String} (hKalshi : common ∈ tokenize u kalshi.searchText)
    (hNot : common ≠ token) :
    weightOf f ((singling u token kalshi).map (Indexed.of u)) [Indexed.of u other] common = 0 := by
  have hOccurs : 3 ≤ occurrences
      ((singling u token kalshi).map (Indexed.of u) ++ [Indexed.of u other]) common := by
    have hHere : common ∈ (Indexed.of u kalshi).tokens := mem_tokens_of.mpr hKalshi
    have hFiller : common ∈ (Indexed.of u (without u token kalshi)).tokens := by
      rw [tokens_without hSplits hAscii hOnce]
      simp [hKalshi, hNot]
    simp [occurrences, singling, List.countP_cons, hHere, hFiller]
  have hLength :
      ((singling u token kalshi).map (Indexed.of u) ++ [Indexed.of u other]).length = 4 := rfl
  rw [weightOf, hLength]
  generalize occurrences
    ((singling u token kalshi).map (Indexed.of u) ++ [Indexed.of u other]) common = count at hOccurs
  have hCount : (3 : ℚ) ≤ count := mod_cast hOccurs
  rw [if_neg (by omega)]
  refine max_eq_left (hLog.log_nonpos _ ?_ ?_)
  · exact div_pos (by norm_num) (by linarith)
  · rw [div_le_one (by linarith)]
    push_cast
    linarith

/-- A configuration that leaves the score no say. -/
def scoreless (tolerance : ℤ) : MatcherConfig :=
  { minScore := 0, strongScore := 0, scheduledTimeToleranceSeconds := tolerance }

variable [IsStrictOrderedRing K]

theorem scored_singled (hLog : f.Lawful) (hSplits : u.SplitsAtSpaces) (hAscii : u.AgreesOnAscii)
    (hOnce : u.FoldsOnce) (hKalshi : token ∈ tokenize u kalshi.searchText)
    (hOther : token ∈ tokenize u other.searchText) (tolerance : ℤ) :
    (Indexed.of u kalshi, Indexed.of u other) ∈
      scoredPairs f (scoreless tolerance) ((singling u token kalshi).map (Indexed.of u))
        [Indexed.of u other] := by
  have hHeaviest : token ∈
      heaviest f ((singling u token kalshi).map (Indexed.of u)) [Indexed.of u other]
        (.of u kalshi) := by
    refine mem_heaviest_of_forall (mem_tokens_of.mpr hKalshi) fun common hCommon hNot => ?_
    rw [weight_unsingled hLog hSplits hAscii hOnce (mem_tokens_of.mp hCommon) hNot]
    exact weight_singled hLog hSplits hAscii hOnce hKalshi hOther
  have hShared : token ∈ sharedTokens f ((singling u token kalshi).map (Indexed.of u))
      [Indexed.of u other] (.of u kalshi) (.of u other) := by
    refine List.mem_filter.mpr ⟨hHeaviest, decide_eq_true ⟨mem_tokens_of.mpr hOther, ?_⟩⟩
    exact List.countP_le_length.trans (le_max_left 1 _)
  have hRanked : Indexed.of u other ∈
      ranked f ((singling u token kalshi).map (Indexed.of u)) [Indexed.of u other] (.of u kalshi) :=
    (List.mem_insertionSort _).mpr
      (List.mem_filter.mpr ⟨List.mem_singleton_self _, decide_eq_true (List.ne_nil_of_mem hShared)⟩)
  have hFew : (ranked f ((singling u token kalshi).map (Indexed.of u)) [Indexed.of u other]
      (.of u kalshi)).length ≤ 10 := by
    rw [ranked, List.length_insertionSort]
    exact (List.length_filter_le _ _).trans (by simp)
  refine List.mem_flatMap.mpr ⟨.of u kalshi, List.mem_map_of_mem List.mem_cons_self, ?_⟩
  refine List.mem_map_of_mem ?_
  rw [firstOf]
  exact (List.take_of_length_le hFew).symm ▸ hRanked

/-- What nothing stands against, and what can be retrieved, some run returns as identical. -/
theorem exists_identical (hLog : f.Lawful) (hSplits : u.SplitsAtSpaces) (hAscii : u.AgreesOnAscii)
    (hOnce : u.FoldsOnce) (tolerance : ℤ) (hShared : ShareToken u kalshi other)
    (hAligned : (resolveAlignment u kalshi other).1.isSome)
    (hSameClaim :
      qualifierConflict (tokenize u kalshi.claimText) (tokenize u other.claimText) = none)
    (hClear : (settlementBlockers u (scoreless tolerance) kalshi other).1 = []) :
    ∃ kalshiMarkets, ∃ pair ∈ (matchAll u f (scoreless tolerance) kalshiMarkets [other]).1,
      pair.kalshi = kalshi ∧ pair.other = other ∧ pair.confidence = .identical := by
  obtain ⟨token, hKalshi, hOther⟩ := hShared
  set weights := corpusWeights f ((singling u token kalshi).map (Indexed.of u)) [Indexed.of u other]
  have hScore : (0 : K) ≤
      (score u f (scoreless tolerance) (.of u kalshi) (.of u other) weights).1 :=
    score_nonneg u (scoreless tolerance) f (corpusWeights_nonneg f _ _) _ _
  have hReaches : ReachesGate u f (scoreless tolerance) (.of u kalshi) (.of u other) weights :=
    ⟨by rwa [scoreless, Rat.cast_zero], by rwa [scoreless, Rat.cast_zero], hSameClaim, hAligned⟩
  obtain ⟨pair, hPair, hIdentical⟩ := (evaluate_identical_iff u f _ _ _ weights).mpr
    ⟨hReaches, hClear⟩
  have hScored := scored_singled hLog hSplits hAscii hOnce hKalshi hOther tolerance
  have hBrute : pair ∈ bruteForce u f (scoreless tolerance)
      ((singling u token kalshi).map (Indexed.of u)) ([other].map (Indexed.of u)) :=
    List.mem_filterMap.mpr ⟨_, hScored, hPair⟩
  have hMatches : MatchesBruteForce f u (scoreless tolerance) (singling u token kalshi) [other] :=
    matchesBruteForce f (List.nodup_singleton _)
  obtain ⟨hLeft, hRight⟩ := evaluate_markets u f _ hPair
  have hReturned := hMatches.pairs.mem_iff.mpr hBrute
  exact ⟨singling u token kalshi, pair, hReturned, hLeft, hRight, hIdentical⟩

end Singled

end KalshiBot.CrossVenue

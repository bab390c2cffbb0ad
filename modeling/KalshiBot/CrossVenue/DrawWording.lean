import KalshiBot.CrossVenue.LineMarkets

/-! # Where a draw is looked for

Each venue's rules may say that a contest can be drawn. The gate reads Kalshi's rules and both
questions; the counterparty's rules are normalized like Kalshi's and never searched.
-/

namespace KalshiBot.CrossVenue

open PythonText

set_option autoImplicit false

variable (u : Unicode) (kalshi other : NormalizedMarket)

def Mentions (text : String) : Prop :=
  ∃ token ∈ drawCapableSports, token.toList <:+: u.lower text.toList

instance (text : String) : Decidable (Mentions u text) := inferInstanceAs (Decidable (∃ _ ∈ _, _))

/-- A draw-capable sport stands in the question or in the rules of either side. -/
inductive Mentioned : Prop where
  | kalshiQuestion (h : Mentions u kalshi.question)
  | kalshiRules (h : Mentions u kalshi.terms.rawRules)
  | otherQuestion (h : Mentions u other.question)
  | otherRules (h : Mentions u other.terms.rawRules)

structure OnlyInOtherRules : Prop where
  otherRules : Mentions u other.terms.rawRules
  kalshiQuestion : ¬Mentions u kalshi.question
  kalshiRules : ¬Mentions u kalshi.terms.rawRules
  otherQuestion : ¬Mentions u other.question

variable {u kalshi other}

theorem drawable_eq_nil_iff : drawable u kalshi other = [] ↔
    ¬Mentions u (kalshi.terms.rawRules ++ " " ++ kalshi.question ++ " " ++ other.question) := by
  have hPerm := List.perm_insertionSort (· ≤ ·) (drawCapableSports.filter fun token =>
    decide (token.toList <:+: u.lower
      (kalshi.terms.rawRules ++ " " ++ kalshi.question ++ " " ++ other.question).toList))
  rw [drawable, sortTexts, ← List.length_eq_zero_iff, hPerm.length_eq, List.length_eq_zero_iff,
    List.filter_eq_nil_iff, Mentions]
  simp

theorem searched_of_mentions (hLower : u.LowersBySpaces)
    (h : Mentions u kalshi.terms.rawRules ∨ Mentions u kalshi.question ∨ Mentions u other.question) :
    Mentions u (kalshi.terms.rawRules ++ " " ++ kalshi.question ++ " " ++ other.question) := by
  have hWording : u.lower
      (kalshi.terms.rawRules ++ " " ++ kalshi.question ++ " " ++ other.question).toList =
        u.lower kalshi.terms.rawRules.toList ++
          ' ' :: (u.lower kalshi.question.toList ++ ' ' :: u.lower other.question.toList) := by
    rw [← hLower, ← hLower]
    simp
  have hParts : ∀ before text after, u.lower
      (kalshi.terms.rawRules ++ " " ++ kalshi.question ++ " " ++ other.question).toList =
        before ++ u.lower text ++ after → ∀ token : String, token.toList <:+: u.lower text →
          token.toList <:+: u.lower
            (kalshi.terms.rawRules ++ " " ++ kalshi.question ++ " " ++ other.question).toList :=
    fun before text after hSplit token hMention => hMention.trans ⟨before, after, hSplit.symm⟩
  obtain ⟨token, hToken, hMention⟩ | ⟨token, hToken, hMention⟩ | ⟨token, hToken, hMention⟩ := h
  · exact ⟨token, hToken, hParts [] _ _ (by rw [hWording]; rfl) token hMention⟩
  · refine ⟨token, hToken, hParts (u.lower kalshi.terms.rawRules.toList ++ [' ']) _
      (' ' :: u.lower other.question.toList) ?_ token hMention⟩
    rw [hWording]
    simp
  · refine ⟨token, hToken, hParts (u.lower kalshi.terms.rawRules.toList ++
      ' ' :: (u.lower kalshi.question.toList ++ [' '])) _ [] ?_ token hMention⟩
    rw [hWording]
    simp

variable {K : Type} [Field K] [LinearOrder K] [IsStrictOrderedRing K] {f : FloatMath K}

theorem mentions_block_iff (hLog : f.Lawful) (hSplits : u.SplitsAtSpaces)
    (hAscii : u.AgreesOnAscii) (hOnce : u.FoldsOnce)
    (hCompetitors : foldLabel u other.yesLabel ∉ affirmativeLabels) :
    (Mentioned u kalshi other → NeverIdentical u f kalshi other) ↔
      ¬(OnlyInOtherRules u kalshi other ∧
        ShareToken u kalshi other ∧ Comparable u kalshi other ∧ LevelsAgree kalshi other) := by
  rw [neverIdentical_iff_not hLog hSplits hAscii hOnce]
  constructor
  · rintro h ⟨hOnly, hIdentifiable⟩
    exact h (.otherRules hOnly.otherRules) hIdentifiable
  · intro h hMentioned hIdentifiable
    have hSilent := hIdentifiable.2.1.exhaustive.resolve_left hCompetitors
    rw [drawable_eq_nil_iff] at hSilent
    have hNowhere : ¬(Mentions u kalshi.terms.rawRules ∨ Mentions u kalshi.question ∨
        Mentions u other.question) := fun hSearched => hSilent (searched_of_mentions hSplits.lower hSearched)
    cases hMentioned with
    | kalshiQuestion hQuestion => exact hNowhere (.inr (.inl hQuestion))
    | kalshiRules hRules => exact hNowhere (.inl hRules)
    | otherQuestion hQuestion => exact hNowhere (.inr (.inr hQuestion))
    | otherRules hRules =>
      exact h ⟨⟨hRules, fun hQuestion => hNowhere (.inr (.inl hQuestion)),
        fun hRules => hNowhere (.inl hRules), fun hQuestion => hNowhere (.inr (.inr hQuestion))⟩,
        hIdentifiable⟩

/-- Two competitors, the words of a draw in the counterparty's rules alone. -/
def drawPayload : Payload :=
  [("conditionId", .str "0x7070"), ("question", .str "Celtics vs. Lakers"),
    ("outcomes", .str "[\"Boston Celtics\", \"Los Angeles Lakers\"]"),
    ("clobTokenIds", .str "[\"8088\", \"6120\"]"), ("sportsMarketType", .str "moneyline"),
    ("description", .str "If the game ends in a draw, this market resolves 50-50."),
    ("resolutionSource", .str "https://www.nba.com/"), ("endDate", .str "2026-10-21T23:30:00Z"),
    ("gameStartTime", .str "2026-10-21 23:30:00+00:00"), ("feesEnabled", .bool false)]

def drawOther : NormalizedMarket :=
  { celticsOther "Celtics vs. Lakers" with
    marketId := "0x7070"
    terms :=
      { (celticsOther "Celtics vs. Lakers").terms with
        comparator := .none
        threshold := none
        thresholdUnits := none
        rawRules := "If the game ends in a draw, this market resolves 50-50." } }

theorem handicap_mentions_block :
    (Mentioned .ascii celticsKalshi (celticsOther handicap) →
      NeverIdentical .ascii twoDocuments celticsKalshi (celticsOther handicap)) ↔
    ¬(OnlyInOtherRules .ascii celticsKalshi (celticsOther handicap) ∧
      ShareToken .ascii celticsKalshi (celticsOther handicap) ∧
        Comparable .ascii celticsKalshi (celticsOther handicap) ∧
          LevelsAgree celticsKalshi (celticsOther handicap)) :=
  mentions_block_iff twoDocuments_lawful Unicode.ascii_splitsAtSpaces Unicode.ascii_agreesOnAscii
    Unicode.ascii_foldsOnce (by decide +kernel)

theorem draw_in_other_rules_identical :
    normalizePolymarketMarket .ascii sampleParsers drawPayload = some (some drawOther) ∧
    foldLabel .ascii drawOther.yesLabel ∉ affirmativeLabels ∧
    Mentioned .ascii celticsKalshi drawOther ∧
    (matchAll .ascii twoDocuments {} [celticsKalshi] [drawOther]).1.map
        (fun pair => (pair.kalshi, pair.other, pair.confidence)) =
      [(celticsKalshi, drawOther, .identical)] ∧
    ¬NeverIdentical .ascii twoDocuments celticsKalshi drawOther := by
  have hReturned : (matchAll .ascii twoDocuments {} [celticsKalshi] [drawOther]).1.map
      (fun pair => (pair.kalshi, pair.other, pair.confidence)) =
        [(celticsKalshi, drawOther, .identical)] := by decide +kernel
  exact ⟨by decide +kernel, by decide +kernel, .otherRules (by decide +kernel), hReturned,
    not_neverIdentical hReturned⟩

end KalshiBot.CrossVenue

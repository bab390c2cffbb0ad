import KalshiBot.CrossVenue.LineMarkets
import KalshiBot.CrossVenue.NormalizedWords

/-! # Sides labelled Yes and No

Most Polymarket US markets label their sides with a bare Yes and No. Normalization puts the title
and its negation in their place, and alignment then looks for Kalshi's label in both.
-/

namespace KalshiBot.CrossVenue

open PythonText

set_option autoImplicit false

variable {u : Unicode} {parsers : Parsers}

/-- A label without initials names whatever its city stands in. -/
theorem teamsMatch_of_bare_city {label : List Char} (h : (resolveTeamAlias u label).2 = none)
    (other : List Char) : teamsMatch u label other = true ↔
      (resolveTeamAlias u label).1 <:+: normalizeText u other := by
  unfold teamsMatch
  generalize resolveTeamAlias u label = parts at h
  obtain ⟨city, initials⟩ := parts
  obtain rfl : initials = none := h
  dsimp only
  split
  next hException => exact iff_of_true rfl hException.2
  next =>
    split
    next hNowhere => exact iff_of_false Bool.false_ne_true hNowhere.2
    next hSomewhere =>
      refine iff_of_true rfl ?_
      obtain hPrefix | hInfix := or_iff_not_and_not.mpr hSomewhere
      · exact hPrefix.isInfix
      · exact hInfix

def negated (title : String) : String := "not " ++ title

theorem negated_toList (title : String) :
    (negated title).toList = "not".toList ++ ' ' :: title.toList := by
  rw [negated, String.toList_append]
  rfl

/-- A label without initials that names the title names the title's negation, too. -/
theorem teamsMatch_negated (hSplits : u.SplitsAtSpaces) {label : List Char}
    (hBare : (resolveTeamAlias u label).2 = none) {title : String}
    (h : teamsMatch u label title.toList = true) : teamsMatch u label (negated title).toList = true := by
  rw [teamsMatch_of_bare_city hBare] at h ⊢
  rw [negated_toList]
  exact h.trans (normalizeText_within hSplits _ _)

/-- A market of the venue with a Yes and a No side, the first one `firstYes`, and a title of its own
that Kalshi's label names. -/
structure GenericSides (u : Unicode) (parsers : Parsers) (market event : Payload) (firstYes : Bool)
    (title : String) (kalshi other : NormalizedMarket) : Prop where
  normalized : normalizePolymarketUsMarket u parsers market event = some (some other)
  sides : ∃ first second, field market "marketSides" = .list [first, second] ∧
    foldLabel u (sideDescription first) = (if firstYes then "yes" else "no") ∧
      foldLabel u (sideDescription second) = (if firstYes then "no" else "yes")
  title_eq : title = String.ofList (strip (textField market "title").toList)
  titled : title ≠ "" ∧ title ≠ textField market "question"
  named : teamsMatch u kalshi.yesLabel.toList title.toList = true

variable {market event : Payload} {firstYes : Bool} {title : String} {kalshi other : NormalizedMarket}

theorem GenericSides.labels (h : GenericSides u parsers market event firstYes title kalshi other) :
    other.yesLabel = title ∧ other.noLabel = negated title := by
  obtain ⟨first, second, hSides, hFirst, -⟩ := h.sides
  have hNormalized := h.normalized
  have hGeneric : foldLabel u (sideDescription first) ∈ genericSideLabels := by
    rw [hFirst]
    cases firstYes <;> decide
  have hLabels : pmUsLabels u (sideDescription first) (sideDescription second) title
      (textField market "question") = (title, negated title) := by
    rw [pmUsLabels, if_neg (not_not.mpr hGeneric), if_neg (not_or.mpr h.titled)]
    rfl
  rw [normalizePolymarketUsMarket, hSides] at hNormalized
  simp only [← h.title_eq, hLabels] at hNormalized
  split at hNormalized
  · cases hNormalized
  · simp only [Option.bind_eq_bind, Option.bind_eq_some_iff, Option.pure_def,
      Option.some.injEq] at hNormalized
    obtain ⟨fee, -, tickDollars, -, minOrderContracts, -, rfl⟩ := hNormalized
    exact ⟨rfl, rfl⟩

theorem space_mem_foldLabel (hLower : u.LowersBySpaces) {title : String}
    (hTitle : Trimmed title.toList) (hSome : title ≠ "") :
    ' ' ∈ (foldLabel u (negated title)).toList := by
  have hTrimmed : Trimmed (negated title).toList := by
    obtain ⟨c, rest, hChars⟩ := List.exists_cons_of_ne_nil
      fun hNone => hSome (String.toList_eq_nil_iff.mp hNone)
    rw [negated_toList]
    constructor
    · rintro c hHead
      obtain rfl : 'n' = c := Option.some.inj hHead
      decide
    · have hLast := hTitle.last
      rw [hChars] at hLast ⊢
      simpa [List.getLast?_append, List.getLast?_cons_cons] using hLast
  obtain ⟨before, after, hKept⟩ := hTrimmed.within_strip (List.infix_refl _)
  rw [foldLabel, String.toList_ofList, ← hKept, negated_toList,
    show before ++ ("not".toList ++ ' ' :: title.toList) ++ after =
      (before ++ "not".toList) ++ ' ' :: (title.toList ++ after) by simp, hLower]
  exact List.mem_append_right _ List.mem_cons_self

/-- The negated title is no word of a proposition, so the teams decide, and never for the second
side alone. -/
theorem GenericSides.alignment (hLower : u.LowersBySpaces)
    (h : GenericSides u parsers market event firstYes title kalshi other) :
    (resolveAlignment u kalshi other).1 =
      if teamsMatch u kalshi.yesLabel.toList (negated title).toList then none else some true := by
  obtain ⟨hYes, hNo⟩ := h.labels
  have hTitle : Trimmed title.toList := by
    rw [h.title_eq, String.toList_ofList]
    exact strip_trimmed _
  have hSpace := space_mem_foldLabel hLower hTitle h.titled.1
  have hForeign : ∀ labels : List String, (∀ label ∈ labels, ' ' ∉ label.toList) →
      foldLabel u (negated title) ∉ labels := fun labels hWords hMem => hWords _ hMem hSpace
  unfold resolveAlignment
  dsimp only
  rw [hYes, hNo, if_neg fun hBoth => hForeign negativeLabels (by decide) hBoth.2,
    if_neg fun hBoth => hForeign affirmativeLabels (by decide) hBoth.2, if_pos h.named]
  split <;> rfl

theorem genericSides_aligned_iff (hLower : u.LowersBySpaces)
    (h : GenericSides u parsers market event firstYes title kalshi other) :
    (resolveAlignment u kalshi other).1 = some firstYes ↔
      firstYes = true ∧ teamsMatch u kalshi.yesLabel.toList (negated title).toList = false := by
  rw [h.alignment hLower]
  cases teamsMatch u kalshi.yesLabel.toList (negated title).toList with
  | true => simp
  | false => simp [eq_comm]

/-- A label without initials leaves every such market without a side. -/
theorem genericSides_rejected (hSplits : u.SplitsAtSpaces)
    (h : GenericSides u parsers market event firstYes title kalshi other)
    (hBare : (resolveTeamAlias u kalshi.yesLabel.toList).2 = none) :
    (resolveAlignment u kalshi other).1 = none := by
  rw [h.alignment hSplits.lower, if_pos (teamsMatch_negated hSplits hBare h.named)]

def side (description : String) : PyValue := .dict [("description", .str description)]

def pennantPayload (first second title : String) : Payload :=
  [("slug", .str "al-pennant-2026"), ("question", .str "American League winner"),
    ("title", .str title), ("marketType", .str "futures"), ("feeCoefficient", .str "0.05"),
    ("marketSides", .list [side first, side second])]

def pennantKalshi (label : String) : NormalizedMarket :=
  { celticsKalshi with
    question := "American League winner"
    yesLabel := label
    noLabel := "not " ++ label }

theorem pennant_genericSides (first second title label : String) (firstYes : Bool)
    (h : ((normalizePolymarketUsMarket .ascii sampleParsers
        (pennantPayload first second title) []).join).isSome = true ∧
      foldLabel .ascii (sideDescription (side first)) = (if firstYes then "yes" else "no") ∧
      foldLabel .ascii (sideDescription (side second)) = (if firstYes then "no" else "yes") ∧
      title = String.ofList (strip (textField (pennantPayload first second title) "title").toList) ∧
      (title ≠ "" ∧ title ≠ "American League winner") ∧
      teamsMatch .ascii label.toList title.toList = true) :
    ∃ other, GenericSides .ascii sampleParsers (pennantPayload first second title) [] firstYes title
      (pennantKalshi label) other := by
  obtain ⟨hNormalized, hFirst, hSecond, hTitle, hTitled, hNamed⟩ := h
  obtain ⟨other, hOther⟩ := Option.isSome_iff_exists.mp hNormalized
  exact ⟨other, Option.join_eq_some_iff.mp hOther, ⟨_, _, rfl, hFirst, hSecond⟩, hTitle, hTitled,
    hNamed⟩

theorem whiteSox_aligned : ∃ other,
    GenericSides .ascii sampleParsers (pennantPayload " Yes" "NO" "Chicago White Sox") [] true
      "Chicago White Sox" (pennantKalshi "Chicago WS") other ∧
        (resolveAlignment .ascii (pennantKalshi "Chicago WS") other).1 = some true := by
  obtain ⟨other, hSides⟩ := pennant_genericSides " Yes" "NO" "Chicago White Sox" "Chicago WS" true
    (by decide +kernel)
  exact ⟨other, hSides, (genericSides_aligned_iff Unicode.ascii_lowersBySpaces hSides).mpr
    ⟨rfl, by decide +kernel⟩⟩

/-- With the No side first the pair is taken for aligned, and a label without initials leaves it
without a side. -/
theorem pennant_misaligned :
    (∃ other, GenericSides .ascii sampleParsers (pennantPayload "No" "Yes" "Chicago White Sox") [] false
      "Chicago White Sox" (pennantKalshi "Chicago WS") other ∧
        (resolveAlignment .ascii (pennantKalshi "Chicago WS") other).1 = some true) ∧
    ∃ other, GenericSides .ascii sampleParsers (pennantPayload "Yes" "No" "Boston Red Sox") [] true
      "Boston Red Sox" (pennantKalshi "Boston") other ∧
        (resolveAlignment .ascii (pennantKalshi "Boston") other).1 = none := by
  constructor
  · obtain ⟨other, hSides⟩ := pennant_genericSides "No" "Yes" "Chicago White Sox" "Chicago WS" false
      (by decide +kernel)
    refine ⟨other, hSides, ?_⟩
    rw [hSides.alignment Unicode.ascii_lowersBySpaces]
    decide +kernel
  · obtain ⟨other, hSides⟩ := pennant_genericSides "Yes" "No" "Boston Red Sox" "Boston" true
      (by decide +kernel)
    exact ⟨other, hSides, genericSides_rejected Unicode.ascii_splitsAtSpaces hSides (by decide +kernel)⟩

end KalshiBot.CrossVenue

import KalshiBot.CrossVenue.Text

/-! # Comparators as words

The phrases are searched for as bare substrings. On words, a phrase of letters counts where no letter
comes before it, and only outside the longer phrases of the table.
-/

namespace KalshiBot.CrossVenue

open PythonText

set_option autoImplicit false

section Places

variable (u : Unicode) (lowered phrase : List Char)

/-- The phrase stands here, and a phrase of letters has no letter before it. -/
def startsWordAt (place : ℕ) : Bool :=
  phrase <+: lowered.drop place ∧
    ¬(phrase.head?.any Char.isAlpha ∧ (lowered.take place).getLast?.any u.isAlpha)

def wordStarts : List ℕ := (List.range lowered.length).filter (startsWordAt u lowered phrase)

/-- The place lies within a word start of a longer phrase of the table. -/
def Covered (place : ℕ) : Prop :=
  ∃ longer ∈ comparatorPhrases, phrase.length < longer.1.toList.length ∧
    ∃ start ∈ wordStarts u lowered longer.1.toList,
      start ≤ place ∧ place + phrase.length ≤ start + longer.1.toList.length

instance (place : ℕ) : Decidable (Covered u lowered phrase place) :=
  inferInstanceAs (Decidable (∃ _ ∈ _, _))

/-- A comparison that the wording states. -/
def States : Prop := ∃ place ∈ wordStarts u lowered phrase, ¬Covered u lowered phrase place

instance : Decidable (States u lowered phrase) := inferInstanceAs (Decidable (∃ _ ∈ _, _))

variable {u lowered phrase}

theorem infix_of_mem_wordStarts {place : ℕ} (h : place ∈ wordStarts u lowered phrase) :
    phrase <:+: lowered := by
  obtain ⟨-, hStarts⟩ := List.mem_filter.mp h
  obtain ⟨hHere, -⟩ := of_decide_eq_true hStarts
  exact hHere.isInfix.trans (List.drop_suffix _ _).isInfix

/-- What lies within a phrase is part of it. -/
theorem infix_of_within {longer : List Char} {place start : ℕ} (h : phrase <+: lowered.drop place)
    (hLonger : longer <+: lowered.drop start) (hStart : start ≤ place)
    (hEnd : place + phrase.length ≤ start + longer.length) : phrase <:+: longer := by
  have hRest : longer.drop (place - start) <+: lowered.drop place := by
    have hDropped := hLonger.drop (place - start)
    rwa [List.drop_drop, Nat.add_sub_cancel' hStart] at hDropped
  have hPrefix : phrase <+: longer.drop (place - start) := by
    refine List.prefix_of_prefix_length_le h hRest ?_
    rw [List.length_drop]
    omega
  exact hPrefix.isInfix.trans (List.drop_suffix _ _).isInfix

end Places

/-- The first phrase of the table that stands anywhere in the wording. -/
def firstListed (lowered : List Char) : Option (String × String) :=
  comparatorPhrases.find? fun phrase => phrase.1.toList <:+: lowered

/-- No phrase of the table stands before one that it is a part of. -/
theorem comparatorPhrases_longestFirst :
    comparatorPhrases.Pairwise fun earlier later => ¬earlier.1.toList <:+: later.1.toList := by
  decide +kernel

theorem comparator_ne_none : ∀ phrase ∈ comparatorPhrases, phrase.2 ≠ "none" := by decide +kernel

variable {u : Unicode} {text : List Char}

theorem extractComparator_of_listed {phrase : String × String}
    (h : firstListed (u.lower text) = some phrase) : extractComparator u text = phrase.2 := by
  rw [firstListed] at h
  rw [extractComparator, h]

theorem extractComparator_of_unlisted (h : firstListed (u.lower text) = none) :
    extractComparator u text = "none" := by
  rw [firstListed] at h
  rw [extractComparator, h]

/-- Nothing longer contains the first phrase of the table that stands in the wording. -/
theorem not_covered_of_listed {lowered : List Char} {phrase : String × String} {place : ℕ}
    (h : firstListed lowered = some phrase)
    (hPlace : place ∈ wordStarts u lowered phrase.1.toList) :
    ¬Covered u lowered phrase.1.toList place := by
  rintro ⟨longer, hLonger, hLength, start, hStart, hBefore, hEnd⟩
  obtain ⟨-, earlier, later, hTable, hEarlier⟩ := List.find?_eq_some_iff_append.mp h
  obtain ⟨-, hHere⟩ := List.mem_filter.mp hPlace
  obtain ⟨-, hThere⟩ := List.mem_filter.mp hStart
  have hPart : phrase.1.toList <:+: longer.1.toList :=
    infix_of_within (of_decide_eq_true hHere).1 (of_decide_eq_true hThere).1 hBefore hEnd
  rw [hTable] at hLonger
  obtain hFirst | hLater := List.mem_append.mp hLonger
  · have hAbsent := hEarlier longer hFirst
    rw [decide_eq_true (infix_of_mem_wordStarts hStart)] at hAbsent
    cases hAbsent
  · obtain rfl | hLater := List.mem_cons.mp hLater
    · exact lt_irrefl _ hLength
    · have hOrder := comparatorPhrases_longestFirst
      rw [hTable] at hOrder
      exact List.rel_of_pairwise_cons (List.pairwise_append.mp hOrder).2.1 hLater hPart

/-- The comparator is one that the wording states, and `none` where it states none. -/
structure ExactOnWords (u : Unicode) (text : List Char) : Prop where
  none_iff : extractComparator u text = "none" ↔
    ∀ phrase ∈ comparatorPhrases, wordStarts u (u.lower text) phrase.1.toList = []
  stated : (∃ phrase ∈ comparatorPhrases, wordStarts u (u.lower text) phrase.1.toList ≠ []) →
    ∃ phrase ∈ comparatorPhrases, phrase.2 = extractComparator u text ∧
      States u (u.lower text) phrase.1.toList

theorem exactOnWords_of_unlisted (h : firstListed (u.lower text) = none) : ExactOnWords u text := by
  have hNowhere : ∀ phrase ∈ comparatorPhrases,
      wordStarts u (u.lower text) phrase.1.toList = [] := by
    intro phrase hMem
    refine List.eq_nil_iff_forall_not_mem.mpr fun place hPlace => ?_
    have hAbsent := List.find?_eq_none.mp h phrase hMem
    exact hAbsent (decide_eq_true (infix_of_mem_wordStarts hPlace))
  constructor
  · exact iff_of_true (extractComparator_of_unlisted h) hNowhere
  · rintro ⟨phrase, hMem, hSome⟩
    exact absurd (hNowhere phrase hMem) hSome

theorem exactOnWords_of_stated {phrase twin : String × String}
    (hListed : firstListed (u.lower text) = some phrase) (hTwin : twin ∈ comparatorPhrases)
    (hSame : twin.2 = phrase.2) (hStates : States u (u.lower text) twin.1.toList) :
    ExactOnWords u text := by
  have hResult : twin.2 = extractComparator u text :=
    hSame.trans (extractComparator_of_listed hListed).symm
  have hSome : wordStarts u (u.lower text) twin.1.toList ≠ [] :=
    List.ne_nil_of_mem hStates.choose_spec.1
  constructor
  · rw [← hResult]
    exact iff_of_false (comparator_ne_none twin hTwin) fun hNone => hSome (hNone twin hTwin)
  · exact fun _ => ⟨twin, hTwin, hResult, hStates⟩

/-- Exact where no phrase stands at all, where the first one listed begins a word, or where another
phrase with its comparator is stated in its place. -/
theorem exactOnWords_iff (u : Unicode) (text : List Char) : ExactOnWords u text ↔
    ∀ phrase, firstListed (u.lower text) = some phrase →
      wordStarts u (u.lower text) phrase.1.toList ≠ [] ∨
        ∃ twin ∈ comparatorPhrases, twin.2 = phrase.2 ∧ States u (u.lower text) twin.1.toList := by
  constructor
  · intro h phrase hListed
    have hResult := extractComparator_of_listed hListed
    have hMem : phrase ∈ comparatorPhrases := List.mem_of_find?_eq_some hListed
    have hSome : ∃ phrase ∈ comparatorPhrases,
        wordStarts u (u.lower text) phrase.1.toList ≠ [] := by
      by_contra hNone
      push Not at hNone
      exact comparator_ne_none phrase hMem (hResult.symm.trans (h.none_iff.mpr hNone))
    obtain ⟨twin, hTwin, hSame, hStates⟩ := h.stated hSome
    exact .inr ⟨twin, hTwin, hSame.trans hResult, hStates⟩
  · intro h
    cases hListed : firstListed (u.lower text) with
    | none => exact exactOnWords_of_unlisted hListed
    | some phrase =>
      obtain hStarts | ⟨twin, hTwin, hSame, hStates⟩ := h phrase hListed
      · obtain ⟨place, hPlace⟩ := List.exists_mem_of_ne_nil _ hStarts
        exact exactOnWords_of_stated hListed (List.mem_of_find?_eq_some hListed) rfl
          ⟨place, hPlace, not_covered_of_listed hListed hPlace⟩
      · exact exactOnWords_of_stated hListed hTwin hSame hStates

/-- A phrase inside a word makes a claim that is not there, or takes the place of one that is. -/
theorem phrases_inside_words :
    (extractComparator .ascii "Will the White Sox win?".toList = "greater_equal" ∧
      ¬ExactOnWords .ascii "Will the White Sox win?".toList) ∧
    extractComparator .ascii "Is it good for more than 5 wins?".toList = "greater_equal" ∧
      ¬ExactOnWords .ascii "Is it good for more than 5 wins?".toList := by
  have hWhite : extractComparator .ascii "Will the White Sox win?".toList = "greater_equal" := by
    decide +kernel
  have hMore : extractComparator .ascii "Is it good for more than 5 wins?".toList =
      "greater_equal" := by decide +kernel
  refine ⟨⟨hWhite, ?_⟩, hMore, ?_⟩
  · intro h
    have hNone := h.none_iff.mpr (by decide +kernel)
    rw [hWhite] at hNone
    exact absurd hNone (by decide)
  · intro h
    have hStated := h.stated (by decide +kernel)
    rw [hMore] at hStated
    have hNot : ¬∃ phrase ∈ comparatorPhrases, phrase.2 = "greater_equal" ∧
        States .ascii (Unicode.ascii.lower "Is it good for more than 5 wins?".toList)
          phrase.1.toList := by decide +kernel
    exact hNot hStated

end KalshiBot.CrossVenue

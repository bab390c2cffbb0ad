import KalshiBot.Library.Unicode

/-! # Words between spaces

Collapsing and stripping the spaces of a text leaves its words, one space apart.
-/

namespace KalshiBot.PythonText

set_option autoImplicit false

/-- What `split` yields: no space inside, and something there. -/
structure IsWord (word : List Char) : Prop where
  ne_nil : word ≠ []
  no_space : ∀ c ∈ word, isSpace c = false

@[simp] theorem words_nil : words [] = [] := rfl

theorem words_append_space (left right : List Char) {c : Char} (h : isSpace c) :
    words (left ++ c :: right) = words left ++ words right := by
  rw [words, List.splitOnP_append_cons left right h, List.filter_append]
  rfl

theorem words_cons_space {c : Char} (h : isSpace c) (text : List Char) :
    words (c :: text) = words text := words_append_space [] text h

theorem IsWord.words_eq {word : List Char} (h : IsWord word) : words word = [word] := by
  rw [words, List.splitOnP_eq_singleton h.no_space]
  simp [h.ne_nil]

theorem no_space_of_mem_splitOnP {text : List Char} :
    ∀ part ∈ text.splitOnP isSpace, ∀ c ∈ part, isSpace c = false := by
  induction text with
  | nil =>
    intro part hPart
    obtain rfl := List.mem_singleton.mp hPart
    exact List.forall_mem_nil _
  | cons c text ih =>
    rw [List.splitOnP_cons_eq_if_modifyHead]
    split
    next => exact List.forall_mem_cons.mpr ⟨List.forall_mem_nil _, ih⟩
    next hSpace =>
      obtain ⟨first, others, hParts⟩ :=
        List.exists_cons_of_ne_nil (List.splitOnP_ne_nil isSpace text)
      rw [hParts] at ih ⊢
      obtain ⟨hFirst, hOthers⟩ := List.forall_mem_cons.mp ih
      refine List.forall_mem_cons.mpr ⟨List.forall_mem_cons.mpr ⟨?_, hFirst⟩, hOthers⟩
      exact Bool.eq_false_iff.mpr hSpace

theorem isWord_of_mem_words {text : List Char} : ∀ word ∈ words text, IsWord word := by
  intro word hWord
  obtain ⟨hPart, hSome⟩ := List.mem_filter.mp hWord
  exact ⟨of_decide_eq_true hSome, no_space_of_mem_splitOnP word hPart⟩

/-- A character before a space, or at the end, is a word of its own. -/
theorem words_cons_of_head {c : Char} (h : isSpace c = false) {text : List Char}
    (hHead : ∀ d ∈ text.head?, isSpace d) : words (c :: text) = [c] :: words text := by
  have hAlone : IsWord [c] := ⟨List.cons_ne_nil _ _, by simpa using h⟩
  cases text with
  | nil => exact hAlone.words_eq
  | cons d text =>
    have hSpace : isSpace d := hHead d rfl
    rw [words_cons_space hSpace, ← List.singleton_append, words_append_space [c] text hSpace,
      hAlone.words_eq]
    rfl

/-- Any other character begins the word that goes on after it. -/
theorem words_cons_cons {c d : Char} (h : isSpace c = false) (hNext : isSpace d = false)
    (text : List Char) : ∃ word others,
      words (d :: text) = word :: others ∧ words (c :: d :: text) = (c :: word) :: others := by
  obtain ⟨first, others, hParts⟩ := List.exists_cons_of_ne_nil (List.splitOnP_ne_nil isSpace text)
  refine ⟨d :: first, others.filter (· ≠ []), ?_, ?_⟩
  · simp [words, List.splitOnP_cons_eq_if_modifyHead, hNext, hParts]
  · simp [words, List.splitOnP_cons_eq_if_modifyHead, h, hNext, hParts]

@[simp] theorem joinWords_nil : joinWords [] = [] := rfl

@[simp] theorem joinWords_singleton (word : List Char) : joinWords [word] = word :=
  List.intercalate_singleton

theorem joinWords_cons_cons (word word' : List Char) (others : List (List Char)) :
    joinWords (word :: word' :: others) = word ++ ' ' :: joinWords (word' :: others) := by
  simp [joinWords, List.intercalate_cons_cons]

theorem joinWords_cons {others : List (List Char)} (h : others ≠ []) (word : List Char) :
    joinWords (word :: others) = word ++ ' ' :: joinWords others := by
  obtain ⟨word', others, rfl⟩ := List.exists_cons_of_ne_nil h
  exact joinWords_cons_cons word word' others

theorem joinWords_append {left right : List (List Char)} (hLeft : left ≠ []) (hRight : right ≠ []) :
    joinWords (left ++ right) = joinWords left ++ ' ' :: joinWords right := by
  induction left with
  | nil => exact absurd rfl hLeft
  | cons word left ih =>
    obtain rfl | hMore := eq_or_ne left []
    · rw [joinWords_singleton]
      exact joinWords_cons hRight word
    · rw [List.cons_append, joinWords_cons (by simp [hMore]), ih hMore, joinWords_cons hMore]
      simp

theorem joinWords_prefix (left right : List (List Char)) :
    joinWords left <+: joinWords (left ++ right) := by
  obtain rfl | hLeft := eq_or_ne left []
  · exact List.nil_prefix
  obtain rfl | hRight := eq_or_ne right []
  · rw [List.append_nil]
  · rw [joinWords_append hLeft hRight]
    exact List.prefix_append _ _

theorem joinWords_suffix (left right : List (List Char)) :
    joinWords right <:+ joinWords (left ++ right) := by
  obtain rfl | hLeft := eq_or_ne left []
  · exact List.suffix_refl _
  obtain rfl | hRight := eq_or_ne right []
  · exact List.nil_suffix
  · rw [joinWords_append hLeft hRight]
    exact (List.suffix_cons _ _).trans (List.suffix_append _ _)

theorem joinWords_word_cons (c : Char) (word : List Char) (others : List (List Char)) :
    joinWords ((c :: word) :: others) = c :: joinWords (word :: others) := by
  cases others with
  | nil => rw [joinWords_singleton, joinWords_singleton]
  | cons word' others => rw [joinWords_cons_cons, joinWords_cons_cons, List.cons_append]

theorem words_joinWords {parts : List (List Char)} (h : ∀ word ∈ parts, IsWord word) :
    words (joinWords parts) = parts := by
  induction parts with
  | nil => rfl
  | cons word parts ih =>
    obtain ⟨hWord, hParts⟩ := List.forall_mem_cons.mp h
    obtain rfl | hMore := eq_or_ne parts []
    · rw [joinWords_singleton, hWord.words_eq]
    · rw [joinWords_cons hMore, words_append_space _ _ (by decide), hWord.words_eq, ih hParts]
      rfl

theorem joinWords_ne_nil {parts : List (List Char)} (h : ∀ word ∈ parts, IsWord word)
    (hSome : parts ≠ []) : joinWords parts ≠ [] := by
  intro hNone
  have hWords := words_joinWords h
  rw [hNone] at hWords
  exact hSome hWords.symm

theorem IsWord.trimmed {word : List Char} (h : IsWord word) : Trimmed word where
  head c hHead := h.no_space c (List.mem_of_mem_head? hHead)
  last c hLast := h.no_space c (List.mem_of_mem_getLast? hLast)

theorem trimmed_joinWords {parts : List (List Char)} (h : ∀ word ∈ parts, IsWord word) :
    Trimmed (joinWords parts) := by
  induction parts with
  | nil => exact ⟨fun c hHead => (by cases hHead), fun c hLast => (by cases hLast)⟩
  | cons word parts ih =>
    obtain ⟨hWord, hParts⟩ := List.forall_mem_cons.mp h
    obtain rfl | hMore := eq_or_ne parts []
    · rw [joinWords_singleton]
      exact hWord.trimmed
    · rw [joinWords_cons hMore]
      constructor
      · rw [List.head?_append_of_ne_nil _ hWord.ne_nil]
        exact hWord.trimmed.head
      · rw [List.getLast?_append_of_ne_nil _ (List.cons_ne_nil _ _), List.getLast?_cons_of_ne_nil
          (joinWords_ne_nil hParts hMore)]
        exact (ih hParts).last

theorem strip_surrounded {before text after : List Char} (hBefore : ∀ c ∈ before, isSpace c)
    (h : Trimmed text) (hAfter : ∀ c ∈ after, isSpace c) :
    strip (before ++ (text ++ after)) = text := by
  have hDropped : before.dropWhile isSpace = [] := List.dropWhile_eq_nil_iff.mpr hBefore
  obtain rfl | hSome := eq_or_ne text []
  · have hBoth : ∀ c ∈ before ++ ([] ++ after), isSpace c := by
      intro c hMem
      obtain hFirst | hSecond := List.mem_append.mp hMem
      · exact hBefore c hFirst
      · exact hAfter c hSecond
    rw [strip, List.dropWhile_eq_nil_iff.mpr hBoth]
    rfl
  · have hLast : ∀ c ∈ text.reverse.head?, isSpace c = false := by
      rw [List.head?_reverse]
      exact h.last
    have hDroppedAfter : after.reverse.dropWhile isSpace = [] :=
      List.dropWhile_eq_nil_iff.mpr fun c hMem => hAfter c (List.mem_reverse.mp hMem)
    have hKept : (after.reverse ++ (text.reverse ++ [])).dropWhile isSpace =
        after.reverse.dropWhile isSpace ++ (text.reverse ++ []) :=
      dropWhile_append_of_head (List.reverse_ne_nil_iff.mpr hSome) hLast after.reverse
    rw [strip, dropWhile_append_of_head hSome h.head, hDropped, List.nil_append,
      List.reverse_append, ← List.append_nil text.reverse, hKept, hDroppedAfter, List.nil_append,
      List.append_nil, List.reverse_reverse]

/-- Collapsing leaves the words, a space in front if the text begins with one, and `after`. -/
def Leaves (text after : List Char) : Prop :=
  collapseSpaces text = (if text.head?.any isSpace ∧ words text ≠ [] then [' '] else []) ++
    (joinWords (words text) ++ after)

theorem leaves_cons_space {c : Char} {rest after : List Char} (hSpace : isSpace c)
    (h : Leaves rest after) : Leaves (c :: rest) after ∨ Leaves (c :: rest) (' ' :: after) := by
  rw [Leaves] at h
  rw [Leaves, Leaves, collapseSpaces, List.head?_cons, Option.any_some, if_pos hSpace,
    words_cons_space hSpace]
  by_cases hNext : rest.head?.any isSpace
  · rw [hNext] at h
    rw [if_pos hNext, hSpace]
    exact .inl h
  · rw [if_neg hNext, h, if_neg fun hBoth => hNext hBoth.1]
    obtain hNone | hSome := eq_or_ne (words rest) []
    · refine .inr ?_
      rw [hNone]
      simp
    · refine .inl ?_
      rw [if_pos ⟨hSpace, hSome⟩]
      rfl

theorem leaves_cons_char {c : Char} {rest after : List Char} (hChar : isSpace c = false)
    (h : Leaves rest after) : Leaves (c :: rest) after := by
  have hSpace : ¬isSpace c := Bool.eq_false_iff.mp hChar
  rw [Leaves] at h
  rw [Leaves, collapseSpaces, List.head?_cons, Option.any_some, if_neg hSpace,
    if_neg fun hBoth => hSpace hBoth.1, List.nil_append, h]
  by_cases hHead : ∀ d ∈ rest.head?, isSpace d
  · rw [words_cons_of_head hChar hHead]
    obtain hNone | hSome := eq_or_ne (words rest) []
    · rw [hNone]
      simp
    · have hMore : rest ≠ [] := by
        rintro rfl
        exact hSome rfl
      obtain ⟨d, rest, rfl⟩ := List.exists_cons_of_ne_nil hMore
      rw [if_pos ⟨hHead d rfl, hSome⟩, joinWords_cons hSome]
      rfl
  · obtain ⟨d, hFirst, hNext⟩ : ∃ d ∈ rest.head?, ¬isSpace d := by simpa using hHead
    obtain ⟨rest, rfl⟩ := List.head?_eq_some_iff.mp hFirst
    obtain ⟨word, others, hWords, hLonger⟩ :=
      words_cons_cons hChar (Bool.eq_false_iff.mpr hNext) rest
    rw [hLonger, hWords, joinWords_word_cons, if_neg fun hBoth => hNext hBoth.1]
    rfl

theorem exists_leaves (text : List Char) : ∃ after, (∀ c ∈ after, isSpace c) ∧ Leaves text after := by
  induction text with
  | nil => exact ⟨[], List.forall_mem_nil _, rfl⟩
  | cons c rest ih =>
    obtain ⟨after, hAfter, hRest⟩ := ih
    by_cases hSpace : isSpace c
    · obtain hKept | hMore := leaves_cons_space hSpace hRest
      · exact ⟨after, hAfter, hKept⟩
      · exact ⟨' ' :: after, List.forall_mem_cons.mpr ⟨by decide, hAfter⟩, hMore⟩
    · exact ⟨after, hAfter, leaves_cons_char (Bool.eq_false_iff.mpr hSpace) hRest⟩

/-- Words a space apart are what stripping and collapsing make of any text. -/
theorem strip_collapseSpaces (text : List Char) :
    strip (collapseSpaces text) = joinWords (words text) := by
  obtain ⟨after, hAfter, hText⟩ := exists_leaves text
  rw [hText]
  refine strip_surrounded ?_ (trimmed_joinWords isWord_of_mem_words) hAfter
  split
  next => exact List.forall_mem_singleton.mpr (by decide)
  next => exact List.forall_mem_nil _

theorem words_strip_collapseSpaces (text : List Char) :
    words (strip (collapseSpaces text)) = words text := by
  rw [strip_collapseSpaces, words_joinWords isWord_of_mem_words]

end KalshiBot.PythonText

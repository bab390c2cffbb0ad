import KalshiBot.Library.SpacedWords

/-! # Text files

A file that is read in text mode shows each of `\r\n` and `\r` as `\n`. A text without spaces at
its ends that is written on a line of its own is read back, but for the line ends in it.
-/

namespace KalshiBot.PythonText

set_option autoImplicit false

/-- What reading in text mode makes of the contents of a file. -/
def universalNewlines : List Char → List Char
  | [] => []
  | c :: rest =>
    if c = '\r' then
      if rest.head? = some '\n' then universalNewlines rest else '\n' :: universalNewlines rest
    else c :: universalNewlines rest

theorem universalNewlines_cons {c : Char} (h : c ≠ '\r') (rest : List Char) :
    universalNewlines (c :: rest) = c :: universalNewlines rest := by
  rw [universalNewlines, if_neg h]

/-- A line end that follows no `\r` stays what it is. -/
theorem universalNewlines_append {text : List Char} (h : ∀ c ∈ text.getLast?, c ≠ '\r')
    (after : List Char) :
    universalNewlines (text ++ after) = universalNewlines text ++ universalNewlines after := by
  induction text with
  | nil => rfl
  | cons c rest ih =>
    obtain rfl | hMore := eq_or_ne rest []
    · have hOther : c ≠ '\r' := h c rfl
      rw [List.cons_append, List.nil_append, universalNewlines_cons hOther,
        universalNewlines_cons hOther]
      rfl
    · have hRest : ∀ d ∈ rest.getLast?, d ≠ '\r' := by
        rwa [List.getLast?_cons_of_ne_nil hMore] at h
      have hHead : (rest ++ after).head? = rest.head? := List.head?_append_of_ne_nil _ hMore
      rw [List.cons_append, universalNewlines, universalNewlines, hHead, ih hRest]
      split
      · split <;> rfl
      · rfl

theorem universalNewlines_eq_nil {text : List Char} (h : universalNewlines text = []) :
    text = [] := by
  induction text with
  | nil => rfl
  | cons c rest ih =>
    rw [universalNewlines] at h
    split at h
    · split at h
      next hHead =>
        rw [ih h] at hHead
        cases hHead
      next => cases h
    · cases h

theorem getLast?_universalNewlines {text : List Char} (h : ∀ c ∈ text.getLast?, c ≠ '\r') :
    (universalNewlines text).getLast? = text.getLast? := by
  induction text with
  | nil => rfl
  | cons c rest ih =>
    obtain rfl | hMore := eq_or_ne rest []
    · rw [universalNewlines_cons (h c rfl)]
      rfl
    · rw [List.getLast?_cons_of_ne_nil hMore] at h ⊢
      have hShown : universalNewlines rest ≠ [] := mt universalNewlines_eq_nil hMore
      rw [universalNewlines]
      split
      · split
        · exact ih h
        · rw [List.getLast?_cons_of_ne_nil hShown, ih h]
      · rw [List.getLast?_cons_of_ne_nil hShown, ih h]

theorem ne_return_of_not_space {c : Char} (h : isSpace c = false) : c ≠ '\r' := by
  rintro rfl
  revert h
  decide

theorem Trimmed.no_return {text : List Char} (h : Trimmed text) :
    ∀ c ∈ text.getLast?, c ≠ '\r' :=
  fun c hLast => ne_return_of_not_space (h.last c hLast)

theorem Trimmed.universalNewlines {text : List Char} (h : Trimmed text) :
    Trimmed (universalNewlines text) := by
  constructor
  · intro c hHead
    cases text with
    | nil => cases hHead
    | cons d rest =>
      rw [universalNewlines_cons (ne_return_of_not_space (h.head d rfl))] at hHead
      exact h.head c hHead
  · rw [getLast?_universalNewlines h.no_return]
    exact h.last

/-- A trimmed text, written on a line of its own and read in text mode, is stripped to itself. -/
theorem Trimmed.strip_line {text : List Char} (h : Trimmed text) :
    strip (PythonText.universalNewlines (text ++ ['\n'])) = PythonText.universalNewlines text := by
  rw [universalNewlines_append h.no_return]
  refine strip_surrounded (List.forall_mem_nil _) h.universalNewlines fun c hEnd => ?_
  have hNewline : c = '\n' := List.mem_singleton.mp hEnd
  rw [hNewline]
  decide

end KalshiBot.PythonText

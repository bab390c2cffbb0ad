import KalshiBot.CrossVenue.Text
import KalshiBot.Library.SpacedWords

/-! # Normalized wording, word by word

Every rewriting step takes a space for the end of the text, so what stands between two spaces is
normalized on its own.
-/

namespace KalshiBot.CrossVenue

open PythonText

set_option autoImplicit false

/-- A space beside a character counts as nothing beside it, and is not replaced itself. -/
structure SpaceBlind (drop : Option Char → Char → Option Char → Bool) : Prop where
  space : ∀ previous c next, isSpace c → drop previous c next = false
  previous : ∀ s c next, isSpace s → drop (some s) c next = drop none c next
  next : ∀ previous c s, isSpace s → drop previous c (some s) = drop previous c none

theorem isSpace_bounds {c : Char} (h : isSpace c) : c.toNat ≤ 32 ∨ 133 ≤ c.toNat := by
  simp [isSpace] at h
  omega

theorem isLower_of_isSpace {c : Char} (h : isSpace c) : c.isLower = false := by
  have hBounds := isSpace_bounds h
  rw [← Bool.not_eq_true, isLower_iff]
  omega

theorem isAlpha_of_isSpace {c : Char} (h : isSpace c) : c.isAlpha = false := by
  have hBounds := isSpace_bounds h
  have hUpper : c.isUpper = false := by
    rw [← Bool.not_eq_true, isUpper_iff]
    omega
  exact Bool.or_eq_false_iff.mpr ⟨hUpper, isLower_of_isSpace h⟩

theorem isSpace_of_isAlpha {c : Char} (h : c.isAlpha) : isSpace c = false := by
  by_contra hSpace
  rw [isAlpha_of_isSpace (Bool.eq_true_of_not_eq_false hSpace)] at h
  cases h

theorem isDigit_of_isSpace {c : Char} (h : isSpace c) : c.isDigit = false := by
  have hBounds := isSpace_bounds h
  rw [← Bool.not_eq_true, isDigit_iff]
  omega

theorem ne_of_isSpace {c d : Char} (h : isSpace c) (hOther : isSpace d = false) : c ≠ d := by
  rintro rfl
  rw [hOther] at h
  cases h

theorem wordHyphen_spaceBlind : SpaceBlind wordHyphen where
  space _ _ _ h := by simp [wordHyphen, ne_of_isSpace h (d := '-') (by decide)]
  previous _ _ _ h := by simp [wordHyphen, isLower_of_isSpace h]
  next _ _ _ h := by simp [wordHyphen, isLower_of_isSpace h]

theorem wordPeriod_spaceBlind : SpaceBlind wordPeriod where
  space _ _ _ h := by simp [wordPeriod, ne_of_isSpace h (d := '.') (by decide)]
  previous _ _ _ h := by simp [wordPeriod, isDigit_of_isSpace h]
  next _ _ _ h := by simp [wordPeriod, isDigit_of_isSpace h]

theorem punctuation_spaceBlind (u : Unicode) : SpaceBlind (punctuation u) where
  space _ _ _ h := by simp [punctuation, h]
  previous _ _ _ _ := rfl
  next _ _ _ _ := rfl

section Splitting

variable {drop : Option Char → Char → Option Char → Bool} (h : SpaceBlind drop)

include h in
theorem blankOut_after_space (text : List Char) :
    blankOut drop (some ' ') text = blankOut drop none text := by
  cases text with
  | nil => rfl
  | cons c rest => rw [blankOut, blankOut, h.previous ' ' c _ (by decide)]

include h in
theorem blankOut_append_space (previous : Option Char) (left right : List Char) :
    blankOut drop previous (left ++ ' ' :: right) =
      blankOut drop previous left ++ ' ' :: blankOut drop none right := by
  induction left generalizing previous with
  | nil =>
    rw [List.nil_append, blankOut, blankOut, blankOut_after_space h, ite_self]
    rfl
  | cons c left ih =>
    rw [List.cons_append, blankOut, blankOut, ih (some c), List.cons_append]
    cases left with
    | nil => rw [List.nil_append, List.head?_cons, h.next _ _ ' ' (by decide), List.head?_nil]
    | cons d left => rfl

end Splitting

variable {u : Unicode}

/-- The wording before its spaces are collapsed. -/
def foldWording (u : Unicode) (text : List Char) : List Char :=
  let folded := u.lower (stripAccents u text)
  let folded := folded.flatMap fun c => if c = '&' then " and ".toList else [c]
  let folded := folded.map fun c => if c = '/' then ' ' else c
  blankOut (punctuation u) none (blankOut wordPeriod none (blankOut wordHyphen none folded))

theorem normalizeText_eq (text : List Char) :
    normalizeText u text = joinWords (words (foldWording u text)) := strip_collapseSpaces _

theorem words_normalizeText (text : List Char) :
    words (normalizeText u text) = words (foldWording u text) := words_strip_collapseSpaces _

theorem joinWords_normalizeText (text : List Char) :
    joinWords (words (normalizeText u text)) = normalizeText u text := by
  rw [words_normalizeText, normalizeText_eq]

theorem foldWording_append (hSplits : u.SplitsAtSpaces) (left right : List Char) :
    foldWording u (left ++ ' ' :: right) = foldWording u left ++ ' ' :: foldWording u right := by
  have hAccents : stripAccents u (left ++ ' ' :: right) =
      stripAccents u left ++ ' ' :: stripAccents u right := by
    simp [stripAccents, hSplits.decompose, hSplits.space]
  unfold foldWording
  dsimp only
  rw [hAccents, hSplits.lower, List.flatMap_append, List.flatMap_cons, if_neg (by decide),
    List.singleton_append, List.map_append, List.map_cons, if_neg (by decide),
    blankOut_append_space wordHyphen_spaceBlind, blankOut_append_space wordPeriod_spaceBlind,
    blankOut_append_space (punctuation_spaceBlind u)]

theorem words_normalizeText_append (hSplits : u.SplitsAtSpaces) (left right : List Char) :
    words (normalizeText u (left ++ ' ' :: right)) =
      words (normalizeText u left) ++ words (normalizeText u right) := by
  rw [words_normalizeText, foldWording_append hSplits, words_append_space _ _ (by decide),
    words_normalizeText, words_normalizeText]

theorem tokenize_append (hSplits : u.SplitsAtSpaces) (left right : String) (dropBoilerplate : Bool) :
    tokenize u (left ++ " " ++ right) dropBoilerplate =
      tokenize u left dropBoilerplate ++ tokenize u right dropBoilerplate := by
  have hText : (left ++ " " ++ right).toList = left.toList ++ ' ' :: right.toList := by simp
  rw [tokenize, hText, words_normalizeText_append hSplits, List.flatMap_append]
  rfl

/-- What stands before a space begins the normalized wording. -/
theorem normalizeText_begins (hSplits : u.SplitsAtSpaces) (left right : List Char) :
    normalizeText u left <+: normalizeText u (left ++ ' ' :: right) := by
  rw [normalizeText_eq, normalizeText_eq, foldWording_append hSplits,
    words_append_space _ _ (by decide)]
  exact joinWords_prefix _ _

/-- What follows a space is normalized as on its own. -/
theorem normalizeText_within (hSplits : u.SplitsAtSpaces) (left right : List Char) :
    normalizeText u right <:+: normalizeText u (left ++ ' ' :: right) := by
  rw [normalizeText_eq, normalizeText_eq, foldWording_append hSplits,
    words_append_space _ _ (by decide)]
  exact (joinWords_suffix _ _).isInfix

section Ascii

theorem mem_blankOut {drop : Option Char → Char → Option Char → Bool} {previous : Option Char}
    {text : List Char} {c : Char} (h : c ∈ blankOut drop previous text) :
    c = ' ' ∨ c ∈ text ∧ ∃ before after, drop before c after = false := by
  induction text generalizing previous with
  | nil => cases h
  | cons d rest ih =>
    rw [blankOut] at h
    obtain hFirst | hRest := List.mem_cons.mp h
    · split at hFirst
      next => exact .inl hFirst
      next hKept => exact .inr ⟨hFirst ▸ List.mem_cons_self, _, _, hFirst ▸ Bool.eq_false_iff.mpr hKept⟩
    · exact (ih hRest).imp_right fun hKept => ⟨List.mem_cons_of_mem d hKept.1, hKept.2⟩

theorem blankOut_congr {drop drop' : Option Char → Char → Option Char → Bool}
    {previous : Option Char} {text : List Char}
    (h : ∀ c ∈ text, ∀ previous next, drop previous c next = drop' previous c next) :
    blankOut drop previous text = blankOut drop' previous text := by
  induction text generalizing previous with
  | nil => rfl
  | cons c rest ih =>
    obtain ⟨hFirst, hRest⟩ := List.forall_mem_cons.mp h
    rw [blankOut, blankOut, hFirst, ih hRest]

theorem isAscii_blankOut {drop : Option Char → Char → Option Char → Bool} {previous : Option Char}
    {text : List Char} (h : IsAscii text) : IsAscii (blankOut drop previous text) := by
  intro c hMem
  obtain rfl | ⟨hText, -⟩ := mem_blankOut hMem
  · decide
  · exact h c hText

/-- Case folded, the ampersand spelled out and the slash a space. -/
def foldAscii (text : List Char) : List Char :=
  ((text.map Char.toLower).flatMap fun c => if c = '&' then " and ".toList else [c]).map
    fun c => if c = '/' then ' ' else c

theorem isAscii_foldAscii {text : List Char} (h : IsAscii text) : IsAscii (foldAscii text) := by
  have hLower : ∀ c : Char, c.toNat < 128 → c.toLower.toNat < 128 :=
    fun c => forall_ascii (P := fun c => c.toLower.toNat < 128) (by decide)
  intro c hMem
  obtain ⟨d, hSpelled, rfl⟩ := List.mem_map.mp hMem
  obtain ⟨a, hFolded, hSpelled⟩ := List.mem_flatMap.mp hSpelled
  obtain ⟨b, hText, rfl⟩ := List.mem_map.mp hFolded
  have hSmall : d.toNat < 128 := by
    split at hSpelled
    next =>
      have hAnd : IsAscii " and ".toList := by decide
      exact hAnd d hSpelled
    next =>
      obtain rfl := List.mem_singleton.mp hSpelled
      exact hLower b (h b hText)
  split
  next => decide
  next => exact hSmall

theorem foldWording_of_ascii (hAscii : u.AgreesOnAscii) {text : List Char} (h : IsAscii text) :
    foldWording u text = blankOut (punctuation .ascii) none
      (blankOut wordPeriod none (blankOut wordHyphen none (foldAscii text))) := by
  have hAccents : stripAccents u text = text := by
    rw [stripAccents, hAscii.decompose text h, List.filter_eq_self]
    intro c hMem
    rw [hAscii.combining c (h c hMem), Bool.not_false]
  unfold foldWording
  dsimp only
  rw [hAccents, hAscii.lower text h]
  refine blankOut_congr ?_
  intro c hMem previous next
  rw [punctuation, punctuation,
    hAscii.isWord c (isAscii_blankOut (isAscii_blankOut (isAscii_foldAscii h)) c hMem)]

theorem normalizeText_of_ascii (hAscii : u.AgreesOnAscii) {text : List Char} (h : IsAscii text) :
    normalizeText u text = normalizeText .ascii text := by
  rw [normalizeText_eq, normalizeText_eq, foldWording_of_ascii hAscii h,
    foldWording_of_ascii Unicode.ascii_agreesOnAscii h]

theorem tokenize_of_ascii (hAscii : u.AgreesOnAscii) {text : String} (h : IsAscii text.toList)
    (dropBoilerplate : Bool) :
    tokenize u text dropBoilerplate = tokenize .ascii text dropBoilerplate := by
  rw [tokenize, normalizeText_of_ascii hAscii h]
  rfl

end Ascii

end KalshiBot.CrossVenue

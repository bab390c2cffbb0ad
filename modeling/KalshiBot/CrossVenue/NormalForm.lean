import KalshiBot.CrossVenue.NormalizedWords

/-! # The normal form of wording

Each rewriting step leaves nothing for itself to do, and the later ones bring nothing back: a
character that is blanked never had anything to do with keeping a period.
-/

namespace KalshiBot.CrossVenue

open PythonText

set_option autoImplicit false

/-- Nothing that `drop` selects is left, with `previous` before the text. -/
def Untouched (drop : Option Char → Char → Option Char → Bool) : Option Char → List Char → Prop
  | _, [] => True
  | previous, c :: rest => drop previous c rest.head? = false ∧ Untouched drop (some c) rest

/-- Blanking a character that `drop` selects brings nothing back for `keep`. -/
structure Respects (drop keep : Option Char → Char → Option Char → Bool) : Prop where
  previous : ∀ d before after c next, drop before d after = true →
    keep (some d) c next = false → keep (some ' ') c next = false
  next : ∀ d before after previous c, drop before d after = true →
    keep previous c (some d) = false → keep previous c (some ' ') = false

section Rewriting

variable {drop keep : Option Char → Char → Option Char → Bool}

theorem blankOut_of_untouched {previous : Option Char} {text : List Char}
    (h : Untouched drop previous text) : blankOut drop previous text = text := by
  induction text generalizing previous with
  | nil => rfl
  | cons c rest ih => rw [blankOut, h.1, if_neg Bool.false_ne_true, ih h.2]

theorem Untouched.mono {previous : Option Char} {text : List Char} (h : Untouched drop previous text)
    (hMono : ∀ previous c next, drop previous c next = false → keep previous c next = false) :
    Untouched keep previous text := by
  induction text generalizing previous with
  | nil => trivial
  | cons c rest ih => exact ⟨hMono _ _ _ h.1, ih h.2⟩

theorem untouched_of_forall {text : List Char}
    (h : ∀ c ∈ text, ∀ previous next, drop previous c next = false) (previous : Option Char) :
    Untouched drop previous text := by
  induction text generalizing previous with
  | nil => trivial
  | cons c rest ih =>
    obtain ⟨hFirst, hRest⟩ := List.forall_mem_cons.mp h
    exact ⟨hFirst _ _, ih hRest _⟩

/-- The neighbour of a character, or the blank that has taken its place. -/
def Blanked (drop : Option Char → Char → Option Char → Bool) (old new : Option Char) : Prop :=
  new = old ∨ new = some ' ' ∧ ∃ d before after, old = some d ∧ drop before d after = true

theorem blanked_head (previous : Option Char) (text : List Char) :
    Blanked drop text.head? (blankOut drop previous text).head? := by
  cases text with
  | nil => exact .inl rfl
  | cons c rest =>
    rw [blankOut, List.head?_cons, List.head?_cons]
    split
    next hDrop => exact .inr ⟨rfl, c, _, _, rfl, hDrop⟩
    next => exact .inl rfl

theorem Respects.kept (h : Respects drop keep) {previous previous' next next' : Option Char}
    {c : Char} (hKept : keep previous c next = false) (hPrevious : Blanked drop previous previous')
    (hNext : Blanked drop next next') : keep previous' c next' = false := by
  have hBefore : keep previous' c next = false := by
    obtain rfl | ⟨rfl, d, before, after, rfl, hDrop⟩ := hPrevious
    · exact hKept
    · exact h.previous d before after c next hDrop hKept
  obtain rfl | ⟨rfl, d, before, after, rfl, hDrop⟩ := hNext
  · exact hBefore
  · exact h.next d before after previous' c hDrop hBefore

/-- What neither step would touch afterwards: each place is blanked now, or was fine before. -/
theorem untouched_blankOut (hBlind : SpaceBlind keep) (hRespects : Respects drop keep)
    {previous previous' : Option Char} {text : List Char}
    (h : Untouched (fun before c after => keep before c after && !drop before c after) previous text)
    (hPrevious : Blanked drop previous previous') :
    Untouched keep previous' (blankOut drop previous text) := by
  induction text generalizing previous previous' with
  | nil => trivial
  | cons c rest ih =>
    rw [blankOut]
    by_cases hDrop : drop previous c rest.head? = true
    · rw [if_pos hDrop]
      exact ⟨hBlind.space _ _ _ (by decide), ih h.2 (.inr ⟨rfl, c, _, _, rfl, hDrop⟩)⟩
    · rw [if_neg hDrop]
      have hKept : keep previous c rest.head? = false := by
        have hPlace : (keep previous c rest.head? && !drop previous c rest.head?) = false := h.1
        rwa [Bool.eq_false_iff.mpr hDrop, Bool.not_false, Bool.and_true] at hPlace
      exact ⟨hRespects.kept hKept hPrevious (blanked_head _ _), ih h.2 (.inl rfl)⟩

theorem untouched_blankOut_self (hBlind : SpaceBlind drop) (hRespects : Respects drop drop)
    (text : List Char) : Untouched drop none (blankOut drop none text) := by
  refine untouched_blankOut hBlind hRespects (untouched_of_forall ?_ none) (.inl rfl)
  exact fun _ _ _ _ => Bool.and_not_self _

theorem Untouched.blankOut (hBlind : SpaceBlind keep) (hRespects : Respects drop keep)
    {text : List Char} (h : Untouched keep none text) :
    Untouched keep none (blankOut drop none text) := by
  refine untouched_blankOut hBlind hRespects (h.mono ?_) (.inl rfl)
  intro previous c next hKept
  rw [hKept, Bool.false_and]

/-- Both the same, or both nothing but space. -/
def Spaced (old new : Option Char) : Prop :=
  new = old ∨ (∀ c ∈ old, isSpace c) ∧ ∀ c ∈ new, isSpace c

theorem SpaceBlind.previous_of_blank (h : SpaceBlind keep) {previous : Option Char}
    (hBlank : ∀ c ∈ previous, isSpace c) (c : Char) (next : Option Char) :
    keep previous c next = keep none c next := by
  cases previous with
  | none => rfl
  | some s => exact h.previous s c next (hBlank s rfl)

theorem SpaceBlind.next_of_blank (h : SpaceBlind keep) {next : Option Char}
    (hBlank : ∀ c ∈ next, isSpace c) (previous : Option Char) (c : Char) :
    keep previous c next = keep previous c none := by
  cases next with
  | none => rfl
  | some s => exact h.next previous c s (hBlank s rfl)

theorem SpaceBlind.kept (h : SpaceBlind keep) {previous previous' next next' : Option Char}
    {c : Char} (hKept : keep previous c next = false) (hPrevious : Spaced previous previous')
    (hNext : Spaced next next') : keep previous' c next' = false := by
  have hBefore : keep previous' c next = false := by
    obtain rfl | ⟨hOld, hNew⟩ := hPrevious
    · exact hKept
    · rwa [h.previous_of_blank hNew, ← h.previous_of_blank hOld]
  obtain rfl | ⟨hOld, hNew⟩ := hNext
  · exact hBefore
  · rwa [h.next_of_blank hNew, ← h.next_of_blank hOld]

theorem spaced_head (text : List Char) : Spaced text.head? (collapseSpaces text).head? := by
  induction text with
  | nil => exact .inl rfl
  | cons c rest ih =>
    rw [collapseSpaces]
    split
    next hSpace =>
      refine .inr ⟨fun d hHead => Option.some.inj hHead ▸ hSpace, ?_⟩
      split
      next hNext =>
        obtain ⟨d, hFirst, hSecond⟩ := (Option.any_eq_true _ _).mp hNext
        obtain hSame | ⟨-, hNew⟩ := ih
        · intro a hHead
          rw [hSame, hFirst] at hHead
          exact Option.some.inj hHead ▸ hSecond
        · exact hNew
      next => exact fun d hHead => Option.some.inj hHead ▸ (by decide)
    next => exact .inl rfl

theorem untouched_collapseSpaces (h : SpaceBlind keep) {previous previous' : Option Char}
    {text : List Char} (hText : Untouched keep previous text)
    (hPrevious : Spaced previous previous' ∨ text.head?.any isSpace) :
    Untouched keep previous' (collapseSpaces text) := by
  induction text generalizing previous previous' with
  | nil => trivial
  | cons c rest ih =>
    rw [collapseSpaces]
    by_cases hSpace : isSpace c
    · rw [if_pos hSpace]
      split
      next hNext => exact ih hText.2 (.inr hNext)
      next =>
        refine ⟨h.space _ _ _ (by decide), ih hText.2 (.inl (.inr ⟨?_, ?_⟩))⟩
        · exact fun d hMem => Option.some.inj hMem ▸ hSpace
        · exact fun d hMem => Option.some.inj hMem ▸ (by decide)
    · rw [if_neg hSpace]
      have hSpaced : Spaced previous previous' := hPrevious.resolve_right hSpace
      exact ⟨h.kept hText.1 hSpaced (spaced_head rest), ih hText.2 (.inl (.inl rfl))⟩

theorem untouched_dropSpaces (h : SpaceBlind keep) {previous : Option Char} {text : List Char}
    (hText : Untouched keep previous text) (hBlank : ∀ c ∈ previous, isSpace c) :
    Untouched keep none (text.dropWhile isSpace) := by
  induction text generalizing previous with
  | nil => trivial
  | cons c rest ih =>
    rw [List.dropWhile_cons]
    split
    next hSpace => exact ih hText.2 fun d hMem => Option.some.inj hMem ▸ hSpace
    next => exact ⟨(h.previous_of_blank hBlank c _).symm.trans hText.1, hText.2⟩

theorem untouched_of_append (h : SpaceBlind keep) {previous : Option Char} {text after : List Char}
    (hText : Untouched keep previous (text ++ after)) (hAfter : ∀ c ∈ after.head?, isSpace c) :
    Untouched keep previous text := by
  induction text generalizing previous with
  | nil => trivial
  | cons c rest ih =>
    refine ⟨?_, ih hText.2⟩
    cases rest with
    | nil => exact (h.next_of_blank hAfter previous c).symm.trans hText.1
    | cons d rest => exact hText.1

theorem untouched_strip (h : SpaceBlind keep) {text : List Char} (hText : Untouched keep none text) :
    Untouched keep none (strip text) := by
  rw [strip_eq_rdropWhile]
  have hDropped := untouched_dropSpaces h hText (fun c hMem => by cases hMem)
  generalize text.dropWhile isSpace = dropped at hDropped
  rw [← @List.rdropWhile_append_rtakeWhile _ isSpace dropped] at hDropped
  refine untouched_of_append h hDropped ?_
  intro c hHead
  exact List.mem_rtakeWhile_imp (List.mem_of_mem_head? hHead)

/-- What holds around one character of an untouched text. -/
theorem Untouched.at {before after : List Char} {c : Char} {previous : Option Char}
    (h : Untouched keep previous (before ++ c :: after)) :
    keep (before.getLast?.or previous) c after.head? = false := by
  induction before generalizing previous with
  | nil => exact h.1
  | cons d before ih =>
    have hRest := ih h.2
    cases before with
    | nil => exact hRest
    | cons a before => exact hRest

theorem untouched_of_at {previous : Option Char} {text : List Char}
    (h : ∀ before c after, text = before ++ c :: after →
      keep (before.getLast?.or previous) c after.head? = false) :
    Untouched keep previous text := by
  induction text generalizing previous with
  | nil => trivial
  | cons c rest ih =>
    refine ⟨h [] c rest rfl, ih fun before d after hRest => ?_⟩
    have hAt := h (c :: before) d after (by rw [hRest, List.cons_append])
    rw [List.getLast?_cons, Option.some_or] at hAt
    cases hLast : before.getLast? with
    | none =>
      rw [hLast] at hAt
      exact hAt
    | some b =>
      rw [hLast] at hAt
      exact hAt

/-- A part of an untouched text, once its ends do not depend on what stood beside them. -/
theorem Untouched.within {piece text : List Char} (hInfix : piece <:+: text)
    (h : Untouched keep none text) (hFirst : ∀ c ∈ piece.head?, ∀ next, keep none c next = false)
    (hLast : ∀ c ∈ piece.getLast?, ∀ previous, keep previous c none = false) :
    Untouched keep none piece := by
  refine untouched_of_at fun before c after hPiece => ?_
  rw [Option.or_none]
  obtain rfl | hBefore := eq_or_ne before []
  · exact hFirst c (hPiece ▸ rfl) _
  obtain rfl | hAfter := eq_or_ne after []
  · exact hLast c (by rw [hPiece, List.getLast?_concat]; rfl) _
  obtain ⟨left, right, rfl⟩ := hInfix
  have hText : left ++ piece ++ right = (left ++ before) ++ c :: (after ++ right) := by
    rw [hPiece]
    simp
  have hAt := (hText ▸ h).at
  rwa [Option.or_none, List.getLast?_append_of_ne_nil _ hBefore,
    List.head?_append_of_ne_nil _ hAfter] at hAt

end Rewriting

theorem wordHyphen_respects (drop : Option Char → Char → Option Char → Bool) :
    Respects drop wordHyphen where
  previous _ _ _ _ _ _ _ := by simp [wordHyphen]
  next _ _ _ _ _ _ _ := by simp [wordHyphen]

/-- A period is kept by its digits, and no step blanks a digit. -/
theorem wordPeriod_respects {drop : Option Char → Char → Option Char → Bool}
    (h : ∀ d before after, drop before d after = true → d.isDigit = false) :
    Respects drop wordPeriod where
  previous d before after c next hDrop hKept := by
    have hOther := h d before after hDrop
    simpa [wordPeriod, hOther] using hKept
  next d before after previous c hDrop hKept := by
    have hOther := h d before after hDrop
    simpa [wordPeriod, hOther] using hKept

theorem not_digit_of_wordPeriod (c : Char) (previous next : Option Char)
    (h : wordPeriod previous c next = true) : c.isDigit = false := by
  obtain ⟨rfl, -⟩ := of_decide_eq_true h
  rfl

section Spaces

theorem mem_collapseSpaces {text : List Char} {c : Char} (h : c ∈ collapseSpaces text) :
    c = ' ' ∨ c ∈ text ∧ isSpace c = false := by
  induction text with
  | nil => cases h
  | cons d rest ih =>
    have hLater (hRest : c ∈ collapseSpaces rest) : c = ' ' ∨ c ∈ d :: rest ∧ isSpace c = false :=
      (ih hRest).imp_right fun hMem => ⟨List.mem_cons_of_mem d hMem.1, hMem.2⟩
    rw [collapseSpaces] at h
    split at h
    next =>
      split at h
      next => exact hLater h
      next =>
        obtain hFirst | hRest := List.mem_cons.mp h
        · exact .inl hFirst
        · exact hLater hRest
    next hOther =>
      obtain rfl | hRest := List.mem_cons.mp h
      · exact .inr ⟨List.mem_cons_self, Bool.eq_false_iff.mpr hOther⟩
      · exact hLater hRest

theorem head?_collapseSpaces {text : List Char} (h : ¬text.head?.any isSpace) :
    (collapseSpaces text).head? = text.head? := by
  cases text with
  | nil => rfl
  | cons c rest =>
    have hOther : ¬isSpace c := h
    rw [collapseSpaces, if_neg hOther]
    rfl

theorem not_double_collapseSpaces {s s' : Char} (h : isSpace s) (h' : isSpace s')
    (text : List Char) : ¬[s, s'] <:+: collapseSpaces text := by
  induction text with
  | nil => simp [collapseSpaces]
  | cons c rest ih =>
    have hAhead (d : Char) (hPair : [s, s'] <+: d :: collapseSpaces rest) :
        s = d ∧ s' ∈ (collapseSpaces rest).head? := by
      obtain ⟨hFirst, hSecond⟩ := List.cons_prefix_cons.mp hPair
      obtain ⟨after, hRest⟩ := hSecond
      exact ⟨hFirst, hRest ▸ rfl⟩
    rw [collapseSpaces]
    split
    next =>
      split
      next => exact ih
      next hNext =>
        intro hInfix
        obtain hPair | hInfix := List.infix_cons_iff.mp hInfix
        · obtain ⟨-, hHead⟩ := hAhead _ hPair
          rw [head?_collapseSpaces hNext] at hHead
          exact hNext ((Option.any_eq_true _ _).mpr ⟨s', hHead, h'⟩)
        · exact ih hInfix
    next hOther =>
      intro hInfix
      obtain hPair | hInfix := List.infix_cons_iff.mp hInfix
      · obtain ⟨rfl, -⟩ := hAhead _ hPair
        exact hOther h
      · exact ih hInfix

end Spaces

variable {u : Unicode}

theorem mem_normalizeText {text : List Char} {c : Char} (h : c ∈ normalizeText u text) :
    c = ' ' ∨ c ∈ foldWording u text ∧ isSpace c = false :=
  mem_collapseSpaces ((strip_within _).subset h)

theorem isAscii_normalizeText {text : List Char} (h : IsAscii text) :
    IsAscii (normalizeText .ascii text) := by
  intro c hMem
  obtain rfl | ⟨hFolded, -⟩ := mem_normalizeText hMem
  · decide
  · rw [foldWording_of_ascii Unicode.ascii_agreesOnAscii h] at hFolded
    exact isAscii_blankOut (isAscii_blankOut (isAscii_blankOut (isAscii_foldAscii h))) c hFolded

theorem not_digit_of_punctuation (hAscii : u.AgreesOnAscii) (c : Char) (previous next : Option Char)
    (h : punctuation u previous c next = true) : c.isDigit = false := by
  have hMark := of_decide_eq_true h
  rw [not_or] at hMark
  by_contra hDigit
  have hDigit := Bool.eq_true_of_not_eq_false hDigit
  have hBounds := isDigit_iff.mp hDigit
  refine hMark.1 ?_
  rw [hAscii.isWord c (by omega)]
  simp [Unicode.ascii, Char.isAlphanum, hDigit]

/-- Each character of folded wording was folded before, or spells an ampersand out. -/
theorem mem_foldWording {text : List Char} {c : Char} (h : c ∈ foldWording u text) :
    c = ' ' ∨ (c ∈ u.fold text ∨ c ∈ " and ".toList) ∧ (c ≠ '&' ∧ c ≠ '/') ∧
      ∀ previous next, punctuation u previous c next = false := by
  obtain rfl | ⟨hPeriods, before, after, hKept⟩ := mem_blankOut h
  · exact .inl rfl
  obtain rfl | ⟨hHyphens, -⟩ := mem_blankOut hPeriods
  · exact .inl rfl
  obtain rfl | ⟨hSpelled, -⟩ := mem_blankOut hHyphens
  · exact .inl rfl
  obtain ⟨d, hWords, hSlash⟩ := List.mem_map.mp hSpelled
  split at hSlash
  next => exact .inl hSlash.symm
  next hOther =>
    subst hSlash
    obtain ⟨a, hFolded, hSpelled⟩ := List.mem_flatMap.mp hWords
    split at hSpelled
    next =>
      have hAnd : ∀ c ∈ " and ".toList, c ≠ '&' := List.all_iff_forall_prop.mp (by decide)
      exact .inr ⟨.inr hSpelled, ⟨hAnd d hSpelled, hOther⟩, fun _ _ => hKept⟩
    next hNotAnd =>
      obtain rfl := List.mem_singleton.mp hSpelled
      exact .inr ⟨.inl hFolded, ⟨hNotAnd, hOther⟩, fun _ _ => hKept⟩

/-- What the rewriting steps leave, and leave alone. -/
structure Folded (u : Unicode) (text : List Char) : Prop where
  accents : stripAccents u text = text
  letters : u.lower text = text
  spelled : ∀ c ∈ text, c ≠ '&' ∧ c ≠ '/'
  marks : ∀ c ∈ text, ∀ previous next, punctuation u previous c next = false
  hyphens : Untouched wordHyphen none text
  periods : Untouched wordPeriod none text

theorem Folded.foldWording_eq {text : List Char} (h : Folded u text) :
    foldWording u text = text := by
  have hAnd : (text.flatMap fun c => if c = '&' then " and ".toList else [c]) = text := by
    refine (List.flatMap_congr fun c hMem => if_neg (h.spelled c hMem).1).trans ?_
    exact List.flatMap_singleton' text
  have hSlash : (text.map fun c => if c = '/' then ' ' else c) = text :=
    (List.map_congr_left fun c hMem => if_neg (h.spelled c hMem).2).trans (List.map_id' text)
  unfold foldWording
  dsimp only
  rw [h.accents, h.letters, hAnd, hSlash, blankOut_of_untouched h.hyphens,
    blankOut_of_untouched h.periods, blankOut_of_untouched (untouched_of_forall h.marks none)]

/-- The letters of folded wording are those of some folded text. -/
theorem subset_fold (hSplits : u.SplitsAtSpaces) (hAscii : u.AgreesOnAscii) {text piece : List Char}
    (h : ∀ c ∈ piece, c = ' ' ∨ c ∈ u.fold text ∨ c ∈ " and ".toList) :
    piece ⊆ u.fold (text ++ ' ' :: "and".toList) := by
  have hFold : u.fold (text ++ ' ' :: "and".toList) = u.fold text ++ " and".toList := by
    have hAnd : u.fold "and".toList = "and".toList := by
      rw [Unicode.fold, hAscii.decompose _ (by decide), List.filter_eq_self.mpr, hAscii.lower]
      · decide
      · decide
      · intro c hMem
        have hSmall : ∀ c ∈ "and".toList, c.toNat < 128 := by simp
        rw [hAscii.combining c (hSmall c hMem)]
        rfl
    rw [Unicode.fold, hSplits.decompose, List.filter_append, List.filter_cons_of_pos, hSplits.lower]
    · exact congrArg (u.fold text ++ ' ' :: ·) hAnd
    · rw [hSplits.space]
      rfl
  have hSpelled : ∀ c ∈ " and ".toList, c ∈ " and".toList := by simp
  intro c hMem
  rw [hFold, List.mem_append]
  obtain rfl | hFolded | hAnd := h c hMem
  · exact .inr (by decide)
  · exact .inl hFolded
  · exact .inr (hSpelled c hAnd)

theorem normalizeText_subset (hSplits : u.SplitsAtSpaces) (hAscii : u.AgreesOnAscii)
    (text : List Char) : normalizeText u text ⊆ u.fold (text ++ ' ' :: "and".toList) := by
  refine subset_fold hSplits hAscii fun c hMem => ?_
  obtain hSpace | ⟨hFolded, -⟩ := mem_normalizeText hMem
  · exact .inl hSpace
  · exact (mem_foldWording hFolded).imp_right And.left

theorem stripAccents_of_subset (hOnce : u.FoldsOnce) {text piece : List Char}
    (h : piece ⊆ u.fold text) : stripAccents u piece = piece := by
  rw [stripAccents, hOnce.decompose text piece h, List.filter_eq_self]
  intro c hMem
  rw [hOnce.combining text c (h hMem)]
  rfl

theorem folded_normalizeText (hSplits : u.SplitsAtSpaces) (hAscii : u.AgreesOnAscii)
    (hOnce : u.FoldsOnce) (text : List Char) : Folded u (normalizeText u text) := by
  set start := (((u.fold text).flatMap fun c => if c = '&' then " and ".toList else [c]).map
    fun c => if c = '/' then ' ' else c) with hStart
  have hWording : foldWording u text = blankOut (punctuation u) none
      (blankOut wordPeriod none (blankOut wordHyphen none start)) := rfl
  have hHyphens := untouched_blankOut_self wordHyphen_spaceBlind (wordHyphen_respects _) start
  have hPeriods := untouched_blankOut_self wordPeriod_spaceBlind
    (wordPeriod_respects not_digit_of_wordPeriod) (blankOut wordHyphen none start)
  have hSettled {keep : Option Char → Char → Option Char → Bool} (hBlind : SpaceBlind keep)
      (hKept : Untouched keep none (foldWording u text)) :
      Untouched keep none (normalizeText u text) :=
    untouched_strip hBlind (untouched_collapseSpaces hBlind hKept (.inl (.inl rfl)))
  have hLetters := normalizeText_subset hSplits hAscii text
  have hMem : ∀ c ∈ normalizeText u text, c = ' ' ∨ (c ≠ '&' ∧ c ≠ '/') ∧
      ∀ previous next, punctuation u previous c next = false := by
    intro c hMem
    obtain hSpace | ⟨hFolded, -⟩ := mem_normalizeText hMem
    · exact .inl hSpace
    · exact (mem_foldWording hFolded).imp_right And.right
  constructor
  · exact stripAccents_of_subset hOnce hLetters
  · exact hOnce.lower _ _ hLetters
  · intro c hText
    obtain rfl | ⟨hSpelled, -⟩ := hMem c hText
    · decide
    · exact hSpelled
  · intro c hText previous next
    obtain rfl | ⟨-, hMarks⟩ := hMem c hText
    · exact (punctuation_spaceBlind u).space _ _ _ (by decide)
    · exact hMarks previous next
  · refine hSettled wordHyphen_spaceBlind ?_
    rw [hWording]
    exact (hHyphens.blankOut wordHyphen_spaceBlind (wordHyphen_respects _)).blankOut
      wordHyphen_spaceBlind (wordHyphen_respects _)
  · refine hSettled wordPeriod_spaceBlind ?_
    rw [hWording]
    exact hPeriods.blankOut wordPeriod_spaceBlind
      (wordPeriod_respects (not_digit_of_punctuation hAscii))

theorem asciiFolded (text : List Char) : Folded .ascii (normalizeText .ascii text) :=
  folded_normalizeText Unicode.ascii_splitsAtSpaces Unicode.ascii_agreesOnAscii
    Unicode.ascii_foldsOnce text

/-- Lower case, one space between words, no mark without a meaning, and periods in numbers only. -/
structure NormalForm (u : Unicode) (text : List Char) : Prop where
  noUpper : ∀ c ∈ text, c.isUpper = false
  trimmed : Trimmed text
  single : ∀ s s', isSpace s → isSpace s' → ¬[s, s'] <:+: text
  allowed : ∀ c ∈ text, u.isWord c ∨ c = ' ' ∨ c ∈ ['.', '$', '%', '-', '+']
  periods : ∀ before after, text = before ++ '.' :: after →
    before.getLast?.any Char.isDigit ∧ after.head?.any Char.isDigit

theorem normalForm_normalizeText {u : Unicode} (hAscii : u.AgreesOnAscii) {text : List Char}
    (h : IsAscii text) : NormalForm u (normalizeText .ascii text) where
  noUpper c hMem :=
    have hSame : ∀ c ∈ normalizeText .ascii text, c.toLower = c :=
      List.map_inj_left.mp ((asciiFolded text).letters.trans (List.map_id _).symm)
    not_upper_of_toLower_eq (hSame c hMem)
  trimmed := strip_trimmed _
  single s s' hFirst hSecond hPair :=
    not_double_collapseSpaces hFirst hSecond _ (hPair.trans (strip_within _))
  allowed c hMem := by
    have hMark := of_decide_eq_false ((asciiFolded text).marks c hMem none none)
    rw [hAscii.isWord c (isAscii_normalizeText h c hMem)]
    obtain hWord | hSpace | hSign := not_not.mp hMark
    · exact .inl hWord
    · obtain rfl | ⟨-, hOther⟩ := mem_normalizeText hMem
      · exact .inr (.inl rfl)
      · rw [hOther] at hSpace
        cases hSpace
    · exact .inr (.inr hSign)
  periods before after hText := by
    have hPeriods := (asciiFolded text).periods
    rw [hText] at hPeriods
    have hKept := of_decide_eq_false hPeriods.at
    rw [Option.or_none] at hKept
    exact not_not.mp fun hNot => hKept ⟨rfl, hNot⟩

/-- Normalizing wording once is enough, for the tokens as well. -/
theorem normalization_closed {u : Unicode} (hAscii : u.AgreesOnAscii) {text : String}
    (h : IsAscii text.toList) :
    normalizeText u (normalizeText u text.toList) = normalizeText u text.toList ∧
      NormalForm u (normalizeText u text.toList) ∧
      ∀ dropBoilerplate, tokenize u (String.ofList (normalizeText u text.toList)) dropBoilerplate =
        tokenize u text dropBoilerplate := by
  have hOnce : normalizeText u (normalizeText u text.toList) = normalizeText u text.toList := by
    rw [normalizeText_of_ascii hAscii h, normalizeText_of_ascii hAscii (isAscii_normalizeText h),
      normalizeText_eq, (asciiFolded text.toList).foldWording_eq, joinWords_normalizeText]
  refine ⟨hOnce, ?_, ?_⟩
  · rw [normalizeText_of_ascii hAscii h]
    exact normalForm_normalizeText hAscii h
  · intro dropBoilerplate
    rw [tokenize, String.toList_ofList, hOnce]
    rfl

theorem price_normalization_closed :
    normalizeText .ascii (normalizeText .ascii "St. Louis Run-Off  & BTC/USD > $86,749.99?".toList) =
        normalizeText .ascii "St. Louis Run-Off  & BTC/USD > $86,749.99?".toList ∧
      NormalForm .ascii (normalizeText .ascii "St. Louis Run-Off  & BTC/USD > $86,749.99?".toList) ∧
      ∀ dropBoilerplate,
        tokenize .ascii (String.ofList (normalizeText .ascii
            "St. Louis Run-Off  & BTC/USD > $86,749.99?".toList)) dropBoilerplate =
          tokenize .ascii "St. Louis Run-Off  & BTC/USD > $86,749.99?" dropBoilerplate :=
  normalization_closed Unicode.ascii_agreesOnAscii (by decide)

end KalshiBot.CrossVenue

import KalshiBot.CrossVenue.NormalForm

/-! # Tokens as wording

A token is wording that no step of tokenizing changes, so tokens a space apart are a text with
exactly these tokens.
-/

namespace KalshiBot.CrossVenue

open PythonText

set_option autoImplicit false

variable {u : Unicode}

/-- Part of normalized wording is folded, as long as no period stands at its ends. -/
theorem folded_within (hSplits : u.SplitsAtSpaces) (hAscii : u.AgreesOnAscii) (hOnce : u.FoldsOnce)
    {text piece : List Char} (hInfix : piece <:+: normalizeText u text)
    (hFirst : ∀ c ∈ piece.head?, c ≠ '.') (hLast : ∀ c ∈ piece.getLast?, c ≠ '.') :
    Folded u piece := by
  have hWhole := folded_normalizeText hSplits hAscii hOnce text
  have hLetters : piece ⊆ u.fold (text ++ ' ' :: "and".toList) :=
    List.Subset.trans hInfix.subset (normalizeText_subset hSplits hAscii text)
  exact {
    accents := stripAccents_of_subset hOnce hLetters
    letters := hOnce.lower _ _ hLetters
    spelled := fun c hMem => hWhole.spelled c (hInfix.subset hMem)
    marks := fun c hMem => hWhole.marks c (hInfix.subset hMem)
    hyphens := hWhole.hyphens.within hInfix (by simp [wordHyphen]) (by simp [wordHyphen])
    periods := hWhole.periods.within hInfix
      (fun c hHead next => by simp [wordPeriod, hFirst c hHead])
      (fun c hHead previous => by simp [wordPeriod, hLast c hHead]) }

theorem infix_of_mem_words {text word : List Char} (h : word ∈ words (normalizeText u text)) :
    word <:+: normalizeText u text := by
  obtain ⟨before, after, hWords⟩ := List.append_of_mem h
  rw [← joinWords_normalizeText, hWords]
  have hWord : word <+: joinWords (word :: after) := by
    have hPrefix := joinWords_prefix [word] after
    rwa [joinWords_singleton] at hPrefix
  exact hWord.isInfix.trans (joinWords_suffix before (word :: after)).isInfix

/-- A word that is looked up, and that normalizing and stripping leave alone. -/
structure Plain (u : Unicode) (token : List Char) : Prop where
  word : IsWord token
  folded : Folded u token
  stripped : stripChars ['.', '-'] token = token

theorem Plain.tokenize_eq {token : List Char} (h : Plain u token)
    (hForm : synonyms.lookup (String.ofList token) = none)
    (hKept : String.ofList token ∉ boilerplate) :
    tokenize u (String.ofList token) = [String.ofList token] := by
  rw [tokenize, String.toList_ofList, words_normalizeText, h.folded.foldWording_eq, h.word.words_eq]
  simp [h.stripped, h.word.ne_nil, hForm, h.word.words_eq, hKept]

theorem plain_stripped (hSplits : u.SplitsAtSpaces) (hAscii : u.AgreesOnAscii) (hOnce : u.FoldsOnce)
    {text raw : List Char} (hRaw : raw ∈ words (normalizeText u text))
    (hSome : stripChars ['.', '-'] raw ≠ []) : Plain u (stripChars ['.', '-'] raw) := by
  have hWithin : stripChars ['.', '-'] raw <:+: raw := trim_within _ raw
  have hFirst : ∀ c ∈ (stripChars ['.', '-'] raw).head?, c ∉ ['.', '-'] :=
    fun c hHead => of_decide_eq_false (head?_trim (· ∈ ['.', '-']) raw c hHead)
  have hLast : ∀ c ∈ (stripChars ['.', '-'] raw).getLast?, c ∉ ['.', '-'] :=
    fun c hHead => of_decide_eq_false (getLast?_trim (· ∈ ['.', '-']) raw c hHead)
  constructor
  · exact ⟨hSome, fun c hMem => (isWord_of_mem_words raw hRaw).no_space c (hWithin.subset hMem)⟩
  · refine folded_within hSplits hAscii hOnce (hWithin.trans (infix_of_mem_words hRaw)) ?_ ?_
    · rintro c hHead rfl
      exact hFirst _ hHead (by decide)
    · rintro c hHead rfl
      exact hLast _ hHead (by decide)
  · exact trim_of_ends (fun c hHead => decide_eq_false (hFirst c hHead))
      (fun c hHead => decide_eq_false (hLast c hHead))

/-- What the table puts for a token is not in the table itself. -/
theorem tokenize_synonyms : ∀ entry ∈ synonyms, ∀ part ∈ words entry.2.toList,
    IsAscii part ∧ tokenize .ascii (String.ofList part) = [String.ofList part] := by
  decide +kernel

theorem tokenize_token (hSplits : u.SplitsAtSpaces) (hAscii : u.AgreesOnAscii) (hOnce : u.FoldsOnce)
    {text token : String} (h : token ∈ tokenize u text) : tokenize u token = [token] := by
  obtain ⟨raw, hRaw, hToken⟩ := List.mem_flatMap.mp h
  dsimp only at hToken
  split at hToken
  · cases hToken
  next hSome =>
    have hPlain : Plain u (stripChars ['.', '-'] raw) :=
      plain_stripped hSplits hAscii hOnce hRaw fun hNone => hSome (by rw [hNone])
    rw [List.mem_filter, List.mem_map] at hToken
    obtain ⟨⟨part, hPart, rfl⟩, hKept⟩ := hToken
    have hKept : String.ofList part ∉ boilerplate := by simpa using hKept
    cases hForm : synonyms.lookup (String.ofList (stripChars ['.', '-'] raw)) with
    | none =>
      rw [hForm, Option.getD_none, String.toList_ofList, hPlain.word.words_eq,
        List.mem_singleton] at hPart
      subst hPart
      exact hPlain.tokenize_eq hForm hKept
    | some expanded =>
      rw [hForm, Option.getD_some] at hPart
      obtain ⟨before, after, hTable, -⟩ := List.lookup_eq_some_iff.mp hForm
      obtain ⟨hSmall, hOwn⟩ := tokenize_synonyms _
        (hTable ▸ List.mem_append_right before List.mem_cons_self) part hPart
      rw [tokenize_of_ascii hAscii (by rwa [String.toList_ofList])]
      exact hOwn

/-- Tokens a space apart. -/
def wordingOf : List String → String
  | [] => ""
  | token :: tokens => token ++ " " ++ wordingOf tokens

theorem tokenize_empty (hAscii : u.AgreesOnAscii) : tokenize u "" = [] := by
  rw [tokenize_of_ascii hAscii (by decide)]
  decide

theorem tokenize_wordingOf (hSplits : u.SplitsAtSpaces) (hAscii : u.AgreesOnAscii)
    (hOnce : u.FoldsOnce) {text : String} {tokens : List String} (h : tokens ⊆ tokenize u text) :
    tokenize u (wordingOf tokens) = tokens := by
  induction tokens with
  | nil => exact tokenize_empty hAscii
  | cons token tokens ih =>
    obtain ⟨hToken, hTokens⟩ := List.cons_subset.mp h
    rw [wordingOf, tokenize_append hSplits, tokenize_token hSplits hAscii hOnce hToken, ih hTokens]
    rfl

end KalshiBot.CrossVenue

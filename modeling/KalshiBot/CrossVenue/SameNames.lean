import KalshiBot.CrossVenue.GenericSides

/-! # A name and itself

Kalshi's label is rewritten through the table of exceptions before it is compared, the other
venue's label is not.
-/

namespace KalshiBot.CrossVenue

open PythonText

set_option autoImplicit false

variable {u : Unicode}

/-- What a label is taken apart into. -/
inductive AliasOf (u : Unicode) (label : List Char) : List Char × Option (List Char) → Prop where
  | exception {team : List Char} (h : (normalizeText u label, team) ∈ normalizedTeamExceptions u) :
      AliasOf u label (team, none)
  | whole (h : normalizeText u label ∉ (normalizedTeamExceptions u).map Prod.fst) :
      AliasOf u label (normalizeText u label, none)
  | parted (h : normalizeText u label ∉ (normalizedTeamExceptions u).map Prod.fst)
      {city initials : List Char} (hInitials : IsWord initials)
      (hLabel : normalizeText u label = city ++ ' ' :: initials) :
      AliasOf u label (city, some initials)

theorem aliasOf (u : Unicode) (label : List Char) : AliasOf u label (resolveTeamAlias u label) := by
  rw [resolveTeamAlias]
  dsimp only
  cases hLookup : (normalizedTeamExceptions u).reverse.lookup (normalizeText u label) with
  | some team =>
    obtain ⟨before, after, hTable, -⟩ := List.lookup_eq_some_iff.mp hLookup
    refine .exception (List.mem_reverse.mp ?_)
    rw [hTable]
    exact List.mem_append_right _ List.mem_cons_self
  | none =>
    have hAbsent : normalizeText u label ∉ (normalizedTeamExceptions u).map Prod.fst := by
      intro hKey
      obtain ⟨entry, hEntry, hName⟩ := List.mem_map.mp hKey
      have hDiffer := List.lookup_eq_none_iff.mp hLookup entry (List.mem_reverse.mpr hEntry)
      simp [hName] at hDiffer
    dsimp only
    cases hLast : (words (normalizeText u label)).getLast? with
    | none => exact .whole hAbsent
    | some suffix =>
      dsimp only
      split
      next hShort =>
        obtain ⟨parts, hParts⟩ := List.getLast?_eq_some_iff.mp hLast
        have hCity : parts ≠ [] := by
          rintro rfl
          rw [hParts] at hShort
          exact absurd hShort.1 (by simp)
        refine .parted hAbsent (isWord_of_mem_words suffix (List.mem_of_mem_getLast? hLast)) ?_
        calc
          normalizeText u label = joinWords (parts ++ [suffix]) := by
            rw [← hParts, joinWords_normalizeText]
          _ = joinWords parts ++ ' ' :: joinWords [suffix] :=
            joinWords_append hCity (List.cons_ne_nil _ _)
          _ = _ := by rw [hParts, List.dropLast_concat, joinWords_singleton]
      next => exact .whole hAbsent

/-- Initials are found again where the other label is the city and the same initials. -/
theorem teamsMatch_of_parted {label other city initials : List Char}
    (hAlias : resolveTeamAlias u label = (city, some initials)) (hInitials : IsWord initials)
    (hOther : normalizeText u other = city ++ ' ' :: initials) : teamsMatch u label other = true := by
  have hPrefix : city <+: normalizeText u other := ⟨' ' :: initials, hOther.symm⟩
  have hRemainder : strip ((normalizeText u other).drop city.length) = initials := by
    have hStripped := @strip_surrounded [' '] initials [] (List.all_eq_true.mp (by decide))
      hInitials.trimmed (List.forall_mem_nil _)
    rw [List.append_nil] at hStripped
    rw [hOther, List.drop_left]
    exact hStripped
  unfold teamsMatch
  rw [hAlias]
  dsimp only
  split
  next => rfl
  next =>
    rw [if_neg fun hNowhere => hNowhere.1 hPrefix, hRemainder, hInitials.words_eq]
    exact decide_eq_true (.inr (List.prefix_refl _))

/-- A label matches whatever is written the same, and without initials whatever begins so. -/
structure NamesItself (u : Unicode) (label : List Char) : Prop where
  same : ∀ other, normalizeText u other = normalizeText u label → teamsMatch u label other = true
  longer : (resolveTeamAlias u label).2 = none →
    ∀ other, normalizeText u other = normalizeText u label →
      ∀ following, teamsMatch u label (other ++ ' ' :: following) = true

theorem namesItself_of_not_exception (hSplits : u.SplitsAtSpaces) {label : List Char}
    (h : normalizeText u label ∉ (normalizedTeamExceptions u).map Prod.fst) :
    NamesItself u label := by
  have hAlias := aliasOf u label
  generalize hParts : resolveTeamAlias u label = parts at hAlias
  cases hAlias with
  | exception hKey => exact absurd (List.mem_map_of_mem hKey) h
  | whole =>
    have hBare : (resolveTeamAlias u label).2 = none := by rw [hParts]
    have hCity : (resolveTeamAlias u label).1 = normalizeText u label := by rw [hParts]
    constructor
    · intro other hSame
      rw [teamsMatch_of_bare_city hBare, hCity, hSame]
    · intro _ other hSame following
      rw [teamsMatch_of_bare_city hBare, hCity, ← hSame]
      exact (normalizeText_begins hSplits other following).isInfix
  | parted _ hInitials hLabel =>
    constructor
    · intro other hSame
      exact teamsMatch_of_parted hParts hInitials (hSame.trans hLabel)
    · intro hBare
      rw [hParts] at hBare
      cases hBare

theorem normalizedTeamExceptions_eq (hAscii : u.AgreesOnAscii) :
    normalizedTeamExceptions u = normalizedTeamExceptions .ascii := by
  have hKeys : ∀ entry ∈ teamExceptions, IsAscii entry.1.toList := by decide
  refine List.map_congr_left ?_
  intro entry hEntry
  rw [normalizeText_of_ascii hAscii (hKeys entry hEntry)]

/-- No key of the table contains the name that stands for it. -/
theorem not_infix_of_exception :
    ∀ entry ∈ normalizedTeamExceptions .ascii, ¬entry.2 <:+: entry.1 := by
  decide +kernel

theorem namesItself_iff (hSplits : u.SplitsAtSpaces) (hAscii : u.AgreesOnAscii) (label : List Char) :
    NamesItself u label ↔
      normalizeText u label ∉ (normalizedTeamExceptions u).map Prod.fst := by
  constructor
  · intro h hKey
    have hAlias := aliasOf u label
    have hMatches := h.same label rfl
    generalize hParts : resolveTeamAlias u label = parts at hAlias
    cases hAlias with
    | exception hEntry =>
      rw [teamsMatch_of_bare_city (by rw [hParts]), hParts] at hMatches
      rw [normalizedTeamExceptions_eq hAscii] at hEntry
      exact not_infix_of_exception _ hEntry hMatches
    | whole hAbsent => exact hAbsent hKey
    | parted hAbsent => exact hAbsent hKey
  · exact namesItself_of_not_exception hSplits

theorem chicago_namesItself_iff :
    NamesItself .ascii "Chicago WS".toList ↔
      normalizeText .ascii "Chicago WS".toList ∉ (normalizedTeamExceptions .ascii).map Prod.fst :=
  namesItself_iff Unicode.ascii_splitsAtSpaces Unicode.ascii_agreesOnAscii "Chicago WS".toList

/-- Each key of the table is a name that does not match itself. -/
theorem exceptions_unmatched :
    (∀ entry ∈ teamExceptions, normalizeText .ascii entry.1.toList ≠ [] ∧
      teamsMatch .ascii entry.1.toList entry.1.toList = false) ∧
        ¬NamesItself .ascii "Oakland".toList := by
  refine ⟨by decide +kernel, ?_⟩
  intro h
  have hOakland : teamsMatch .ascii "Oakland".toList "Oakland".toList = false := by decide +kernel
  rw [h.same "Oakland".toList rfl] at hOakland
  cases hOakland

end KalshiBot.CrossVenue

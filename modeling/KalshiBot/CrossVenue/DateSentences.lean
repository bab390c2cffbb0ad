import KalshiBot.CrossVenue.DatePhrases
import KalshiBot.CrossVenue.Numerals

/-! # Dates and times in full

How a venue writes a scheduled start, and that the phrase is decoded to the time it states.
-/

namespace KalshiBot.CrossVenue

open PythonText

set_option autoImplicit false

def monthNames : List (String × ℕ) :=
  [("january", 1), ("february", 2), ("march", 3), ("april", 4), ("may", 5), ("june", 6),
    ("july", 7), ("august", 8), ("september", 9), ("october", 10), ("november", 11),
    ("december", 12)]

/-- The month's name, or its first three letters, in whatever case. -/
def NamesMonth (month : ℕ) (text : List Char) : Prop :=
  ∃ name, (name, month) ∈ monthNames ∧
    (text.map Char.toLower = name.toList ∨ text.map Char.toLower = name.toList.take 3)

def Writes (run : List (Fin 10)) (value : ℕ) : Prop :=
  Nat.ofDigits 10 (run.map Fin.val).reverse = value

instance (run : List (Fin 10)) (value : ℕ) : Decidable (Writes run value) :=
  inferInstanceAs (Decidable (_ = _))

/-- A start as `Aug 25, 2026 at 7:45 PM EDT` states it. -/
structure DateSentence where
  date : CivilDate
  hour : ℕ
  minute : ℕ
  afternoon : Bool
  tz : String
  zoneName : String
  monthText : List Char
  dayDigits : List (Fin 10)
  yearDigits : List (Fin 10)
  hourDigits : List (Fin 10)
  minuteDigits : List (Fin 10)
  year_range : 1900 ≤ date.year ∧ date.year ≤ 9990
  hour_range : 1 ≤ hour ∧ hour ≤ 12
  minute_range : minute ≤ 59
  tz_known : (tz, zoneName) ∈ tzAbbreviations
  tz_letters : ∀ c ∈ tz.toList, c.isAlpha
  tz_length : 2 ≤ tz.toList.length ∧ tz.toList.length ≤ 4
  month_named : NamesMonth date.month monthText
  day_written : Writes dayDigits date.day
  day_length : dayDigits ≠ [] ∧ dayDigits.length ≤ 2
  year_written : Writes yearDigits date.year
  year_length : yearDigits.length = 4
  hour_written : Writes hourDigits hour
  hour_length : hourDigits ≠ [] ∧ hourDigits.length ≤ 2
  minute_written : Writes minuteDigits minute
  minute_length : minuteDigits.length = 2

namespace DateSentence

variable (sentence : DateSentence)

def meridiem : List Char := if sentence.afternoon then ['P', 'M'] else ['A', 'M']

def clockText : List Char :=
  [' ', 'a', 't', ' '] ++ sentence.hourDigits.map digitChar ++ [':'] ++
    sentence.minuteDigits.map digitChar ++ [' '] ++ sentence.meridiem ++ [' '] ++ sentence.tz.toList

def written : List Char :=
  sentence.monthText ++ [' '] ++ sentence.dayDigits.map digitChar ++ [',', ' '] ++
    sentence.yearDigits.map digitChar ++ sentence.clockText

/-- Noon is 12 PM, and midnight is 12 AM. -/
def hourOfDay : ℕ := sentence.hour % 12 + if sentence.afternoon then 12 else 0

def localTime : ℤ := sentence.date.localTime sentence.hourOfDay sentence.minute

def instant (offset : String → ℤ → ℤ) : ℤ :=
  sentence.localTime - offset sentence.zoneName sentence.localTime

end DateSentence

/-- The zones whose local times lie before or behind UTC by `offset`. -/
def zonesAt (offset : String → ℤ → ℤ) (zoneName : String) : Option Zone :=
  some fun time => some (time - offset zoneName time)

/-- Read with `after` behind it, `before` has no match that begins in it. -/
def NoMatchBegins (u : Unicode) (before after : List Char) : Prop :=
  ∀ start < before.length, phraseAt u ((before ++ after).drop start) = none

section Reading

variable {u : Unicode}

theorem foldCase_of_lower {c : Char} (h : c.toLower.isLower) : foldCase c = c.toLower := by
  have hOther : ∀ d ∈ ['ſ', Char.ofNat 0x212A, 'ı', 'İ'], d.toLower.isLower = false :=
    List.all_iff_forall_prop.mp (by decide)
  have hNot : ∀ d ∈ ['ſ', Char.ofNat 0x212A, 'ı', 'İ'], c ≠ d := by
    rintro d hIn rfl
    rw [hOther c hIn] at h
    cases h
  rw [foldCase, if_neg (hNot _ (by decide)), if_neg (hNot _ (by decide)), if_neg]
  exact not_or.mpr ⟨hNot _ (by decide), hNot _ (by decide)⟩

/-- What the pattern needs of a month's text: its three letters, and letters behind them. -/
structure MonthText (month : ℕ) (text : List Char) : Prop where
  lookup : months.lookup (String.ofList ((text.take 3).map Char.toLower)) = some month
  letters : ∀ c ∈ text, c.toLower.isLower
  length : 3 ≤ text.length

theorem monthText_of_names {month : ℕ} {text : List Char} (h : NamesMonth month text) :
    MonthText month text := by
  have hNames : ∀ entry ∈ monthNames,
      months.lookup (String.ofList (entry.1.toList.take 3)) = some entry.2 ∧
        entry.1.toList.all Char.isLower ∧ 3 ≤ entry.1.toList.length := by decide
  obtain ⟨name, hName, hText⟩ := h
  obtain ⟨hLookup, hLower, hLength⟩ := hNames _ hName
  dsimp only at hLookup hLower hLength
  have hPrefix : text.map Char.toLower <+: name.toList ∧ 3 ≤ (text.map Char.toLower).length := by
    obtain hFull | hShort := hText
    · rw [hFull]
      exact ⟨List.prefix_rfl, hLength⟩
    · rw [hShort, List.length_take]
      exact ⟨List.take_prefix 3 _, Nat.le_min.mpr ⟨le_rfl, hLength⟩⟩
  obtain ⟨⟨tail, hTail⟩, hEnough⟩ := hPrefix
  constructor
  · rw [List.map_take, ← hLookup, ← hTail, List.take_append_of_le_length hEnough]
  · intro c hIn
    exact List.all_eq_true.mp hLower _ (hTail ▸ List.mem_append_left _ (List.mem_map_of_mem hIn))
  · rwa [List.length_map] at hEnough

theorem MonthText.foldCase {month : ℕ} {text : List Char} (h : MonthText month text) :
    text.map foldCase = text.map Char.toLower :=
  List.map_congr_left fun c hIn => foldCase_of_lower (h.letters c hIn)

theorem monthAt_append {month : ℕ} {text : List Char} (h : MonthText month text)
    (rest : List Char) :
    monthAt (text ++ rest) =
      some (String.ofList ((text.take 3).map Char.toLower), text.drop 3 ++ rest) := by
  have hIn : String.ofList ((text.take 3).map Char.toLower) ∈ months.map Prod.fst := by
    obtain ⟨left, right, hMonths, -⟩ := List.lookup_eq_some_iff.mp h.lookup
    rw [hMonths, List.map_append, List.map_cons]
    exact List.mem_append_right _ (List.mem_cons_self ..)
  rw [monthAt, List.take_append_of_le_length h.length, List.drop_append_of_le_length h.length,
    List.map_take, h.foldCase, ← List.map_take, if_pos hIn]

theorem dropWhile_letters {text rest : List Char} (h : ∀ c ∈ text, c.toLower.isLower)
    (hRest : ∀ c ∈ rest.head?, isLetter c = false) :
    (text ++ rest).dropWhile isLetter = rest := by
  have hLetters : ∀ c ∈ text, isLetter c := by
    intro c hIn
    rw [isLetter, foldCase_of_lower (h c hIn)]
    exact h c hIn
  rw [List.dropWhile_append_of_pos hLetters, dropWhile_of_head hRest]

/-- A space counts as all the space before a character that is none. -/
theorem dropWhile_space {rest : List Char} (h : ∀ c ∈ rest.head?, isSpace c = false) :
    (' ' :: rest).dropWhile isSpace = rest := by
  rw [List.dropWhile_cons_of_pos (by decide), dropWhile_of_head h]

theorem someSpaces_space {rest : List Char} (h : ∀ c ∈ rest.head?, isSpace c = false) :
    someSpaces (' ' :: rest) = some rest := by
  rw [someSpaces, if_pos (by rfl), dropWhile_space h]

theorem head_digits {run : List (Fin 10)} (hSome : run ≠ []) (rest : List Char) :
    ∀ c ∈ (run.map digitChar ++ rest).head?, isSpace c = false := by
  have hDigits : ∀ d : Fin 10, isSpace (digitChar d) = false := by decide
  obtain ⟨d, run, rfl⟩ := List.exists_cons_of_ne_nil hSome
  intro c hHead
  obtain rfl := Option.some.inj hHead
  exact hDigits d

/-- The date is read up to the year, and the clock from there. -/
theorem phraseAt_append (hAscii : u.AgreesOnAscii) (sentence : DateSentence) {rest : List Char}
    (hRest : ∀ c ∈ rest.head?, u.digit c = none) :
    phraseAt u (sentence.monthText ++ ' ' :: (sentence.dayDigits.map digitChar ++
        ',' :: ' ' :: (sentence.yearDigits.map digitChar ++ rest))) =
      some ⟨String.ofList ((sentence.monthText.take 3).map Char.toLower), sentence.date.day,
        sentence.date.year, clockAt u rest⟩ := by
  have hMonth := monthText_of_names sentence.month_named
  have hYearSome : sentence.yearDigits ≠ [] :=
    List.ne_nil_of_length_pos (by rw [sentence.year_length]; decide)
  have hLetters (later : List Char) :
      (sentence.monthText.drop 3 ++ ' ' :: later).dropWhile isLetter = ' ' :: later :=
    dropWhile_letters (fun c hIn => hMonth.letters c (List.mem_of_mem_drop hIn))
      (by rintro c ⟨⟩; decide)
  have hDay (later : List Char) : digits u 2 (sentence.dayDigits.map digitChar ++ ',' :: later) =
      (sentence.dayDigits.map Fin.val, ',' :: later) :=
    digits_whole hAscii (undigited_head hAscii (by decide) rfl later) sentence.day_length.2
  have hYear := digits_whole hAscii hRest (le_of_eq sentence.year_length)
  have hPoint (later : List Char) : optionalChar '.' (' ' :: later) = ' ' :: later := rfl
  have hComma (later : List Char) : optionalChar ',' (',' :: later) = later := rfl
  have hDaySome : sentence.dayDigits.map Fin.val ≠ [] := by
    simpa using sentence.day_length.1
  have hYearLength : (sentence.yearDigits.map Fin.val).length = 4 := by
    rw [List.length_map, sentence.year_length]
  simp only [phraseAt, monthAt_append hMonth, Option.bind_eq_bind, Option.bind_some, hLetters,
    hPoint, someSpaces_space (head_digits sentence.day_length.1 _), hDay, hDaySome, hComma,
    someSpaces_space (head_digits hYearSome _), hYear, hYearLength, guard_true, Option.pure_def,
    ne_eq, not_false_eq_true]
  rw [← sentence.day_written, ← sentence.year_written]
  rfl

theorem minuteAt_append (hAscii : u.AgreesOnAscii) {run : List (Fin 10)} (hLength : run.length = 2)
    (rest : List Char) :
    minuteAt u (':' :: (run.map digitChar ++ ' ' :: rest)) =
      (some (valueOf (run.map Fin.val)), ' ' :: rest) := by
  have hRun : digits u 2 (run.map digitChar ++ ' ' :: rest) = (run.map Fin.val, ' ' :: rest) :=
    digits_whole hAscii (undigited_head hAscii (by decide) rfl rest) (le_of_eq hLength)
  rw [minuteAt, hRun]
  dsimp only
  rw [if_pos (by rw [List.length_map, hLength])]

theorem tzAt_append (sentence : DateSentence) {after : List Char}
    (hAfter : ∀ c ∈ after.head?, isLetter c = false) :
    tzAt (sentence.tz.toList ++ after) = some sentence.tz := by
  have hLetters : ∀ entry ∈ tzAbbreviations, entry.1.toList.all Char.isAlpha →
      entry.1.toList.all fun c => isLetter c ∧ upperLetter c = c := by decide
  have hTz := List.all_iff_forall_prop.mp
    (hLetters _ sentence.tz_known (List.all_eq_true.mpr sentence.tz_letters))
  have hTaken : (sentence.tz.toList ++ after).takeWhile isLetter = sentence.tz.toList := by
    rw [List.takeWhile_append_of_pos fun c hIn => (hTz c hIn).1]
    cases after with
    | nil => exact List.append_nil _
    | cons c after =>
      rw [List.takeWhile_cons_of_neg (by simp [hAfter c rfl]), List.append_nil]
  have hUpper : sentence.tz.toList.map upperLetter = sentence.tz.toList :=
    (List.map_congr_left fun c hIn => (hTz c hIn).2).trans (List.map_id _)
  rw [tzAt, hTaken, List.take_of_length_le sentence.tz_length.2]
  rw [if_pos sentence.tz_length.1, hUpper, String.ofList_toList]

theorem DateSentence.tz_some (sentence : DateSentence) : sentence.tz.toList ≠ [] := by
  have hLength := sentence.tz_length.1
  rintro hNone
  rw [hNone] at hLength
  cases hLength

/-- The clock as the pattern finds it. -/
def DateSentence.clock (sentence : DateSentence) : Clock where
  hour := sentence.hour
  minute := some sentence.minute
  meridiem := some (if sentence.afternoon then "pm" else "am")
  tz := some sentence.tz

theorem clockAt_append (hAscii : u.AgreesOnAscii) (sentence : DateSentence) {after : List Char}
    (hAfter : ∀ c ∈ after.head?, isLetter c = false) :
    clockAt u (' ' :: 'a' :: 't' :: ' ' :: (sentence.hourDigits.map digitChar ++
        ':' :: (sentence.minuteDigits.map digitChar ++
          ' ' :: (sentence.meridiem ++ ' ' :: (sentence.tz.toList ++ after))))) =
      some sentence.clock := by
  have hAt (later : List Char) : optionalAt ('a' :: 't' :: later) = later := rfl
  have hHour (later : List Char) : digits u 2 (sentence.hourDigits.map digitChar ++ ':' :: later) =
      (sentence.hourDigits.map Fin.val, ':' :: later) :=
    digits_whole hAscii (undigited_head hAscii (by decide) rfl later) sentence.hour_length.2
  have hHourSome : sentence.hourDigits.map Fin.val ≠ [] := by
    simpa using sentence.hour_length.1
  have hBefore (later : List Char) :
      (' ' :: 'a' :: 't' :: later).dropWhile isSpace = 'a' :: 't' :: later :=
    dropWhile_space (by rintro c ⟨⟩; decide)
  have hMeridiem (later : List Char) :
      meridiemAt ((' ' :: (sentence.meridiem ++ later)).dropWhile isSpace) =
        (sentence.clock.meridiem, later) := by
    rw [DateSentence.meridiem, DateSentence.clock]
    cases sentence.afternoon <;> rfl
  have hTzHead : ∀ c ∈ (sentence.tz.toList ++ after).head?, isSpace c = false := by
    obtain ⟨c, tz, hTz⟩ := List.exists_cons_of_ne_nil sentence.tz_some
    intro d hHead
    rw [hTz] at hHead
    obtain rfl := Option.some.inj hHead
    exact isSpace_of_isAlpha (sentence.tz_letters c (hTz ▸ List.mem_cons_self ..))
  simp only [clockAt, hBefore, hAt, dropWhile_space (head_digits sentence.hour_length.1 _), hHour,
    hHourSome, if_false, minuteAt_append hAscii sentence.minute_length, hMeridiem,
    dropWhile_space hTzHead, tzAt_append sentence hAfter]
  rw [DateSentence.clock, ← sentence.hour_written, ← sentence.minute_written]
  rfl

theorem hourOfDay_clock (sentence : DateSentence) :
    sentence.clock.hourOfDay = sentence.hourOfDay := by
  have hRange := sentence.hour_range
  rw [Clock.hourOfDay, DateSentence.hourOfDay, DateSentence.clock]
  have hApart : ("pm" : String) ≠ "am" := by decide
  cases sentence.afternoon with
  | true =>
    simp only [if_true, Option.some.injEq, true_and, hApart, false_and, if_false]
    split <;> omega
  | false =>
    simp only [Bool.false_eq_true, if_false, Option.some.injEq, true_and, hApart.symm, false_and]
    split <;> omega

theorem searchPhrase_append {before after : List Char} (h : NoMatchBegins u before after) :
    searchPhrase u (before ++ after) = searchPhrase u after := by
  induction before with
  | nil => rfl
  | cons c before ih =>
    have hFirst : phraseAt u (c :: (before ++ after)) = none := h 0 (Nat.succ_pos _)
    have hLater : NoMatchBegins u before after := fun start hStart =>
      h (start + 1) (Nat.succ_lt_succ hStart)
    rw [List.cons_append, searchPhrase, hFirst, ih hLater]
    rfl

/-- The phrase as the pattern finds it. -/
def DateSentence.phrase (sentence : DateSentence) : DatePhrase where
  month := String.ofList ((sentence.monthText.take 3).map Char.toLower)
  day := sentence.date.day
  year := sentence.date.year
  clock := some sentence.clock

theorem phraseAt_written (hAscii : u.AgreesOnAscii) (sentence : DateSentence) {after : List Char}
    (hAfter : ∀ c ∈ after.head?, isLetter c = false) :
    phraseAt u (sentence.written ++ after) = some sentence.phrase := by
  simp only [DateSentence.written, DateSentence.clockText, List.append_assoc, List.cons_append,
    List.nil_append]
  rw [phraseAt_append hAscii sentence (undigited_head hAscii (by decide) rfl _),
    clockAt_append hAscii sentence hAfter, DateSentence.phrase]

theorem time_phrase (offset : String → ℤ → ℤ) (sentence : DateSentence) :
    sentence.phrase.time (zonesAt offset) = some (some (sentence.instant offset)) := by
  have hHour : ¬23 < sentence.hourOfDay := by
    rw [DateSentence.hourOfDay]
    split <;> omega
  have hMinute : ¬59 < sentence.minute := not_lt.mpr sentence.minute_range
  have hMonth : months.lookup sentence.phrase.month = some sentence.date.month :=
    (monthText_of_names sentence.month_named).lookup
  have hKnown : ∀ entry ∈ tzAbbreviations, tzAbbreviations.lookup entry.1 = some entry.2 := by
    decide
  have hZone : zoneOf (zonesAt offset) sentence.tz = zonesAt offset sentence.zoneName := by
    rw [zoneOf, hKnown _ sentence.tz_known]
  have hDate : sentence.phrase.date sentence.date.month = some sentence.date :=
    dif_pos ⟨sentence.date.year_range, sentence.date.month_range, sentence.date.day_range⟩
  have hClock : sentence.phrase.clock = some sentence.clock := rfl
  have hTz : sentence.clock.tz = some sentence.tz := rfl
  have hStated : sentence.clock.minute = some sentence.minute := rfl
  simp only [DatePhrase.time, hMonth, hClock, Option.map_some, Option.bind_some, Option.getD_some,
    hourOfDay_clock, hHour, if_false, hTz, hZone, hStated, zonesAt, hDate, hMinute]
  rfl

/-- A sentence is decoded to the time it states, in the zone it states. -/
theorem parse_sentence (hAscii : u.AgreesOnAscii) (offset : String → ℤ → ℤ)
    (sentence : DateSentence) {before after : List Char}
    (hBefore : NoMatchBegins u before (sentence.written ++ after))
    (hAfter : ∀ c ∈ after.head?, isLetter c = false) :
    parseDatetimePhrase u (zonesAt offset)
        (String.ofList (before ++ (sentence.written ++ after))) =
      some (some (sentence.instant offset)) := by
  have hPhrase := phraseAt_written hAscii sentence hAfter
  have hSearch : searchPhrase u (sentence.written ++ after) = some sentence.phrase := by
    generalize sentence.written ++ after = text at hPhrase ⊢
    cases text with
    | nil => cases hPhrase
    | cons c rest =>
      rw [searchPhrase, hPhrase]
      rfl
  rw [parseDatetimePhrase, String.toList_ofList, searchPhrase_append hBefore, hSearch]
  exact time_phrase offset sentence

/-- `Aug 25, 2026 at 7:45 PM EDT` -/
def augustEvening : DateSentence where
  date := ⟨2026, 8, 25, by decide, by decide, by decide⟩
  hour := 7
  minute := 45
  afternoon := true
  tz := "EDT"
  zoneName := "America/New_York"
  monthText := ['A', 'u', 'g']
  dayDigits := [⟨2, by decide⟩, ⟨5, by decide⟩]
  yearDigits := [⟨2, by decide⟩, ⟨0, by decide⟩, ⟨2, by decide⟩, ⟨6, by decide⟩]
  hourDigits := [⟨7, by decide⟩]
  minuteDigits := [⟨4, by decide⟩, ⟨5, by decide⟩]
  year_range := by decide
  hour_range := by decide
  minute_range := by decide
  tz_known := by decide
  tz_letters := List.all_eq_true.mp (by decide)
  tz_length := by decide
  month_named := ⟨"august", by decide, .inr (by decide)⟩
  day_written := by decide
  day_length := by decide
  year_written := by decide
  year_length := rfl
  hour_written := by decide
  hour_length := by decide
  minute_written := by decide
  minute_length := rfl

/-- Four hours behind UTC. -/
def summerOffset (_ : String) (_ : ℤ) : ℤ := -4 * 3600 * secondUs

theorem parse_augustEvening :
    parseDatetimePhrase .ascii (zonesAt summerOffset)
        "Dodgers at Giants, Aug 25, 2026 at 7:45 PM EDT, then Yes." =
      some (some 1787701500000000) := by
  have hText : "Dodgers at Giants, Aug 25, 2026 at 7:45 PM EDT, then Yes." =
      String.ofList ("Dodgers at Giants, ".toList ++ (augustEvening.written ++
        ", then Yes.".toList)) := by decide +kernel
  have hInstant : augustEvening.instant summerOffset = 1787701500000000 := by decide +kernel
  rw [hText, ← hInstant]
  exact parse_sentence Unicode.ascii_agreesOnAscii summerOffset augustEvening
    (by unfold NoMatchBegins; decide +kernel) (by rintro c ⟨⟩; decide)

/-- A dotless i counts as a letter of `[A-Z]` under `re.IGNORECASE`, so the abbreviation is read
with it, is not known and stands for UTC. -/
theorem dotless_swallowed :
    (∀ c ∈ "ı".toList.head?, c.isAlpha = false) ∧
      NoMatchBegins .ascii [] (augustEvening.written ++ "ı".toList) ∧
      parseDatetimePhrase .ascii (zonesAt summerOffset)
          (String.ofList ([] ++ (augustEvening.written ++ "ı".toList))) =
        some (some 1787687100000000) ∧
      augustEvening.instant summerOffset = 1787701500000000 := by
  refine ⟨?_, ?_, by decide +kernel, by decide +kernel⟩
  · rintro c ⟨⟩
    decide
  · rintro start ⟨⟩

end Reading

end KalshiBot.CrossVenue

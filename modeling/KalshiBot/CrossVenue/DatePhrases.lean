import KalshiBot.CrossVenue.Markets

/-! # Dates in prose

The pattern of a date phrase never has to go back: wherever it may take a character, the rest of
it could not match that character. It is therefore read from left to right, once from each start.
-/

namespace KalshiBot.CrossVenue

open PythonText

set_option autoImplicit false

/-- The case folding of `re.IGNORECASE`, by which four letters beyond ASCII count as ASCII ones. -/
def foldCase (c : Char) : Char :=
  if c = 'ſ' then 's'
  else if c = Char.ofNat 0x212A then 'k'
  else if c = 'ı' ∨ c = 'İ' then 'i'
  else c.toLower

def isLetter (c : Char) : Bool := (foldCase c).isLower

/-- `str.upper` on such a letter. -/
def upperLetter (c : Char) : Char :=
  if c = 'ſ' then 'S' else if c = 'ı' then 'I' else c.toUpper

def months : List (String × ℕ) :=
  [("jan", 1), ("feb", 2), ("mar", 3), ("apr", 4), ("may", 5), ("jun", 6), ("jul", 7), ("aug", 8),
    ("sep", 9), ("oct", 10), ("nov", 11), ("dec", 12)]

def tzAbbreviations : List (String × String) :=
  [("ET", "America/New_York"), ("ET.", "America/New_York"), ("EDT", "America/New_York"),
    ("EST", "America/New_York"), ("CT", "America/Chicago"), ("CDT", "America/Chicago"),
    ("CST", "America/Chicago"), ("MT", "America/Denver"), ("MDT", "America/Denver"),
    ("MST", "America/Denver"), ("PT", "America/Los_Angeles"), ("PDT", "America/Los_Angeles"),
    ("PST", "America/Los_Angeles"), ("UTC", "UTC"), ("GMT", "UTC"), ("Z", "UTC")]

/-- The time of day of a phrase, as far as it states one. -/
structure Clock where
  hour : ℕ
  minute : Option ℕ
  meridiem : Option String
  tz : Option String
deriving DecidableEq

/-- The month is the text that was found, in lower case. -/
structure DatePhrase where
  month : String
  day : ℕ
  year : ℕ
  clock : Option Clock
deriving DecidableEq

variable (u : Unicode)

def valueOf (digits : List ℕ) : ℕ := Nat.ofDigits 10 digits.reverse

/-- `\s+` -/
def someSpaces (text : List Char) : Option (List Char) :=
  if text.head?.any isSpace then some (text.dropWhile isSpace) else none

/-- An optional character. -/
def optionalChar (c : Char) (text : List Char) : List Char := if text.head? = some c then text.tail else text

def monthAt (text : List Char) : Option (String × List Char) :=
  if String.ofList ((text.take 3).map foldCase) ∈ months.map Prod.fst then
    some (String.ofList ((text.take 3).map Char.toLower), text.drop 3)
  else none

/-- `(?:at|,)?` -/
def optionalAt (text : List Char) : List Char :=
  if (text.take 2).map foldCase = ['a', 't'] then text.drop 2 else optionalChar ',' text

def minuteAt (text : List Char) : Option ℕ × List Char :=
  match text with
  | ':' :: rest =>
    let (minute, after) := digits u 2 rest
    if minute.length = 2 then (some (valueOf minute), after) else (none, text)
  | _ => (none, text)

def meridiemAt (text : List Char) : Option String × List Char :=
  let word := (text.take 2).map foldCase
  if word = ['a', 'm'] ∨ word = ['p', 'm'] then (some (String.ofList word), text.drop 2)
  else (none, text)

def tzAt (text : List Char) : Option String :=
  let word := (text.takeWhile isLetter).take 4
  if 2 ≤ word.length then some (String.ofList (word.map upperLetter)) else none

def clockAt (text : List Char) : Option Clock :=
  let (hour, text) := digits u 2 ((optionalAt (text.dropWhile isSpace)).dropWhile isSpace)
  if hour = [] then none
  else
    let (minute, text) := minuteAt u text
    let (meridiem, text) := meridiemAt (text.dropWhile isSpace)
    some ⟨valueOf hour, minute, meridiem, tzAt (text.dropWhile isSpace)⟩

def phraseAt (text : List Char) : Option DatePhrase := do
  let (month, text) ← monthAt text
  let text ← someSpaces (optionalChar '.' (text.dropWhile isLetter))
  let (day, text) := digits u 2 text
  guard (day ≠ [])
  let text ← someSpaces (optionalChar ',' text)
  let (year, text) := digits u 4 text
  guard (year.length = 4)
  pure ⟨month, valueOf day, valueOf year, clockAt u text⟩

/-- `_DATETIME_RE.search` -/
def searchPhrase : List Char → Option DatePhrase
  | [] => none
  | c :: rest => phraseAt u (c :: rest) <|> searchPhrase rest

def isLeap (year : ℕ) : Bool := year % 4 = 0 ∧ (year % 100 ≠ 0 ∨ year % 400 = 0)

def daysInMonth (year month : ℕ) : ℕ :=
  if month = 2 then if isLeap year then 29 else 28
  else if month ∈ [4, 6, 9, 11] then 30 else 31

/-- A date that `datetime` accepts. -/
structure CivilDate where
  year : ℕ
  month : ℕ
  day : ℕ
  year_range : 1 ≤ year ∧ year ≤ 9999
  month_range : 1 ≤ month ∧ month ≤ 12
  day_range : 1 ≤ day ∧ day ≤ daysInMonth year month

def CivilDate.of? (year month day : ℕ) : Option CivilDate :=
  if h : (1 ≤ year ∧ year ≤ 9999) ∧ (1 ≤ month ∧ month ≤ 12) ∧
      (1 ≤ day ∧ day ≤ daysInMonth year month) then some ⟨year, month, day, h.1, h.2.1, h.2.2⟩
  else none

/-- Days from 1970-01-01, the 719163rd day of the calendar. -/
def CivilDate.epochDay (date : CivilDate) : ℤ :=
  let before := date.year - 1
  let ordinal := before * 365 + before / 4 - before / 100 + before / 400 +
    ((List.range (date.month - 1)).map fun month => daysInMonth date.year (month + 1)).sum + date.day
  (ordinal : ℤ) - 719163

def CivilDate.localTime (date : CivilDate) (hour minute : ℕ) : ℤ :=
  date.epochDay * dayUs + (hour * 3600 + minute * 60) * secondUs

/-- The UTC time of a local one; `none` is an exception. -/
abbrev Zone := ℤ → Option ℤ

/-- `zoneInfo` stands for `ZoneInfo`; an unknown abbreviation is UTC. -/
def zoneOf (zoneInfo : String → Option Zone) (tz : String) : Option Zone :=
  match tzAbbreviations.lookup tz with
  | some zoneName => zoneInfo zoneName
  | none => some some

/-- The hour in the day, out of range where the phrase's is. -/
def Clock.hourOfDay (clock : Clock) : ℕ :=
  if clock.meridiem = some "pm" ∧ clock.hour ≠ 12 then clock.hour + 12
  else if clock.meridiem = some "am" ∧ clock.hour = 12 then 0
  else clock.hour

/-- The date of a phrase, if the calendar has it. -/
def DatePhrase.date (phrase : DatePhrase) (month : ℕ) : Option CivilDate :=
  CivilDate.of? phrase.year month phrase.day

def DatePhrase.time (zoneInfo : String → Option Zone) (phrase : DatePhrase) : Option (Option ℤ) :=
  let hour := (phrase.clock.map Clock.hourOfDay).getD 0
  let minute := (phrase.clock.bind Clock.minute).getD 0
  match months.lookup phrase.month with
  | none => some none
  | some month =>
    if 23 < hour then some none
    else match zoneOf zoneInfo ((phrase.clock.bind Clock.tz).getD "UTC") with
      | none => none
      | some zone =>
        match phrase.date month with
        | none => some none
        | some date =>
          if 59 < minute then some none else (zone (date.localTime hour minute)).map some

/-- The outer `none` is an exception. -/
def parseDatetimePhrase (zoneInfo : String → Option Zone) (text : String) : Option (Option ℤ) :=
  match searchPhrase u text.toList with
  | none => some none
  | some phrase => phrase.time zoneInfo

end KalshiBot.CrossVenue

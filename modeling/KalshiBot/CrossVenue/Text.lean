import KalshiBot.Library.Unicode

/-! # Wording normalization

Two venues' prose turned into tokens, team labels and numbers that can be compared.
-/

namespace KalshiBot.CrossVenue

open PythonText

set_option autoImplicit false

def boilerplate : List String :=
  ["will", "the", "a", "an", "of", "in", "on", "at", "to", "by", "for", "be", "is", "are", "this",
    "that", "market", "markets", "resolve", "resolves", "resolved", "resolution", "yes", "no",
    "then", "if", "and", "or", "vs", "versus", "game", "match", "professional", "originally",
    "scheduled"]

def synonyms : List (String × String) :=
  [("btc", "bitcoin"), ("xbt", "bitcoin"), ("eth", "ethereum"), ("sol", "solana"),
    ("doge", "dogecoin"), ("fed", "federal reserve"), ("fomc", "federal reserve"),
    ("potus", "president"), ("gop", "republican"), ("dems", "democratic"),
    ("democrat", "democratic"), ("bps", "basis points"), ("bp", "basis points"),
    ("pct", "percent"), ("usa", "us"), ("united states", "us"), ("nyc", "new york city")]

def teamExceptions : List (String × String) :=
  [("a's", "athletics"), ("as", "athletics"), ("ath", "athletics"), ("oakland", "athletics"),
    ("washington f", "washington commanders")]

def cityWords : List String := ["bay", "city", "new", "san", "los", "las"]

/-- `label.strip().lower()` -/
def foldLabel (u : Unicode) (label : String) : String := String.ofList (u.lower (strip label.toList))

def lowerText (u : Unicode) (text : String) : String := String.ofList (u.lower text.toList)

def stripAccents (u : Unicode) (text : List Char) : List Char :=
  (u.decompose text).filter (!u.combining ·)

/-- Replaces by a space what `drop` selects, given the characters before and after. -/
def blankOut (drop : Option Char → Char → Option Char → Bool) (previous : Option Char) :
    List Char → List Char
  | [] => []
  | c :: rest =>
    (if drop previous c rest.head? then ' ' else c) :: blankOut drop (some c) rest

def wordHyphen (previous : Option Char) (c : Char) (next : Option Char) : Bool :=
  c = '-' ∧ previous.any Char.isLower ∧ next.any Char.isLower

def wordPeriod (previous : Option Char) (c : Char) (next : Option Char) : Bool :=
  c = '.' ∧ ¬(previous.any Char.isDigit ∧ next.any Char.isDigit)

def punctuation (u : Unicode) (_ : Option Char) (c : Char) (_ : Option Char) : Bool :=
  ¬(u.isWord c ∨ isSpace c ∨ c ∈ ['.', '$', '%', '-', '+'])

def normalizeText (u : Unicode) (text : List Char) : List Char :=
  let folded := u.lower (stripAccents u text)
  let folded := folded.flatMap fun c => if c = '&' then " and ".toList else [c]
  let folded := folded.map fun c => if c = '/' then ' ' else c
  let folded := blankOut wordHyphen none folded
  let folded := blankOut wordPeriod none folded
  let folded := blankOut (punctuation u) none folded
  strip (collapseSpaces folded)

def tokenize (u : Unicode) (text : String) (dropBoilerplate : Bool := true) : List String :=
  (words (normalizeText u text.toList)).flatMap fun raw =>
    let token := String.ofList (stripChars ['.', '-'] raw)
    if token = "" then []
    else
      let expanded := (synonyms.lookup token).getD token
      ((words expanded.toList).map String.ofList).filter fun part =>
        ¬(dropBoilerplate ∧ part ∈ boilerplate)

def numberScale (c : Char) : Option ℕ :=
  if c = 'k' ∨ c = 'K' then some (10 ^ 3)
  else if c = 'm' ∨ c = 'M' then some (10 ^ 6)
  else if c = 'b' ∨ c = 'B' then some (10 ^ 9)
  else none

/-- The digits that `\d+` takes, at most `limit` of them. -/
def digits (u : Unicode) : ℕ → List Char → List ℕ × List Char
  | limit + 1, c :: rest =>
    match u.digit c with
    | some d => ((d :: (digits u limit rest).1), (digits u limit rest).2)
    | none => ([], c :: rest)
  | _, text => ([], text)

/-- The groups that `(?:,\d{3})*` takes. -/
def commaGroups (u : Unicode) : ℕ → List Char → List ℕ × List Char
  | limit + 1, ',' :: rest =>
    let (group, tail) := digits u 3 rest
    if group.length = 3 then
      (group ++ (commaGroups u limit tail).1, (commaGroups u limit tail).2)
    else ([], ',' :: rest)
  | _, text => ([], text)

/-- What `_NUMBER_RE` reads at a digit: whole part, fraction and scale. -/
def numberAt (u : Unicode) (text : List Char) : ℚ :=
  let (short, afterShort) := digits u 3 text
  let (groups, afterGroups) := commaGroups u text.length afterShort
  let (whole, text) :=
    if groups = [] then digits u text.length text else (short ++ groups, afterGroups)
  let (fraction, text) := match text with
    | '.' :: rest =>
      if (digits u rest.length rest).1 = [] then ([], text) else digits u rest.length rest
    | _ => ([], text)
  let scale := match text.dropWhile isSpace with
    | c :: rest => if rest.head?.any Char.isAlpha then none else numberScale c
    | [] => none
  (Nat.ofDigits 10 (whole ++ fraction).reverse : ℕ) / 10 ^ fraction.length * (scale.getD 1 : ℕ)

/-- The value starts at the first digit: only a currency sign and spaces come before it. -/
def parseNumber (u : Unicode) : List Char → Option ℚ
  | [] => none
  | c :: rest => if (u.digit c).isSome then some (numberAt u (c :: rest)) else parseNumber u rest

theorem parseNumber_isSome_iff (u : Unicode) (text : List Char) :
    (parseNumber u text).isSome ↔ ∃ c ∈ text, (u.digit c).isSome := by
  induction text with
  | nil => simp [parseNumber]
  | cons c rest ih =>
    rw [parseNumber]
    split
    next hDigit => simp [hDigit]
    next hOther => simp [ih, hOther]

def comparatorPhrases : List (String × String) :=
  [("greater than or equal to", "greater_equal"), ("less than or equal to", "less_equal"),
    ("at or above", "greater_equal"), ("at or below", "less_equal"),
    ("or above", "greater_equal"), ("or higher", "greater_equal"), ("or more", "greater_equal"),
    ("or below", "less_equal"), ("or lower", "less_equal"), ("or less", "less_equal"),
    ("greater than", "greater"), ("more than", "greater"), ("higher than", "greater"),
    ("at least", "greater_equal"), ("less than", "less"), ("lower than", "less"),
    ("fewer than", "less"), ("at most", "less_equal"), ("above", "greater"), ("below", "less"),
    ("exceed", "greater"), ("reach", "greater_equal"), ("hit", "greater_equal"),
    ("dip to", "less_equal"), (">=", "greater_equal"), ("<=", "less_equal"), (">", "greater"),
    ("<", "less")]

def extractComparator (u : Unicode) (text : List Char) : String :=
  let lowered := u.lower text
  match comparatorPhrases.find? fun phrase => phrase.1.toList <:+: lowered with
  | some phrase => phrase.2
  | none => "none"

/-- `math.isclose` -/
def isClose (left right relTol absTol : ℚ) : Bool :=
  left = right ∨ |right - left| ≤ |relTol * right| ∨ |right - left| ≤ |relTol * left| ∨
    |right - left| ≤ absTol

inductive Direction where
  | up
  | down
deriving DecidableEq

def sameDirection (comparator : String) : Option Direction :=
  if comparator = "greater" ∨ comparator = "greater_equal" then some .up
  else if comparator = "less" ∨ comparator = "less_equal" then some .down
  else none

def thresholdsEquivalent (leftComparator : String) (leftThreshold : Option ℚ)
    (rightComparator : String) (rightThreshold : Option ℚ) (tick : ℚ) : Bool :=
  match leftThreshold, rightThreshold with
  | some left, some right =>
    match sameDirection leftComparator, sameDirection rightComparator with
    | some leftDirection, some rightDirection =>
      let gap := right - left
      if leftDirection ≠ rightDirection then false
      else if isClose left right (1 / 10 ^ 9) (1 / 10 ^ 9) then
        leftComparator = rightComparator
      else if leftDirection = .up then
        if leftComparator = "greater" ∧ rightComparator = "greater_equal" then
          isClose gap tick (1 / 10 ^ 6) (tick / 100)
        else if leftComparator = "greater_equal" ∧ rightComparator = "greater" then
          isClose (-gap) tick (1 / 10 ^ 6) (tick / 100)
        else false
      else if leftComparator = "less" ∧ rightComparator = "less_equal" then
        isClose (-gap) tick (1 / 10 ^ 6) (tick / 100)
      else if leftComparator = "less_equal" ∧ rightComparator = "less" then
        isClose gap tick (1 / 10 ^ 6) (tick / 100)
      else false
    | _, _ =>
      leftComparator = rightComparator ∧ isClose left right (1 / 10 ^ 9) (tick / 2)
  | left, right => left.isNone ∧ right.isNone

def normalizedTeamExceptions (u : Unicode) : List (List Char × List Char) :=
  teamExceptions.map fun entry => (normalizeText u entry.1.toList, entry.2.toList)

/-- City and nickname initials of a team label. -/
def resolveTeamAlias (u : Unicode) (label : List Char) : List Char × Option (List Char) :=
  let normalized := normalizeText u label
  -- of two equal keys a dict keeps the later value
  match (normalizedTeamExceptions u).reverse.lookup normalized with
  | some team => (team, none)
  | none =>
    let parts := words normalized
    match parts.getLast? with
    | some suffix =>
      if 2 ≤ parts.length ∧ suffix.length ≤ 3 ∧ suffix.all u.isAlpha ∧
          String.ofList suffix ∉ cityWords then
        (joinWords parts.dropLast, some suffix)
      else (normalized, none)
    | none => (normalized, none)

def teamsMatch (u : Unicode) (kalshiLabel otherLabel : List Char) : Bool :=
  let (city, initials) := resolveTeamAlias u kalshiLabel
  let other := normalizeText u otherLabel
  if city ∈ teamExceptions.map (fun entry => entry.2.toList) ∧ city <:+: other then true
  else if ¬city <+: other ∧ ¬city <:+: other then false
  else match initials with
    | none => true
    | some initials =>
      let remainder := if city <+: other then strip (other.drop city.length) else other
      match words remainder with
      | [] => false
      | word :: rest =>
        let wordInitials := (word :: rest).filterMap List.head?
        initials <+: wordInitials ∨ initials <+: word

end KalshiBot.CrossVenue

import KalshiBot.CrossVenue.NormalizedWords
import Mathlib.Data.Nat.Digits.Defs
import Mathlib.Tactic.FieldSimp
import Mathlib.Tactic.Ring

/-! # Numerals in wording

How a number is written, what it denotes, and that it is read whole and without its surroundings.
-/

namespace KalshiBot.CrossVenue

open PythonText

set_option autoImplicit false

def digitChar (d : Fin 10) : Char := Char.ofNat (48 + d)

inductive Magnitude where
  | thousand
  | million
  | billion
deriving DecidableEq

def Magnitude.value : Magnitude → ℕ
  | .thousand => 10 ^ 3
  | .million => 10 ^ 6
  | .billion => 10 ^ 9

/-- The letter for a magnitude, in upper case or not. -/
def Magnitude.letter : Magnitude → Bool → Char
  | .thousand, upper => if upper then 'K' else 'k'
  | .million, upper => if upper then 'M' else 'm'
  | .billion, upper => if upper then 'B' else 'b'

/-- A decimal numeral: plain, or with thousands in groups of three after one to three digits. -/
structure Numeral where
  currency : Bool
  lead : List (Fin 10)
  groups : List (Fin 10 × Fin 10 × Fin 10)
  fraction : List (Fin 10)
  scale : Option (Magnitude × Bool)
  lead_some : lead ≠ []
  lead_short : groups ≠ [] → lead.length ≤ 3

namespace Numeral

def writtenGroups (groups : List (Fin 10 × Fin 10 × Fin 10)) : List Char :=
  groups.flatMap fun (a, b, c) => [',', digitChar a, digitChar b, digitChar c]

def writtenFraction (fraction : List (Fin 10)) : List Char :=
  if fraction = [] then [] else '.' :: fraction.map digitChar

def writtenScale : Option (Magnitude × Bool) → List Char
  | none => []
  | some (magnitude, upper) => [magnitude.letter upper]

variable (numeral : Numeral)

/-- The numeral from its first digit on. -/
def body : List Char :=
  numeral.lead.map digitChar ++ (writtenGroups numeral.groups ++
    (writtenFraction numeral.fraction ++ writtenScale numeral.scale))

def written : List Char := (if numeral.currency then ['$'] else []) ++ numeral.body

def whole : ℕ :=
  numeral.groups.foldl
    (fun value (a, b, c) => 1000 * value + (100 * a.val + 10 * b.val + c.val))
    (numeral.lead.foldl (fun value d => 10 * value + d.val) 0)

def fractionValue : List (Fin 10) → ℚ
  | [] => 0
  | d :: rest => (d.val + fractionValue rest) / 10

def scaleValue : Option (Magnitude × Bool) → ℕ
  | none => 1
  | some (magnitude, _) => magnitude.value

def value : ℚ := (numeral.whole + fractionValue numeral.fraction) * scaleValue numeral.scale

end Numeral

/-- What may follow a numeral: nothing, a percent sign, or a word apart from it. -/
inductive EndsNumeral : List Char → Prop where
  | nothing : EndsNumeral []
  | percent (rest : List Char) : EndsNumeral ('%' :: rest)
  | word (space : Char) (spaces : List Char) (first second : Char) (rest : List Char)
      (hSpaces : ∀ c ∈ space :: spaces, isSpace c) (hFirst : first.isAlpha)
      (hSecond : second.isAlpha) :
      EndsNumeral ((space :: spaces) ++ first :: second :: rest)

section Reading

variable {u : Unicode}

theorem digit_digitChar (hAscii : u.AgreesOnAscii) (d : Fin 10) :
    u.digit (digitChar d) = some d.val := by
  have hSmall : ∀ d : Fin 10, (digitChar d).toNat < 128 := by decide
  have hDigit : ∀ d : Fin 10, Unicode.ascii.digit (digitChar d) = some d.val := by decide
  rw [hAscii.digit _ (hSmall d), hDigit]

/-- A limited run takes as many digits as it may, up to what is no digit. -/
theorem digits_append (hAscii : u.AgreesOnAscii) {rest : List Char}
    (hRest : ∀ c ∈ rest.head?, u.digit c = none) (limit : ℕ) (run : List (Fin 10)) :
    digits u limit (run.map digitChar ++ rest) =
      ((run.take limit).map Fin.val, (run.drop limit).map digitChar ++ rest) := by
  induction run generalizing limit with
  | nil =>
    cases limit with
    | zero => cases rest <;> rfl
    | succ limit =>
      cases rest with
      | nil => rfl
      | cons c rest => simp [digits, hRest c rfl]
  | cons d run ih =>
    cases limit with
    | zero => rfl
    | succ limit => simp [digits, digit_digitChar hAscii, ih]

theorem digits_whole (hAscii : u.AgreesOnAscii) {rest : List Char}
    (hRest : ∀ c ∈ rest.head?, u.digit c = none) {limit : ℕ} {run : List (Fin 10)}
    (hLimit : run.length ≤ limit) :
    digits u limit (run.map digitChar ++ rest) = (run.map Fin.val, rest) := by
  rw [digits_append hAscii hRest, List.take_of_length_le hLimit, List.drop_of_length_le hLimit]
  rfl

theorem commaGroups_of_head {text : List Char} (h : text.head? ≠ some ',') (limit : ℕ) :
    commaGroups u limit text = ([], text) := by
  rw [commaGroups.eq_def]
  split
  next => exact absurd rfl h
  next => rfl

/-- A text that begins with an ASCII character other than a digit. -/
theorem undigited_head (hAscii : u.AgreesOnAscii) {first : Char} (hSmall : first.toNat < 128)
    (hNone : Unicode.ascii.digit first = none) (rest : List Char) :
    ∀ c ∈ (first :: rest).head?, u.digit c = none := by
  rintro c ⟨⟩
  exact (hAscii.digit first hSmall).trans hNone

/-- What follows the first digits is a comma, or what follows the groups. -/
theorem head_writtenGroups (hAscii : u.AgreesOnAscii) {rest : List Char}
    (hRest : ∀ c ∈ rest.head?, u.digit c = none) (groups : List (Fin 10 × Fin 10 × Fin 10)) :
    ∀ c ∈ (Numeral.writtenGroups groups ++ rest).head?, u.digit c = none := by
  cases groups with
  | nil => exact hRest
  | cons group groups => exact undigited_head hAscii (by decide) rfl _

theorem length_writtenGroups (groups : List (Fin 10 × Fin 10 × Fin 10)) :
    (Numeral.writtenGroups groups).length = 4 * groups.length := by
  induction groups with
  | nil => rfl
  | cons group groups ih =>
    rw [Numeral.writtenGroups, List.flatMap_cons, List.length_append, ← Numeral.writtenGroups, ih,
      List.length_cons]
    exact Nat.add_comm 4 _

theorem commaGroups_append (hAscii : u.AgreesOnAscii) {rest : List Char}
    (hRest : ∀ c ∈ rest.head?, u.digit c = none) (hComma : rest.head? ≠ some ',')
    (groups : List (Fin 10 × Fin 10 × Fin 10)) (limit : ℕ) (hLimit : groups.length ≤ limit) :
    commaGroups u limit (Numeral.writtenGroups groups ++ rest) =
      (groups.flatMap fun (a, b, c) => [a.val, b.val, c.val], rest) := by
  induction groups generalizing limit with
  | nil => exact commaGroups_of_head hComma limit
  | cons group groups ih =>
    obtain ⟨a, b, c⟩ := group
    cases limit with
    | zero => cases hLimit
    | succ limit =>
      have hGroup : digits u 3 ([a, b, c].map digitChar ++ (Numeral.writtenGroups groups ++ rest)) =
          ([a.val, b.val, c.val], Numeral.writtenGroups groups ++ rest) :=
        digits_whole hAscii (head_writtenGroups hAscii hRest groups) (Nat.le_refl 3)
      have hText : Numeral.writtenGroups ((a, b, c) :: groups) ++ rest =
          ',' :: ([a, b, c].map digitChar ++ (Numeral.writtenGroups groups ++ rest)) := by
        simp [Numeral.writtenGroups]
      rw [hText, commaGroups, hGroup]
      dsimp only
      rw [if_pos (by rfl), ih limit (Nat.le_of_succ_le_succ hLimit)]
      rfl

/-- The whole part that `numberAt` reads, and what it leaves. -/
def wholeDigits (u : Unicode) (text : List Char) : List ℕ × List Char :=
  let groups := commaGroups u text.length (digits u 3 text).2
  if groups.1 = [] then digits u text.length text else ((digits u 3 text).1 ++ groups.1, groups.2)

def fractionDigits (u : Unicode) (text : List Char) : List ℕ × List Char :=
  match text with
  | '.' :: rest =>
    if (digits u rest.length rest).1 = [] then ([], text) else digits u rest.length rest
  | _ => ([], text)

def scaleAfter (text : List Char) : Option ℕ :=
  match text.dropWhile isSpace with
  | c :: rest => if rest.head?.any Char.isAlpha then none else numberScale c
  | [] => none

theorem numberAt_eq (u : Unicode) (text : List Char) :
    numberAt u text =
      let whole := wholeDigits u text
      let fraction := fractionDigits u whole.2
      ((Nat.ofDigits 10 (whole.1 ++ fraction.1).reverse : ℕ) : ℚ) / 10 ^ fraction.1.length *
        (((scaleAfter fraction.2).getD 1 : ℕ) : ℚ) := rfl

theorem digitChar_ne (d : Fin 10) : digitChar d ≠ ',' ∧ digitChar d ≠ '.' := by
  have hNone : ∀ d : Fin 10, digitChar d ≠ ',' ∧ digitChar d ≠ '.' := by decide
  exact hNone d

theorem wholeDigits_body (hAscii : u.AgreesOnAscii) (numeral : Numeral) {rest : List Char}
    (hRest : ∀ c ∈ rest.head?, u.digit c = none) (hComma : rest.head? ≠ some ',') :
    wholeDigits u (numeral.lead.map digitChar ++ (Numeral.writtenGroups numeral.groups ++ rest)) =
      (numeral.lead.map Fin.val ++
        numeral.groups.flatMap (fun (a, b, c) => [a.val, b.val, c.val]), rest) := by
  have hHead := head_writtenGroups hAscii hRest numeral.groups
  rw [wholeDigits]
  generalize hLimit :
    (numeral.lead.map digitChar ++ (Numeral.writtenGroups numeral.groups ++ rest)).length = limit
  have hBounds : numeral.lead.length ≤ limit ∧ numeral.groups.length ≤ limit := by
    have hGroups := length_writtenGroups numeral.groups
    rw [List.length_append, List.length_append, List.length_map] at hLimit
    omega
  dsimp only
  rw [digits_append hAscii hHead 3 numeral.lead]
  obtain hNone | hSome := eq_or_ne numeral.groups []
  · rw [hNone] at hHead ⊢
    have hPlain : ((numeral.lead.drop 3).map digitChar ++
        (Numeral.writtenGroups [] ++ rest)).head? ≠ some ',' := by
      cases numeral.lead.drop 3 with
      | nil => exact hComma
      | cons d _ => exact fun hHead => (digitChar_ne d).1 (Option.some.inj hHead)
    rw [commaGroups_of_head hPlain, if_pos rfl, digits_whole hAscii hHead hBounds.1]
    simp [Numeral.writtenGroups]
  · have hShort := numeral.lead_short hSome
    have hMore : numeral.groups.flatMap (fun (a, b, c) => [a.val, b.val, c.val]) ≠ [] := by
      obtain ⟨group, groups, hGroups⟩ := List.exists_cons_of_ne_nil hSome
      rw [hGroups]
      exact List.cons_ne_nil _ _
    rw [List.take_of_length_le hShort, List.drop_of_length_le hShort, List.map_nil,
      List.nil_append, commaGroups_append hAscii hRest hComma _ _ hBounds.2, if_neg hMore]

theorem fractionDigits_written (hAscii : u.AgreesOnAscii) (fraction : List (Fin 10))
    {rest : List Char} (hRest : ∀ c ∈ rest.head?, u.digit c = none)
    (hPoint : rest.head? ≠ some '.') :
    fractionDigits u (Numeral.writtenFraction fraction ++ rest) = (fraction.map Fin.val, rest) := by
  rw [fractionDigits.eq_def, Numeral.writtenFraction]
  cases fraction with
  | nil =>
    split
    next hText => exact absurd (congrArg List.head? hText) hPoint
    next => rfl
  | cons d fraction =>
    have hRead : digits u ((d :: fraction).map digitChar ++ rest).length
        ((d :: fraction).map digitChar ++ rest) = ((d :: fraction).map Fin.val, rest) := by
      have hLength : (d :: fraction).length ≤ ((d :: fraction).map digitChar ++ rest).length := by
        rw [List.length_append, List.length_map]
        exact Nat.le_add_right _ _
      exact digits_whole hAscii hRest hLength
    rw [if_neg (List.cons_ne_nil _ _), List.cons_append]
    split
    next tail hText =>
      obtain rfl := List.tail_eq_of_cons_eq hText
      rw [hRead]
      rfl
    next hOther => exact absurd rfl (hOther _)

/-- What stands right behind the digits is a scale letter, a percent sign or a space. -/
theorem head_ending {suffix : List Char} (hSuffix : EndsNumeral suffix)
    (scale : Option (Magnitude × Bool)) :
    ∀ c ∈ (Numeral.writtenScale scale ++ suffix).head?, isSpace c ∨ c ∈ "kKmMbB%".toList := by
  intro c hHead
  cases scale with
  | some mark =>
    obtain ⟨magnitude, upper⟩ := mark
    obtain rfl := Option.some.inj hHead
    cases magnitude <;> cases upper <;> decide
  | none =>
    cases hSuffix with
    | nothing => cases hHead
    | percent rest =>
      obtain rfl := Option.some.inj hHead
      decide
    | word space spaces first second rest hSpaces =>
      obtain rfl := Option.some.inj hHead
      exact Or.inl (hSpaces _ (List.mem_cons_self ..))

theorem not_numeric_of_ending (hAscii : u.AgreesOnAscii)
    (hSpaces : ∀ c, isSpace c → u.digit c = none) {c : Char}
    (h : isSpace c ∨ c ∈ "kKmMbB%".toList) : u.digit c = none ∧ c ≠ ',' ∧ c ≠ '.' := by
  obtain hSpace | hLetter := h
  · exact ⟨hSpaces c hSpace, ne_of_isSpace hSpace (by decide), ne_of_isSpace hSpace (by decide)⟩
  · have hNone : ∀ c ∈ "kKmMbB%".toList,
        c.toNat < 128 ∧ Unicode.ascii.digit c = none ∧ c ≠ ',' ∧ c ≠ '.' :=
      List.all_iff_forall_prop.mp (by decide)
    obtain ⟨hSmall, hDigit, hOther⟩ := hNone c hLetter
    rw [hAscii.digit c hSmall]
    exact ⟨hDigit, hOther⟩

/-- A letter that ends the word is a scale; the first of two letters is none. -/
theorem scaleAfter_written {suffix : List Char} (hSuffix : EndsNumeral suffix)
    (scale : Option (Magnitude × Bool)) :
    (scaleAfter (Numeral.writtenScale scale ++ suffix)).getD 1 = Numeral.scaleValue scale := by
  cases scale with
  | some mark =>
    obtain ⟨magnitude, upper⟩ := mark
    have hApart : suffix.head?.any Char.isAlpha = false := by
      cases hSuffix with
      | nothing => rfl
      | percent rest => rfl
      | word space spaces first second rest hSpaces =>
        exact isAlpha_of_isSpace (hSpaces _ (List.mem_cons_self ..))
    have hLetter : isSpace (magnitude.letter upper) = false := by
      cases magnitude <;> cases upper <;> decide
    rw [scaleAfter, Numeral.writtenScale, List.singleton_append, List.dropWhile_cons, hLetter,
      if_neg Bool.false_ne_true]
    dsimp only
    rw [hApart, if_neg Bool.false_ne_true]
    cases magnitude <;> cases upper <;> rfl
  | none =>
    rw [Numeral.writtenScale, List.nil_append, scaleAfter]
    cases hSuffix with
    | nothing => rfl
    | percent rest =>
      rw [List.dropWhile_cons_of_neg (by decide)]
      dsimp only
      split <;> rfl
    | word space spaces first second rest hSpaces hFirst hSecond =>
      have hWord := isSpace_of_isAlpha hFirst
      rw [List.dropWhile_append_of_pos hSpaces, List.dropWhile_cons_of_neg (by simp [hWord])]
      dsimp only
      rw [List.head?_cons, Option.any_some, hSecond, if_pos rfl]
      rfl

/-- Digits, the most significant first. -/
theorem ofDigits_reverse (run : List ℕ) :
    Nat.ofDigits 10 run.reverse = run.foldl (fun value d => 10 * value + d) 0 := by
  rw [Nat.ofDigits_eq_foldr, List.foldr_reverse]
  congr 1
  funext value d
  exact Nat.add_comm d (10 * value)

theorem whole_eq (numeral : Numeral) :
    numeral.whole = Nat.ofDigits 10 (numeral.lead.map Fin.val ++
      numeral.groups.flatMap (fun (a, b, c) => [a.val, b.val, c.val])).reverse := by
  rw [ofDigits_reverse, List.foldl_append, List.foldl_map, List.foldl_flatMap, Numeral.whole]
  congr 1
  funext value group
  obtain ⟨a, b, c⟩ := group
  dsimp only [List.foldl_cons, List.foldl_nil]
  omega

theorem fractionValue_eq (fraction : List (Fin 10)) :
    Numeral.fractionValue fraction =
      (Nat.ofDigits 10 (fraction.map Fin.val).reverse : ℕ) / 10 ^ fraction.length := by
  induction fraction with
  | nil => simp [Numeral.fractionValue]
  | cons d fraction ih =>
    rw [Numeral.fractionValue, ih, List.map_cons, Nat.ofDigits_reverse_cons, List.length_map,
      List.length_cons, pow_succ]
    push_cast
    field_simp
    ring

theorem numberAt_body (hAscii : u.AgreesOnAscii) (hSpaces : ∀ c, isSpace c → u.digit c = none)
    (numeral : Numeral) {suffix : List Char} (hSuffix : EndsNumeral suffix) :
    numberAt u (numeral.body ++ suffix) = numeral.value := by
  have hEnding : ∀ c ∈ (Numeral.writtenScale numeral.scale ++ suffix).head?,
      u.digit c = none ∧ c ≠ ',' ∧ c ≠ '.' := fun c hHead =>
    not_numeric_of_ending hAscii hSpaces (head_ending hSuffix numeral.scale c hHead)
  have hFraction := fractionDigits_written hAscii numeral.fraction
    (fun c hHead => (hEnding c hHead).1) (fun hHead => (hEnding '.' hHead).2.2 rfl)
  have hHead : ∀ c ∈ (Numeral.writtenFraction numeral.fraction ++
      (Numeral.writtenScale numeral.scale ++ suffix)).head?, u.digit c = none ∧ c ≠ ',' := by
    rw [Numeral.writtenFraction]
    split
    next => exact fun c hHead => ⟨(hEnding c hHead).1, (hEnding c hHead).2.1⟩
    next =>
      intro c hHead
      obtain rfl := Option.some.inj hHead
      exact ⟨hAscii.digit '.' (by decide), by decide⟩
  have hWhole := wholeDigits_body hAscii numeral (fun c hIn => (hHead c hIn).1)
    (fun hIn => (hHead ',' hIn).2 rfl)
  rw [Numeral.body, List.append_assoc, List.append_assoc, List.append_assoc, numberAt_eq, hWhole]
  dsimp only
  rw [hFraction, scaleAfter_written hSuffix, Numeral.value, whole_eq, fractionValue_eq]
  dsimp only
  rw [List.reverse_append, Nat.ofDigits_append, List.length_reverse, List.length_map]
  push_cast
  field_simp
  ring

theorem parseNumber_append {before : List Char} (hBefore : ∀ c ∈ before, u.digit c = none)
    (text : List Char) : parseNumber u (before ++ text) = parseNumber u text := by
  induction before with
  | nil => rfl
  | cons c before ih =>
    obtain ⟨hFirst, hLater⟩ := List.forall_mem_cons.mp hBefore
    rw [List.cons_append, parseNumber, hFirst, ih hLater]
    rfl

/-- A numeral is read as the value it denotes, whatever stands before it and behind it. -/
theorem parseNumber_written (hAscii : u.AgreesOnAscii)
    (hSpaces : ∀ c, isSpace c → u.digit c = none) {before : List Char}
    (hBefore : ∀ c ∈ before, u.digit c = none) (numeral : Numeral) {suffix : List Char}
    (hSuffix : EndsNumeral suffix) :
    parseNumber u (before ++ numeral.written ++ suffix) = some numeral.value := by
  have hCurrency : ∀ c ∈ if numeral.currency then ['$'] else [], u.digit c = none := by
    split
    next =>
      rintro c hIn
      obtain rfl := List.mem_singleton.mp hIn
      exact hAscii.digit '$' (by decide)
    next => exact List.forall_mem_nil _
  have hSome : ∃ d lead, numeral.lead = d :: lead := List.exists_cons_of_ne_nil numeral.lead_some
  rw [List.append_assoc, parseNumber_append hBefore, Numeral.written, List.append_assoc,
    parseNumber_append hCurrency, ← numberAt_body hAscii hSpaces numeral hSuffix]
  obtain ⟨d, lead, hLead⟩ := hSome
  rw [Numeral.body, hLead, List.map_cons, List.cons_append, List.cons_append, parseNumber,
    digit_digitChar hAscii]
  rfl

theorem ascii_digit_of_isSpace (c : Char) (h : isSpace c) : Unicode.ascii.digit c = none := by
  have hNot := isDigit_of_isSpace h
  simp [Unicode.ascii, hNot]

/-- `$1,234,567.89k` -/
def groupedNumeral : Numeral where
  currency := true
  lead := [1]
  groups := [(2, 3, 4), (5, 6, 7)]
  fraction := [8, 9]
  scale := some (.thousand, false)
  lead_some := List.cons_ne_nil _ _
  lead_short _ := Nat.le_of_ble_eq_true rfl

theorem grouped_written :
    parseNumber .ascii "BTC above $1,234,567.89k dollars".toList = some 1234567890 := by
  have hText : "BTC above $1,234,567.89k dollars".toList =
      "BTC above ".toList ++ groupedNumeral.written ++ " dollars".toList := by decide
  have hValue : groupedNumeral.value = 1234567890 := by decide +kernel
  have hSuffix : EndsNumeral " dollars".toList :=
    .word ' ' [] 'd' 'o' "llars".toList (List.all_iff_forall_prop.mp (by decide)) (by decide)
      (by decide)
  rw [hText, ← hValue]
  exact parseNumber_written Unicode.ascii_agreesOnAscii ascii_digit_of_isSpace
    (List.all_iff_forall_prop.mp (by decide)) groupedNumeral hSuffix

end Reading

end KalshiBot.CrossVenue

import Mathlib.Data.Rat.Floor
import Mathlib.Data.Nat.Log
import Mathlib.Data.Nat.Digits.Defs
import Mathlib.Data.List.AList
import Mathlib.Data.Int.Star

/-! # Python values, numbers and their text

Floats are read as the exact rationals they denote. Rounding is half to even, as
in `round` and in format specifiers; infinities and NaN have no counterpart here.
`formatFixed n` is the specifier `.nf`, `formatGeneral` the specifier `g`,
`truncate` is `int`, and a `none` of `toFloat` is the `TypeError` or `ValueError`.
-/

namespace KalshiBot.PythonText

set_option autoImplicit false

abbrev Dict (K V : Type) := AList fun _ : K => V

/-- The values that JSON decoding produces, the integers of any size. -/
inductive PyValue where
  | null
  | bool (b : Bool)
  | int (i : ℤ)
  | float (q : ℚ)
  | str (s : String)
  | list (items : List PyValue)
  | dict (items : List (String × PyValue))

def roundHalfEven (q : ℚ) : ℤ :=
  if q - ⌊q⌋ < 1 / 2 then ⌊q⌋
  else if 1 / 2 < q - ⌊q⌋ then ⌊q⌋ + 1
  else if ⌊q⌋ % 2 = 0 then ⌊q⌋ else ⌊q⌋ + 1

def truncate (q : ℚ) : ℤ := if 0 ≤ q then ⌊q⌋ else ⌈q⌉

theorem truncate_of_nonneg {q : ℚ} (h : 0 ≤ q) : truncate q = ⌊q⌋ := if_pos h

theorem truncate_mono {q q' : ℚ} (hLe : q ≤ q') : truncate q ≤ truncate q' := by
  obtain hNonneg | hNeg := le_or_gt 0 q
  · rw [truncate_of_nonneg hNonneg, truncate_of_nonneg (hNonneg.trans hLe)]
    exact Int.floor_le_floor hLe
  · rw [truncate, if_neg (not_le.mpr hNeg), truncate]
    split
    next hNonneg' =>
      calc ⌈q⌉ ≤ 0 := Int.ceil_nonpos.mpr hNeg.le
        _ ≤ ⌊q'⌋ := Int.floor_nonneg.mpr hNonneg'
    next => exact Int.ceil_le_ceil hLe

def sign (q : ℚ) : String := if q < 0 then "-" else ""

def zeros (n : ℕ) : List Char := List.replicate n '0'

def withPoint (digits n : ℕ) : List Char :=
  let text := (Nat.toDigits 10 n)
  let padded := zeros (digits + 1 - text.length) ++ text
  padded.take (padded.length - digits) ++
    (if digits = 0 then [] else '.' :: padded.drop (padded.length - digits))

def formatFixed (digits : ℕ) (q : ℚ) : String :=
  sign q ++ String.ofList (withPoint digits (roundHalfEven (|q| * 10 ^ digits)).toNat)

def leadingExponent (q : ℚ) : ℤ :=
  if 1 ≤ q then Nat.log 10 ⌊q⌋.toNat else -(Nat.clog 10 ⌈1 / q⌉.toNat : ℤ)

def stripZeros (text : List Char) : List Char :=
  if '.' ∈ text then
    let text := text.reverse.dropWhile (· = '0')
    (if text.head? = some '.' then text.tail else text).reverse
  else text

/-- Decimal exponent and leading digits of a positive number, rounded to `digits` of them. -/
def significant (digits : ℕ) (q : ℚ) : ℤ × ℕ :=
  let lead := leadingExponent q
  let rounded := (roundHalfEven (q / 10 ^ lead * 10 ^ (digits - 1))).toNat
  if rounded = 10 ^ digits then (lead + 1, 10 ^ (digits - 1)) else (lead, rounded)

def scientific (digits : ℕ) (exponent : ℤ) (mantissa : ℕ) : String :=
  let power := Nat.toDigits 10 exponent.natAbs
  String.ofList (stripZeros (withPoint (digits - 1) mantissa)) ++ "e" ++
    (if exponent < 0 then "-" else "+") ++ String.ofList (zeros (2 - power.length) ++ power)

/-- `f"{q:g}"`: six significant digits, trailing zeros dropped. -/
def formatGeneral (q : ℚ) : String :=
  if q = 0 then "0"
  else
    let (exponent, mantissa) := significant 6 |q|
    if -4 ≤ exponent ∧ exponent < 6 then
      sign q ++ String.ofList (stripZeros (withPoint (5 - exponent).toNat mantissa))
    else sign q ++ scientific 6 exponent mantissa

/-- `repr` of a float: the fewest digits that give the number back, at most seventeen. -/
def reprFloat (q : ℚ) : String :=
  if q = 0 then "0.0"
  else
    let exact (digits : ℕ) : Bool :=
      let (exponent, mantissa) := significant digits |q|
      (mantissa : ℚ) * 10 ^ (exponent - (digits - 1 : ℕ)) = |q|
    let digits := ((List.range' 1 17).find? exact).getD 17
    let (exponent, mantissa) := significant digits |q|
    if -4 ≤ exponent ∧ exponent < 16 then
      let shift := exponent - (digits - 1 : ℕ)
      let text := withPoint (-shift).toNat (mantissa * 10 ^ shift.toNat)
      sign q ++ String.ofList (if '.' ∈ text then text else text ++ ['.', '0'])
    else sign q ++ scientific digits exponent mantissa

example : [1 / 10, 100, 5 / 2, 10 ^ 16, 1 / 10 ^ 5].map reprFloat =
    ["0.1", "100.0", "2.5", "1e+16", "1e-05"] := by decide +kernel

/-- One character of `repr` of a string; what lies outside ASCII counts as printable. -/
def reprChar (quote c : Char) : List Char :=
  if c = quote ∨ c = '\\' then ['\\', c]
  else if c = '\n' then ['\\', 'n']
  else if c = '\r' then ['\\', 'r']
  else if c = '\t' then ['\\', 't']
  else if c.toNat < 32 ∨ c.toNat = 127 then
    let hex := Nat.toDigits 16 c.toNat
    ['\\', 'x'] ++ zeros (2 - hex.length) ++ hex
  else [c]

def pyRepr (s : String) : String :=
  let quote := if '\'' ∈ s.toList ∧ '"' ∉ s.toList then '"' else '\''
  String.ofList (quote :: s.toList.flatMap (reprChar quote) ++ [quote])

def digitRun (afterDigit : Bool) : List Char → List ℕ × List Char
  | [] => ([], [])
  | c :: rest =>
    if c.isDigit then
      let (digits, tail) := digitRun true rest
      ((c.toNat - 48) :: digits, tail)
    -- a single underscore between two digits is skipped
    else if c = '_' ∧ afterDigit ∧ rest.head?.any Char.isDigit then digitRun false rest
    else ([], c :: rest)

def signedRun (text : List Char) : ℤ × List Char :=
  match text with
  | '-' :: rest => (-1, rest)
  | '+' :: rest => (1, rest)
  | _ => (1, text)

def readExponent (text : List Char) : Option (ℤ × List Char) :=
  match text with
  | c :: rest =>
    if c = 'e' ∨ c = 'E' then
      let (s, rest) := signedRun rest
      let (digits, tail) := digitRun false rest
      if digits = [] then none else some (s * (Nat.ofDigits 10 digits.reverse : ℕ), tail)
    else some (0, text)
  | [] => some (0, [])

def isSpace (c : Char) : Bool :=
  c.toNat ∈ [9, 10, 11, 12, 13, 28, 29, 30, 31, 32, 0x85, 0xA0, 0x1680, 0x2028, 0x2029, 0x202F,
    0x205F, 0x3000] ∨ (0x2000 ≤ c.toNat ∧ c.toNat ≤ 0x200A)

def strip (text : List Char) : List Char :=
  ((text.dropWhile isSpace).reverse.dropWhile isSpace).reverse

theorem dropWhile_of_head {p : Char → Bool} {text : List Char}
    (h : ∀ c ∈ text.head?, p c = false) : text.dropWhile p = text := by
  cases text with
  | nil => rfl
  | cons c rest => exact List.dropWhile_cons_of_neg (by simp [h c rfl])

/-- The number that a decimal numeral writes, if it is one. -/
def readDecimal (text : List Char) : Option ℚ :=
  let (s, text) := signedRun text
  let (whole, text) := digitRun false text
  let (fraction, text) := match text with
    | '.' :: rest => digitRun false rest
    | _ => ([], text)
  if whole = [] ∧ fraction = [] then none
  else match readExponent text with
    | some (exponent, []) =>
      some (s * (Nat.ofDigits 10 (whole ++ fraction).reverse : ℕ) / 10 ^ fraction.length *
        (10 : ℚ) ^ exponent)
    | _ => none

/-- `float(s)` on a decimal numeral; `none` stands for the `ValueError`. -/
def parseFloat (s : String) : Option ℚ := readDecimal (strip s.toList)

def PyValue.toFloat : PyValue → Option ℚ
  | .bool b => some (if b then 1 else 0)
  | .int i => some i
  | .float q => some q
  | .str s => parseFloat s
  | .null | .list _ | .dict _ => none

def PyValue.truthy : PyValue → Bool
  | .null => false
  | .bool b => b
  | .int i => i ≠ 0
  | .float q => q ≠ 0
  | .str s => s ≠ ""
  | .list items => !items.isEmpty
  | .dict items => !items.isEmpty

/-- `value.get(key)`; `none` stands for the `AttributeError` of a value that is no object. -/
def PyValue.get? (key : String) : PyValue → Option PyValue
  | .dict items => some ((items.lookup key).getD .null)
  | _ => none

mutual

def PyValue.repr : PyValue → String
  | .null => "None"
  | .bool b => if b then "True" else "False"
  | .int i => toString i
  | .float q => reprFloat q
  | .str s => pyRepr s
  | .list items => "[" ++ ", ".intercalate (reprItems items) ++ "]"
  | .dict items => "\x7b" ++ ", ".intercalate (reprEntries items) ++ "\x7d"

def reprItems : List PyValue → List String
  | [] => []
  | item :: items => item.repr :: reprItems items

def reprEntries : List (String × PyValue) → List String
  | [] => []
  | (key, value) :: items => (pyRepr key ++ ": " ++ value.repr) :: reprEntries items

end

def PyValue.text : PyValue → String
  | .str s => s
  | value => value.repr

example : formatFixed 4 (1 / 16) = "0.0625" := by decide +kernel
example : formatFixed 1 (1 / 4) = "0.2" := by decide +kernel
example : parseFloat "0.5600" = some (14 / 25) := by decide +kernel

end KalshiBot.PythonText

import KalshiBot.Library.PythonText

/-! # Values written as text

Whole numbers, switches and POSIX paths, read the way Python's constructors read them.
-/

namespace KalshiBot.PythonText

set_option autoImplicit false

/-- The zeros of the decimal digits (class `Nd`) of Unicode 15. -/
def decimalZeros : List ℕ :=
  [0x30, 0x660, 0x6F0, 0x7C0, 0x966, 0x9E6, 0xA66, 0xAE6, 0xB66, 0xBE6, 0xC66, 0xCE6, 0xD66, 0xDE6,
    0xE50, 0xED0, 0xF20, 0x1040, 0x1090, 0x17E0, 0x1810, 0x1946, 0x19D0, 0x1A80, 0x1A90, 0x1B50,
    0x1BB0, 0x1C40, 0x1C50, 0xA620, 0xA8D0, 0xA900, 0xA9D0, 0xA9F0, 0xAA50, 0xABF0, 0xFF10, 0x104A0,
    0x10D30, 0x11066, 0x110F0, 0x11136, 0x111D0, 0x112F0, 0x11450, 0x114D0, 0x11650, 0x116C0,
    0x11730, 0x118E0, 0x11950, 0x11C50, 0x11D50, 0x11DA0, 0x11F50, 0x16A60, 0x16AC0, 0x16B50,
    0x1D7CE, 0x1D7D8, 0x1D7E2, 0x1D7EC, 0x1D7F6, 0x1E140, 0x1E2F0, 0x1E4F0, 0x1E950, 0x1FBF0]

/-- What `int` and `float` read a character as: a digit of any script as its own, a space as a
space, and all else beyond ASCII as something that no number contains. -/
def numeralChar (c : Char) : Char :=
  if c.toNat < 128 then c
  else if isSpace c then ' '
  else match decimalZeros.find? fun first => first ≤ c.toNat ∧ c.toNat < first + 10 with
    | some first => Nat.digitChar (c.toNat - first)
    | none => '?'

/-- The text of a number without the spaces around it, which are those of C. -/
def numeralText (s : String) : List Char :=
  let isBlank (c : Char) : Bool := c.toNat ∈ [9, 10, 11, 12, 13, 32]
  (((s.toList.map numeralChar).dropWhile isBlank).reverse.dropWhile isBlank).reverse

/-- The digits that `int` reads, and writes, in decimal. -/
@[irreducible] def maxStrDigits : ℕ := 4300

/-- `int(s)`; `none` stands for the `ValueError`. -/
def parseInt (s : String) : Option ℤ :=
  let (sign, text) := signedRun (numeralText s)
  let (digits, rest) := digitRun false text
  if digits ≠ [] ∧ rest = [] ∧ digits.length ≤ maxStrDigits then
    some (sign * (Nat.ofDigits 10 digits.reverse : ℕ))
  else none

/-- What `int(s)` raises with. -/
def intError (s : String) : String :=
  let (digits, rest) := digitRun false (signedRun (numeralText s)).2
  if maxStrDigits < digits.length ∧ rest.head? ≠ some '_' then
    "Exceeds the limit (" ++ toString maxStrDigits ++ " digits) for integer string conversion: " ++
      "value has " ++ toString digits.length ++
      " digits; use sys.set_int_max_str_digits() to increase the limit"
  else "invalid literal for int() with base 10: " ++ String.ofList ((pyRepr s).toList.take 200)

/-- The whole number has no more digits than `str` writes. -/
structure Printable (i : ℤ) : Prop where
  bounded : i.natAbs < 10 ^ maxStrDigits

instance (i : ℤ) : Decidable (Printable i) :=
  decidable_of_iff (i.natAbs < 10 ^ maxStrDigits) ⟨Printable.mk, Printable.bounded⟩

/-- `str` of a whole number; `none` is the `ValueError` of one with too many digits. -/
def intText (i : ℤ) : Option String := if Printable i then some (toString i) else none

theorem intText_of_printable {i : ℤ} (h : Printable i) : intText i = some (toString i) := if_pos h

theorem intText_of_not_printable {i : ℤ} (h : ¬Printable i) : intText i = none := if_neg h

theorem eq_of_intText {i : ℤ} {text : String} (h : intText i = some text) : text = toString i := by
  rw [intText] at h
  split at h
  · exact (Option.some.inj h).symm
  · cases h

def floatError (s : String) : String := "could not convert string to float: " ++ pyRepr s

/-- `str` of a tuple of two texts or more. -/
def reprWords (texts : List String) : String := "(" ++ ", ".intercalate (texts.map pyRepr) ++ ")"

/-- A `PurePosixPath`: two leading slashes are a root of their own, and what stands between
slashes is a part unless it is empty or a dot. -/
structure PosixPath where
  root : List Char
  parts : List (List Char)
  parts_named : ∀ part ∈ parts, part ≠ [] ∧ part ≠ ['.']

namespace PosixPath

def rootOf (text : List Char) : List Char :=
  match text with
  | '/' :: '/' :: '/' :: _ => ['/']
  | '/' :: '/' :: _ => ['/', '/']
  | '/' :: _ => ['/']
  | _ => []

def of (text : String) : PosixPath where
  root := rootOf text.toList
  parts := (text.toList.splitOn '/').filter fun part => part ≠ [] ∧ part ≠ ['.']
  parts_named := fun _ hPart => of_decide_eq_true (List.mem_filter.mp hPart).2

/-- `str(path)`. -/
def text (path : PosixPath) : String :=
  if path.root = [] ∧ path.parts = [] then "."
  else String.ofList (path.root ++ ['/'].intercalate path.parts)

example : ["", ".", "./data//killswitch", "//srv/./x/", "///srv"].map (fun s => (of s).text) =
    [".", ".", "data/killswitch", "//srv/x", "/srv"] := by decide

end PosixPath

example : ["12", " +1_0 ", "-07", "\u0661\u0662", "1__0", "", "1.0"].map parseInt =
    [some 12, some 10, some (-7), some 12, none, none, none] := by decide +kernel

end KalshiBot.PythonText

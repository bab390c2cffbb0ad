import KalshiBot.Library.PythonText
import Mathlib.Data.Bool.AllAny
import Mathlib.Data.List.DropRight
import Mathlib.Data.List.Sort
import Mathlib.Data.String.Basic

/-! # Text beyond ASCII

What Python takes from the Unicode database is a parameter; whitespace alone is spelled out.
-/

namespace KalshiBot.PythonText

set_option autoImplicit false

/-- `NFKD` decomposition, `combining`, `str.lower`, the classes `\w` and `str.isalpha`, and the
value of a character of class `\d`. -/
structure Unicode where
  decompose : List Char → List Char
  combining : Char → Bool
  lower : List Char → List Char
  isWord : Char → Bool
  isAlpha : Char → Bool
  digit : Char → Option ℕ

def Unicode.ascii : Unicode where
  decompose := id
  combining _ := false
  lower text := text.map Char.toLower
  isWord c := c.isAlphanum || c = '_'
  isAlpha := Char.isAlpha
  digit c := if c.isDigit then some (c.toNat - 48) else none

/-- `str.lower` looks around a character no further than the next space. -/
def Unicode.LowersBySpaces (u : Unicode) : Prop :=
  ∀ left right, u.lower (left ++ ' ' :: right) = u.lower left ++ ' ' :: u.lower right

theorem Unicode.ascii_lowersBySpaces : Unicode.ascii.LowersBySpaces := fun _ _ => List.map_append

/-- A space is a boundary for everything that a text is folded with. -/
structure Unicode.SplitsAtSpaces (u : Unicode) : Prop where
  lower : u.LowersBySpaces
  decompose : ∀ left right,
    u.decompose (left ++ ' ' :: right) = u.decompose left ++ ' ' :: u.decompose right
  space : u.combining ' ' = false

theorem Unicode.ascii_splitsAtSpaces : Unicode.ascii.SplitsAtSpaces :=
  ⟨Unicode.ascii_lowersBySpaces, fun _ _ => rfl, rfl⟩

/-- Decomposed, without what combines, and in lower case. -/
def Unicode.fold (u : Unicode) (text : List Char) : List Char :=
  u.lower ((u.decompose text).filter (!u.combining ·))

/-- Folding leaves nothing to fold, however its characters are put together. -/
structure Unicode.FoldsOnce (u : Unicode) : Prop where
  decompose : ∀ text piece, piece ⊆ u.fold text → u.decompose piece = piece
  combining : ∀ text, ∀ c ∈ u.fold text, u.combining c = false
  lower : ∀ text piece, piece ⊆ u.fold text → u.lower piece = piece

theorem isLower_iff {c : Char} : c.isLower ↔ 97 ≤ c.toNat ∧ c.toNat ≤ 122 := by
  change (decide (97 ≤ c.val) && decide (c.val ≤ 122)) = true ↔ _
  simp [UInt32.le_iff_toNat_le, ← Char.toNat_val]

theorem isUpper_iff {c : Char} : c.isUpper ↔ 65 ≤ c.toNat ∧ c.toNat ≤ 90 := by
  change decide (65 ≤ c.val ∧ c.val ≤ 90) = true ↔ _
  simp [UInt32.le_iff_toNat_le, ← Char.toNat_val]

theorem isDigit_iff {c : Char} : c.isDigit ↔ 48 ≤ c.toNat ∧ c.toNat ≤ 57 := by
  simp [Char.isDigit, UInt32.le_iff_toNat_le, ← Char.toNat_val]

def IsAscii (text : List Char) : Prop := ∀ c ∈ text, c.toNat < 128

instance (text : List Char) : Decidable (IsAscii text) :=
  decidable_of_iff _ List.all_iff_forall_prop

theorem forall_ascii {P : Char → Prop} (h : ∀ n : Fin 128, P (Char.ofNat n)) {c : Char}
    (hChar : c.toNat < 128) : P c := by
  have hValue := h ⟨c.toNat, hChar⟩
  rwa [Char.ofNat_toNat] at hValue

theorem not_upper_of_toLower_eq {c : Char} (h : c.toLower = c) : c.isUpper = false := by
  by_contra hUpper
  have hBounds := isUpper_iff.mp (Bool.eq_true_of_not_eq_false hUpper)
  have hMoves := forall_ascii (P := fun c => c.toLower = c → c.isUpper = false) (by decide)
    (c := c) (by omega)
  exact hUpper (hMoves h)

theorem toLower_toLower (c : Char) : c.toLower.toLower = c.toLower := by
  by_cases hUpper : c.isUpper
  · have hBounds := isUpper_iff.mp hUpper
    exact forall_ascii (P := fun c => c.toLower.toLower = c.toLower) (by decide) (by omega)
  · have hSame : c.toLower = c := dif_neg (of_decide_eq_false (Bool.eq_false_iff.mpr hUpper))
    rw [hSame, hSame]

theorem Unicode.ascii_foldsOnce : Unicode.ascii.FoldsOnce where
  decompose _ _ _ := rfl
  combining _ _ _ := rfl
  lower text piece h := by
    refine (List.map_congr_left fun c hMem => ?_).trans (List.map_id piece)
    obtain ⟨d, -, rfl⟩ := List.mem_map.mp (h hMem)
    exact toLower_toLower d

/-- The database says of the first 128 characters what C's tables say. -/
structure Unicode.AgreesOnAscii (u : Unicode) : Prop where
  decompose : ∀ text, IsAscii text → u.decompose text = text
  combining : ∀ c : Char, c.toNat < 128 → u.combining c = false
  lower : ∀ text, IsAscii text → u.lower text = text.map Char.toLower
  isWord : ∀ c : Char, c.toNat < 128 → u.isWord c = Unicode.ascii.isWord c
  isAlpha : ∀ c : Char, c.toNat < 128 → u.isAlpha c = Unicode.ascii.isAlpha c
  digit : ∀ c : Char, c.toNat < 128 → u.digit c = Unicode.ascii.digit c

theorem Unicode.ascii_agreesOnAscii : Unicode.ascii.AgreesOnAscii :=
  ⟨fun _ _ => rfl, fun _ _ => rfl, fun _ _ => rfl, fun _ _ => rfl, fun _ _ => rfl, fun _ _ => rfl⟩

/-- `text.split()` -/
def words (text : List Char) : List (List Char) := (text.splitOnP isSpace).filter (· ≠ [])

/-- `" ".join(parts)` -/
def joinWords (parts : List (List Char)) : List Char := [' '].intercalate parts

/-- `text.strip(chars)` -/
def stripChars (chars text : List Char) : List Char :=
  ((text.dropWhile (· ∈ chars)).reverse.dropWhile (· ∈ chars)).reverse

/-- `\s+` replaced by one space. -/
def collapseSpaces : List Char → List Char
  | [] => []
  | c :: rest =>
    if isSpace c then
      if rest.head?.any isSpace then collapseSpaces rest else ' ' :: collapseSpaces rest
    else c :: collapseSpaces rest

/-- No space at either end. -/
structure Trimmed (text : List Char) : Prop where
  head : ∀ c ∈ text.head?, isSpace c = false
  last : ∀ c ∈ text.getLast?, isSpace c = false

section Trim

variable (p : Char → Bool) (text : List Char)

theorem head?_trim : ∀ c ∈ ((text.dropWhile p).rdropWhile p).head?, p c = false := by
  intro c hHead
  obtain ⟨rest, hText⟩ := List.rdropWhile_prefix p (text.dropWhile p)
  have hFirst : c ∈ (text.dropWhile p).head? := by
    rw [← hText, List.head?_append, Option.mem_def.mp hHead]
    rfl
  have := List.head?_dropWhile_not p text
  rw [Option.mem_def.mp hFirst] at this
  exact this

theorem getLast?_trim : ∀ c ∈ ((text.dropWhile p).rdropWhile p).getLast?, p c = false := by
  intro c hLast
  have hSome : (text.dropWhile p).rdropWhile p ≠ [] := by
    rintro hNone
    rw [hNone] at hLast
    cases hLast
  have hNot := List.rdropWhile_last_not p (text.dropWhile p) hSome
  rw [List.getLast?_eq_some_getLast hSome, Option.mem_some_iff] at hLast
  rw [← hLast]
  exact Bool.eq_false_iff.mpr hNot

theorem trim_within : (text.dropWhile p).rdropWhile p <:+: text :=
  (List.rdropWhile_prefix _ _).isInfix.trans (List.dropWhile_suffix _).isInfix

variable {p text}

theorem trim_of_ends (hHead : ∀ c ∈ text.head?, p c = false)
    (hLast : ∀ c ∈ text.getLast?, p c = false) : (text.dropWhile p).rdropWhile p = text := by
  rw [dropWhile_of_head hHead, List.rdropWhile_eq_self_iff]
  intro hSome
  rw [hLast _ (List.getLast?_eq_some_getLast hSome)]
  exact Bool.false_ne_true

end Trim

theorem strip_eq_rdropWhile (text : List Char) :
    strip text = (text.dropWhile isSpace).rdropWhile isSpace := rfl

theorem strip_within (text : List Char) : strip text <:+: text := trim_within isSpace text

theorem strip_trimmed (text : List Char) : Trimmed (strip text) :=
  ⟨head?_trim isSpace text, getLast?_trim isSpace text⟩

theorem dropWhile_append_of_head {text after : List Char} (hSome : text ≠ [])
    (hHead : ∀ c ∈ text.head?, isSpace c = false) (before : List Char) :
    (before ++ (text ++ after)).dropWhile isSpace = before.dropWhile isSpace ++ (text ++ after) := by
  obtain ⟨c, rest, rfl⟩ := List.exists_cons_of_ne_nil hSome
  have hKept : (c :: rest ++ after).dropWhile isSpace = c :: rest ++ after := by
    rw [List.cons_append, List.dropWhile_cons, hHead c rfl, if_neg Bool.false_ne_true]
  rw [List.dropWhile_append, hKept]
  split
  next hAll => rw [List.isEmpty_iff.mp hAll, List.nil_append]
  next => rfl

/-- Stripping a text leaves every part of it that has no space at its own ends. -/
theorem Trimmed.within_strip {text whole : List Char} (h : Trimmed text) (hInfix : text <:+: whole) :
    text <:+: strip whole := by
  obtain rfl | hSome := eq_or_ne text []
  · exact List.nil_infix
  · obtain ⟨before, after, rfl⟩ := hInfix
    have hLast : ∀ c ∈ text.reverse.head?, isSpace c = false := by
      rw [List.head?_reverse]
      exact h.last
    rw [strip, List.append_assoc, dropWhile_append_of_head hSome h.head, ← List.append_assoc,
      List.reverse_append, List.reverse_append,
      dropWhile_append_of_head (List.reverse_ne_nil_iff.mpr hSome) hLast, List.reverse_append,
      List.reverse_append, List.reverse_reverse, List.reverse_reverse]
    exact ⟨_, _, rfl⟩

/-- `sorted(texts)` -/
def sortTexts (texts : List String) : List String := texts.insertionSort (· ≤ ·)

/-- `repr` of a list of texts. -/
def reprTexts (texts : List String) : String := (PyValue.list (texts.map .str)).repr

def PyValue.orElse (value other : PyValue) : PyValue := if value.truthy then value else other

end KalshiBot.PythonText

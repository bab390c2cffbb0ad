import KalshiBot.CrossVenue.NormalizedWords

/-! # Synonyms

The table is looked up token by token, after normalization has split the wording at its spaces and
periods.
-/

namespace KalshiBot.CrossVenue

open PythonText

set_option autoImplicit false

/-- The entries of the table, and the pair that its comment counts on. -/
def writtenForms : List (String × String) := synonyms ++ [("u.s.", "us")]

variable {u : Unicode}

theorem tokenize_between (hSplits : u.SplitsAtSpaces) (left middle right : String)
    (dropBoilerplate : Bool) :
    tokenize u (left ++ " " ++ middle ++ " " ++ right) dropBoilerplate =
      tokenize u left dropBoilerplate ++ tokenize u middle dropBoilerplate ++
        tokenize u right dropBoilerplate := by
  rw [tokenize_append hSplits, tokenize_append hSplits]

/-- The same context on both sides says nothing. -/
theorem tokenize_between_eq_iff (hSplits : u.SplitsAtSpaces) (left first second right : String)
    (dropBoilerplate : Bool) :
    tokenize u (left ++ " " ++ first ++ " " ++ right) dropBoilerplate =
        tokenize u (left ++ " " ++ second ++ " " ++ right) dropBoilerplate ↔
      tokenize u first dropBoilerplate = tokenize u second dropBoilerplate := by
  rw [tokenize_between hSplits, tokenize_between hSplits, List.append_left_inj,
    List.append_right_inj]

theorem isAscii_writtenForms :
    ∀ entry ∈ writtenForms, IsAscii entry.1.toList ∧ IsAscii entry.2.toList := by
  decide +kernel

/-- Two of the forms are split before they can be looked up. -/
theorem tokenize_writtenForms :
    ∀ entry ∈ writtenForms, ∀ dropBoilerplate,
      tokenize .ascii entry.1 dropBoilerplate = tokenize .ascii entry.2 dropBoilerplate ↔
        entry.1 ≠ "united states" ∧ entry.1 ≠ "u.s." := by
  decide +kernel

theorem synonym_invisible_iff (hSplits : u.SplitsAtSpaces) (hAscii : u.AgreesOnAscii)
    {entry : String × String} (h : entry ∈ writtenForms) (left right : String)
    (dropBoilerplate : Bool) :
    tokenize u (left ++ " " ++ entry.1 ++ " " ++ right) dropBoilerplate =
        tokenize u (left ++ " " ++ entry.2 ++ " " ++ right) dropBoilerplate ↔
      entry.1 ≠ "united states" ∧ entry.1 ≠ "u.s." := by
  obtain ⟨hKey, hValue⟩ := isAscii_writtenForms entry h
  rw [tokenize_between_eq_iff hSplits, tokenize_of_ascii hAscii hKey,
    tokenize_of_ascii hAscii hValue]
  exact tokenize_writtenForms entry h dropBoilerplate

theorem btc_invisible :
    tokenize .ascii ("Will" ++ " " ++ "btc" ++ " " ++ "rise?") true =
        tokenize .ascii ("Will" ++ " " ++ "bitcoin" ++ " " ++ "rise?") true ↔
      "btc" ≠ "united states" ∧ "btc" ≠ "u.s." :=
  synonym_invisible_iff Unicode.ascii_splitsAtSpaces Unicode.ascii_agreesOnAscii
    (show ("btc", "bitcoin") ∈ writtenForms by decide) "Will" "rise?" true

/-- No token has a space in it, and the periods of `u.s.` part its letters. -/
theorem countries_visible :
    (("united states", "us") ∈ synonyms ∧
      tokenize .ascii ("Will the" ++ " " ++ "united states" ++ " " ++ "win?") true ≠
        tokenize .ascii ("Will the" ++ " " ++ "us" ++ " " ++ "win?") true) ∧
    tokenize .ascii ("Will the" ++ " " ++ "u.s." ++ " " ++ "win?") true ≠
      tokenize .ascii ("Will the" ++ " " ++ "us" ++ " " ++ "win?") true := by
  decide +kernel

end KalshiBot.CrossVenue

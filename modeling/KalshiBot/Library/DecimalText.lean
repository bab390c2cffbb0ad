import KalshiBot.Library.PythonText

/-! # Rounding half to even, and reading a formatted number back

`float` of what the specifier `.nf` writes is the number rounded to that many decimals.
-/

namespace KalshiBot.PythonText

set_option autoImplicit false

/-- The number rounds to at least `k`; the midpoint below goes to `k` when that is even. -/
def RoundsFrom (k : ℤ) (q : ℚ) : Prop := k - 1 / 2 < q ∨ (q = k - 1 / 2 ∧ Even k)

def RoundsTo (k : ℤ) (q : ℚ) : Prop := q < k + 1 / 2 ∨ (q = k + 1 / 2 ∧ Even k)

instance (k : ℤ) (q : ℚ) : Decidable (RoundsFrom k q) := inferInstanceAs (Decidable (_ ∨ _))

instance (k : ℤ) (q : ℚ) : Decidable (RoundsTo k q) := inferInstanceAs (Decidable (_ ∨ _))

/-- The nearest integer, and of two the even one. -/
def Nearest (q : ℚ) (n : ℤ) : Prop := |q - n| < 1 / 2 ∨ (|q - n| = 1 / 2 ∧ Even n)

theorem nearest_roundHalfEven (q : ℚ) : Nearest q (roundHalfEven q) := by
  have hLower := Int.floor_le q
  have hUpper := Int.lt_floor_add_one q
  have hCast : ((⌊q⌋ + 1 : ℤ) : ℚ) = ⌊q⌋ + 1 := by push_cast; rfl
  unfold roundHalfEven
  split
  next hLow =>
    exact .inl (abs_lt.mpr ⟨by linarith, hLow⟩)
  next hLow =>
    split
    next hHigh =>
      rw [Nearest, hCast]
      exact .inl (abs_lt.mpr ⟨by linarith, by linarith⟩)
    next hHigh =>
      have hTie : q - ⌊q⌋ = 1 / 2 := le_antisymm (not_lt.mp hHigh) (not_lt.mp hLow)
      split
      next hEven =>
        refine .inr ⟨?_, Int.even_iff.mpr hEven⟩
        rw [hTie, abs_of_pos (by norm_num)]
      next hOdd =>
        rw [Nearest, hCast]
        refine .inr ⟨?_, Int.even_add_one.mpr fun hEven => hOdd (Int.even_iff.mp hEven)⟩
        rw [show q - (⌊q⌋ + 1) = -(1 / 2) by linarith, abs_neg, abs_of_pos (by norm_num)]

theorem Nearest.le_iff {q : ℚ} {n : ℤ} (hSpec : Nearest q n) (k : ℤ) : k ≤ n ↔ RoundsFrom k q := by
  constructor
  · intro hLe
    have hCast : (k : ℚ) ≤ n := by exact_mod_cast hLe
    obtain hNear | ⟨hTie, hEven⟩ := hSpec
    · have := (abs_lt.mp hNear).1
      exact .inl (by linarith)
    · have hBound := (abs_le.mp hTie.le).1
      obtain rfl | hLt := hLe.eq_or_lt
      · obtain hBelow | hSame := hBound.lt_or_eq
        · exact .inl (by linarith)
        · exact .inr ⟨by linarith, hEven⟩
      · have hCast' : (k : ℚ) + 1 ≤ n := by exact_mod_cast hLt
        exact .inl (by linarith)
  · intro hFrom
    by_contra hNot
    have hCast : (n : ℚ) + 1 ≤ k := by exact_mod_cast not_le.mp hNot
    have hAbove : q - n ≤ 1 / 2 := by
      obtain hNear | ⟨hTie, -⟩ := hSpec
      · exact (abs_le.mp hNear.le).2
      · exact (abs_le.mp hTie.le).2
    obtain hBelow | ⟨hMid, hEvenK⟩ := hFrom
    · linarith
    · have hSucc : k = n + 1 := by
        have : (k : ℚ) ≤ n + 1 := by linarith
        have : k ≤ n + 1 := by exact_mod_cast this
        omega
      have hHalf : q - n = 1 / 2 := by
        rw [hMid, hSucc]
        push_cast
        ring
      obtain hNear | ⟨-, hEven⟩ := hSpec
      · rw [hHalf, abs_of_pos (by norm_num)] at hNear
        exact lt_irrefl _ hNear
      · rw [hSucc, Int.even_add_one] at hEvenK
        exact hEvenK hEven

theorem Nearest.neg {q : ℚ} {n : ℤ} (h : Nearest q n) : Nearest (-q) (-n) := by
  have hAbs : |-q - ((-n : ℤ) : ℚ)| = |q - n| := by
    rw [← abs_neg]
    congr 1
    push_cast
    ring
  rw [Nearest, hAbs, even_neg]
  exact h

theorem Nearest.ge_iff {q : ℚ} {n : ℤ} (hSpec : Nearest q n) (k : ℤ) : n ≤ k ↔ RoundsTo k q := by
  rw [← neg_le_neg_iff, hSpec.neg.le_iff, RoundsFrom, RoundsTo, even_neg]
  push_cast
  constructor
  · rintro (hLess | ⟨hTie, hEven⟩)
    · exact .inl (by linarith)
    · exact .inr ⟨by linarith, hEven⟩
  · rintro (hLess | ⟨hTie, hEven⟩)
    · exact .inl (by linarith)
    · exact .inr ⟨by linarith, hEven⟩

theorem abs_sub_roundHalfEven_le (q : ℚ) : |q - roundHalfEven q| ≤ 1 / 2 := by
  obtain hNear | ⟨hTie, -⟩ := nearest_roundHalfEven q
  · exact hNear.le
  · exact hTie.le

theorem roundHalfEven_mono {p q : ℚ} (h : p ≤ q) : roundHalfEven p ≤ roundHalfEven q := by
  have hFrom := ((nearest_roundHalfEven p).le_iff (roundHalfEven p)).mp le_rfl
  refine ((nearest_roundHalfEven q).le_iff _).mpr ?_
  obtain hAbove | ⟨hMid, hEven⟩ := hFrom
  · exact .inl (hAbove.trans_le h)
  · obtain hSame | hMore := h.eq_or_lt
    · exact .inr ⟨hSame ▸ hMid, hEven⟩
    · exact .inl (hMid ▸ hMore)

theorem roundHalfEven_intCast (k : ℤ) : roundHalfEven k = k :=
  le_antisymm (((nearest_roundHalfEven k).ge_iff k).mpr (.inl (by linarith)))
    (((nearest_roundHalfEven k).le_iff k).mpr (.inl (by linarith)))

def digitValue (c : Char) : ℕ := c.toNat - 48

theorem digitRun_append {digits rest : List Char} (hDigits : ∀ c ∈ digits, c.isDigit)
    (hStop : ∀ afterDigit, digitRun afterDigit rest = ([], rest)) (afterDigit : Bool) :
    digitRun afterDigit (digits ++ rest) = (digits.map digitValue, rest) := by
  induction digits generalizing afterDigit with
  | nil => exact hStop afterDigit
  | cons c digits ih =>
    rw [List.cons_append, digitRun, if_pos (hDigits c List.mem_cons_self),
      ih (fun other hMem => hDigits other (List.mem_cons_of_mem _ hMem))]
    rfl

theorem ofDigits_reverse_map_digitValue (digits : List Char) (init : ℕ) :
    Nat.ofDigitChars 10 digits init =
      10 ^ digits.length * init + Nat.ofDigits 10 (digits.map digitValue).reverse := by
  induction digits generalizing init with
  | nil => simp
  | cons c digits ih =>
    rw [Nat.ofDigitChars_cons, ih, List.map_cons, Nat.ofDigits_reverse_cons, List.length_map,
      List.length_cons, digitValue, show '0'.toNat = 48 from rfl]
    ring

theorem digitRun_point (rest : List Char) (afterDigit : Bool) :
    digitRun afterDigit ('.' :: rest) = ([], '.' :: rest) := by
  rw [digitRun, if_neg (by decide), if_neg (by simp)]

theorem isSpace_of_isDigit {c : Char} (h : c.isDigit) : isSpace c = false := by
  have hBounds : '0'.val.toNat ≤ c.val.toNat ∧ c.val.toNat ≤ '9'.val.toNat := by
    simpa only [Char.isDigit, Bool.and_eq_true, decide_eq_true_eq, ge_iff_le, UInt32.le_iff_toNat_le]
      using h
  have hRange : 48 ≤ c.toNat ∧ c.toNat ≤ 57 := hBounds
  simp only [isSpace, decide_eq_false_iff_not, List.mem_cons, List.not_mem_nil, or_false]
  omega

theorem strip_of_ends {text : List Char} (hHead : ∀ c ∈ text.head?, isSpace c = false)
    (hLast : ∀ c ∈ text.getLast?, isSpace c = false) : strip text = text := by
  rw [strip, dropWhile_of_head hHead, dropWhile_of_head, List.reverse_reverse]
  rwa [List.head?_reverse]

/-- The digits before the point and those after it. -/
theorem exists_withPoint {digits : ℕ} (hDigits : 0 < digits) (n : ℕ) :
    ∃ whole fraction, withPoint digits n = whole ++ '.' :: fraction ∧ whole ≠ [] ∧
      fraction.length = digits ∧ (∀ c ∈ whole ++ fraction, c.isDigit) ∧
        Nat.ofDigits 10 ((whole ++ fraction).map digitValue).reverse = n := by
  let text := Nat.toDigits 10 n
  let padded := zeros (digits + 1 - text.length) ++ text
  have hLength : digits + 1 ≤ padded.length := by
    simp only [padded, zeros, List.length_append, List.length_replicate]
    omega
  have hSplit := List.take_append_drop (padded.length - digits) padded
  refine ⟨padded.take (padded.length - digits), padded.drop (padded.length - digits), ?_, ?_, ?_, ?_, ?_⟩
  · rw [withPoint, if_neg hDigits.ne']
  · rw [← List.length_pos_iff_ne_nil, List.length_take]
    omega
  · rw [List.length_drop]
    omega
  · rw [hSplit]
    intro c hMem
    obtain hZero | hText := List.mem_append.mp hMem
    · rw [List.eq_of_mem_replicate hZero]
      rfl
    · exact Nat.isDigit_of_mem_toDigits (by decide) (by decide) hText
  · rw [hSplit]
    have hValue := ofDigits_reverse_map_digitValue padded 0
    rw [Nat.mul_zero, Nat.zero_add] at hValue
    rw [← hValue, Nat.ofDigitChars_append, zeros, Nat.ofDigitChars_replicate_zero, Nat.mul_zero,
      Nat.ofDigitChars_ten_toDigits]

theorem signedRun_of_isDigit {c : Char} (h : c.isDigit) (rest : List Char) :
    signedRun (c :: rest) = (1, c :: rest) := by
  unfold signedRun
  split
  next hEq =>
    cases hEq
    cases h
  next hEq =>
    cases hEq
    cases h
  next => rfl

theorem signedRun_sign (q : ℚ) {c : Char} (h : c.isDigit) (rest : List Char) :
    signedRun ((sign q).toList ++ c :: rest) = (if q < 0 then -1 else 1, c :: rest) := by
  rw [sign]
  split
  · rfl
  · exact signedRun_of_isDigit h rest

theorem isSpace_head?_sign (q : ℚ) {c : Char} (h : c.isDigit) (rest : List Char) :
    ∀ first ∈ ((sign q).toList ++ c :: rest).head?, isSpace first = false := by
  intro first hFirst
  rw [sign] at hFirst
  split at hFirst
  · cases hFirst
    decide
  · cases hFirst
    exact isSpace_of_isDigit h

theorem parseFloat_formatFixed {digits : ℕ} (hDigits : 0 < digits) (q : ℚ) :
    parseFloat (formatFixed digits q) = some ((if q < 0 then -1 else 1) *
      ((roundHalfEven (|q| * 10 ^ digits)).toNat : ℚ) / 10 ^ digits) := by
  obtain ⟨whole, fraction, hText, hWhole, hLength, hAll, hValue⟩ :=
    exists_withPoint hDigits (roundHalfEven (|q| * 10 ^ digits)).toNat
  have hWholeDigits : ∀ c ∈ whole, c.isDigit := fun c hMem => hAll c (List.mem_append_left _ hMem)
  have hFractionDigits : ∀ c ∈ fraction, c.isDigit :=
    fun c hMem => hAll c (List.mem_append_right _ hMem)
  have hFraction : fraction ≠ [] := by
    rintro rfl
    exact hDigits.ne hLength
  have hList : (formatFixed digits q).toList = (sign q).toList ++ (whole ++ '.' :: fraction) := by
    rw [formatFixed, String.toList_append, String.toList_ofList, hText]
  have hWholeRun := digitRun_append hWholeDigits (digitRun_point fraction) false
  have hFractionRun : digitRun false (fraction ++ []) = _ :=
    digitRun_append hFractionDigits (fun _ => rfl) false
  rw [List.append_nil] at hFractionRun
  obtain ⟨c, rest, rfl⟩ := List.exists_cons_of_ne_nil hWhole
  have hDigit := hWholeDigits c List.mem_cons_self
  have hStrip : strip (formatFixed digits q).toList = (formatFixed digits q).toList := by
    rw [hList]
    refine strip_of_ends (isSpace_head?_sign q hDigit _) fun last hLast => ?_
    rw [← List.append_assoc, List.getLast?_append_of_ne_nil _ (List.cons_ne_nil _ _),
      List.getLast?_cons_of_ne_nil hFraction] at hLast
    exact isSpace_of_isDigit (hFractionDigits last (List.mem_of_getLast? hLast))
  rw [List.map_append] at hValue
  have hNonempty : ¬ ((c :: rest).map digitValue = [] ∧ fraction.map digitValue = []) := nofun
  rw [List.cons_append] at hWholeRun
  rw [parseFloat, hStrip, hList, List.cons_append, readDecimal, signedRun_sign q hDigit]
  simp only [hWholeRun, hFractionRun, readExponent, hNonempty, if_false, hValue,
    List.length_map, hLength, zpow_zero, mul_one]
  split <;> simp

theorem parseFloat_point {whole fraction : List Char} (hWhole : whole ≠ []) (hFraction : fraction ≠ [])
    (hDigits : ∀ c ∈ whole ++ fraction, c.isDigit) :
    parseFloat (String.ofList (whole ++ '.' :: fraction)) = some
      (((Nat.ofDigits 10 ((whole ++ fraction).map digitValue).reverse : ℕ) : ℚ) /
        10 ^ fraction.length) := by
  have hFractionDigits : ∀ c ∈ fraction, c.isDigit :=
    fun c hMem => hDigits c (List.mem_append_right _ hMem)
  have hWholeRun := digitRun_append (fun c hMem => hDigits c (List.mem_append_left _ hMem))
    (digitRun_point fraction) false
  have hFractionRun : digitRun false (fraction ++ []) = _ :=
    digitRun_append hFractionDigits (fun _ => rfl) false
  rw [List.append_nil] at hFractionRun
  obtain ⟨c, rest, rfl⟩ := List.exists_cons_of_ne_nil hWhole
  have hDigit := hDigits c List.mem_cons_self
  have hStrip : strip (c :: rest ++ '.' :: fraction) = c :: rest ++ '.' :: fraction := by
    refine strip_of_ends ?_ fun last hLast => ?_
    · rintro first ⟨⟩
      exact isSpace_of_isDigit hDigit
    · rw [List.getLast?_append_of_ne_nil _ (List.cons_ne_nil _ _),
        List.getLast?_cons_of_ne_nil hFraction] at hLast
      exact isSpace_of_isDigit (hFractionDigits last (List.mem_of_getLast? hLast))
  have hNonempty : ¬((c :: rest).map digitValue = [] ∧ fraction.map digitValue = []) := by
    rintro ⟨hNil, -⟩
    cases hNil
  rw [List.cons_append] at hWholeRun hStrip
  rw [parseFloat, String.toList_ofList, List.cons_append, hStrip, readDecimal,
    signedRun_of_isDigit hDigit]
  simp only [hWholeRun, hFractionRun, readExponent, hNonempty, if_false, List.length_map, zpow_zero,
    mul_one, List.map_append, Int.cast_one, one_mul]

/-- A whole number with two zeros after the point, as a count is written. -/
theorem parseFloat_wholeNumber (k : ℕ) : parseFloat (toString (k : ℤ) ++ ".00") = some k := by
  have hText : toString (k : ℤ) ++ ".00" =
      String.ofList (Nat.toDigits 10 k ++ '.' :: ['0', '0']) := by
    rw [← String.toList_inj, String.toList_append, String.toList_ofList]
    rw [String.toList_ofList]
    exact congrArg (· ++ ['.', '0', '0']) (Nat.toList_repr (n := k))
  have hValue := ofDigits_reverse_map_digitValue (Nat.toDigits 10 k ++ ['0', '0']) 0
  rw [Nat.mul_zero, Nat.zero_add, Nat.ofDigitChars_append, Nat.ofDigitChars_ten_toDigits] at hValue
  rw [hText, parseFloat_point Nat.toDigits_ne_nil (List.cons_ne_nil _ _), ← hValue]
  · have hHundred : Nat.ofDigitChars 10 ['0', '0'] k = k * 100 := by
      simp [Nat.ofDigitChars]
      omega
    rw [hHundred]
    push_cast
    norm_num
  · intro c hMem
    obtain hDigits | hZeros := List.mem_append.mp hMem
    · exact Nat.isDigit_of_mem_toDigits (by decide) (by decide) hDigits
    · simp only [List.mem_cons, List.not_mem_nil, or_false, or_self] at hZeros
      subst hZeros
      decide

end KalshiBot.PythonText

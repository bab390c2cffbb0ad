import KalshiBot.CrossVenue.Markets
import KalshiBot.Library.DecimalText
import KalshiBot.Library.WeightedLists

/-! # Fees of a fill

A quadratic in the price, summed over the levels of a fill and rounded once.
-/

namespace KalshiBot.CrossVenue

open PythonText WeightedLists

set_option autoImplicit false

def roundFee (roundUpToCent : Bool) (raw : ℚ) : ℚ :=
  if roundUpToCent then ⌈raw * 100⌉ / 100 else roundHalfEven (raw * 10 ^ 5) / 10 ^ 5

/-- What the taker and the maker fee share. -/
def quadraticFee (rate : ℚ) (roundUpToCent : Bool) (basis : ℚ) : ℚ :=
  if basis ≤ 0 ∨ rate = 0 then 0 else roundFee roundUpToCent (rate * basis)

namespace TakerFeeModel

def feeDollarsFromBasis (model : TakerFeeModel) (basis : ℚ) : ℚ :=
  quadraticFee model.rate model.roundUpToCent basis

def feeDollars (model : TakerFeeModel) (price contracts : ℚ) : ℚ :=
  model.feeDollarsFromBasis (contracts * price * (1 - price))

def makerFeeDollarsFromBasis (model : TakerFeeModel) (basis : ℚ) : ℚ :=
  quadraticFee model.makerRate model.roundUpToCent basis

def makerFeeDollars (model : TakerFeeModel) (price contracts : ℚ) : ℚ :=
  model.makerFeeDollarsFromBasis (contracts * price * (1 - price))

end TakerFeeModel

section Rounding

variable {roundUpToCent : Bool} {raw raw' : ℚ}

theorem roundFee_zero (roundUpToCent : Bool) : roundFee roundUpToCent 0 = 0 := by
  cases roundUpToCent with
  | true => simp [roundFee]
  | false =>
    have hZero : roundHalfEven 0 = 0 := roundHalfEven_intCast 0
    simp [roundFee, hZero]

theorem roundFee_mono (roundUpToCent : Bool) : Monotone (roundFee roundUpToCent) := by
  intro raw raw' hLe
  cases roundUpToCent with
  | true =>
    have hCeil : (⌈raw * 100⌉ : ℚ) ≤ ⌈raw' * 100⌉ := by
      exact_mod_cast Int.ceil_mono (mul_le_mul_of_nonneg_right hLe (by norm_num))
    exact div_le_div_of_nonneg_right hCeil (by norm_num)
  | false =>
    have hRound : (roundHalfEven (raw * 10 ^ 5) : ℚ) ≤ roundHalfEven (raw' * 10 ^ 5) := by
      exact_mod_cast roundHalfEven_mono (mul_le_mul_of_nonneg_right hLe (by norm_num))
    exact div_le_div_of_nonneg_right hRound (by norm_num)

theorem roundFee_up (raw : ℚ) : raw ≤ roundFee true raw ∧ roundFee true raw < raw + 1 / 100 := by
  have hLower := Int.le_ceil (raw * 100)
  have hUpper := Int.ceil_lt_add_one (raw * 100)
  have hHundred : (0 : ℚ) < 100 := by norm_num
  simp only [roundFee, if_true]
  exact ⟨(le_div_iff₀ hHundred).mpr hLower, (div_lt_iff₀ hHundred).mpr (by linarith)⟩

theorem abs_roundFee_sub_le (raw : ℚ) : |roundFee false raw - raw| ≤ 1 / 2 * (1 / 10 ^ 5) := by
  have hNear := abs_sub_roundHalfEven_le (raw * 10 ^ 5)
  have hScale : roundFee false raw - raw =
      -(raw * 10 ^ 5 - roundHalfEven (raw * 10 ^ 5)) / 10 ^ 5 := by
    simp only [roundFee, Bool.false_eq_true, if_false]
    ring
  rw [hScale, abs_div, abs_neg, abs_of_pos (by norm_num : (0 : ℚ) < 10 ^ 5), mul_one_div]
  exact div_le_div_of_nonneg_right hNear (by norm_num)

theorem roundFee_up_add_le (raw raw' : ℚ) :
    roundFee true (raw + raw') ≤ roundFee true raw + roundFee true raw' := by
  have hCeil : (⌈(raw + raw') * 100⌉ : ℚ) ≤ ⌈raw * 100⌉ + ⌈raw' * 100⌉ := by
    rw [add_mul]
    exact_mod_cast Int.ceil_add_le (raw * 100) (raw' * 100)
  simp only [roundFee, if_true]
  rw [← add_div]
  exact div_le_div_of_nonneg_right hCeil (by norm_num)

end Rounding

section Fees

variable {rate : ℚ} {roundUpToCent : Bool}

/-- The free cases are no exception to the formula. -/
theorem quadraticFee_of_nonneg (rate : ℚ) (roundUpToCent : Bool) {basis : ℚ} (hBasis : 0 ≤ basis) :
    quadraticFee rate roundUpToCent basis = roundFee roundUpToCent (rate * basis) := by
  unfold quadraticFee
  split
  next hFree =>
    have hZero : rate * basis = 0 := by
      obtain hBasis' | hRate := hFree
      · rw [le_antisymm hBasis' hBasis, mul_zero]
      · rw [hRate, zero_mul]
    rw [hZero, roundFee_zero]
  next => rfl

theorem quadraticFee_of_nonpos {basis : ℚ} (hBasis : basis ≤ 0) :
    quadraticFee rate roundUpToCent basis = 0 := if_pos (.inl hBasis)

theorem quadraticFee_nonneg (hRate : 0 ≤ rate) (basis : ℚ) :
    0 ≤ quadraticFee rate roundUpToCent basis := by
  obtain hNonneg | hNeg := le_or_gt 0 basis
  · rw [quadraticFee_of_nonneg _ _ hNonneg, ← roundFee_zero roundUpToCent]
    exact roundFee_mono roundUpToCent (mul_nonneg hRate hNonneg)
  · exact (quadraticFee_of_nonpos hNeg.le).ge

theorem quadraticFee_mono (hRate : 0 ≤ rate) : Monotone (quadraticFee rate roundUpToCent) := by
  intro basis basis' hLe
  obtain hNonneg | hNeg := le_or_gt 0 basis
  · rw [quadraticFee_of_nonneg _ _ hNonneg, quadraticFee_of_nonneg _ _ (hNonneg.trans hLe)]
    exact roundFee_mono roundUpToCent (mul_le_mul_of_nonneg_left hLe hRate)
  · rw [quadraticFee_of_nonpos hNeg.le]
    exact quadraticFee_nonneg hRate basis'

end Fees

/-- The levels that a fill consumes. -/
structure Fill where
  levels : List BookLevel
  priced : ∀ level ∈ levels, 0 ≤ level.priceDollars ∧ level.priceDollars ≤ 1
  sized : ∀ level ∈ levels, 0 ≤ level.sizeContracts

def levelBasis (level : BookLevel) : ℚ :=
  level.sizeContracts * level.priceDollars * (1 - level.priceDollars)

namespace Fill

def basis (fill : Fill) : ℚ := (fill.levels.map levelBasis).sum

def contracts (fill : Fill) : ℚ := total BookLevel.sizeContracts fill.levels

/-- The volume-weighted average price. -/
def averagePrice (fill : Fill) : ℚ :=
  average BookLevel.sizeContracts BookLevel.priceDollars fill.levels

def mirrored (fill : Fill) : Fill where
  levels := fill.levels.map BookLevel.complement
  priced := by
    intro level hMem
    obtain ⟨original, hOriginal, rfl⟩ := List.mem_map.mp hMem
    obtain ⟨hNonneg, hPar⟩ := fill.priced original hOriginal
    exact ⟨sub_nonneg.mpr hPar, sub_le_self 1 hNonneg⟩
  sized := by
    intro level hMem
    obtain ⟨original, hOriginal, rfl⟩ := List.mem_map.mp hMem
    exact fill.sized original hOriginal

theorem levelBasis_nonneg (fill : Fill) {level : BookLevel} (hMem : level ∈ fill.levels) :
    0 ≤ levelBasis level :=
  mul_nonneg (mul_nonneg (fill.sized level hMem) (fill.priced level hMem).1)
    (sub_nonneg.mpr (fill.priced level hMem).2)

theorem basis_nonneg (fill : Fill) : 0 ≤ fill.basis := by
  refine List.sum_nonneg fun x hMem => ?_
  obtain ⟨level, hLevel, rfl⟩ := List.mem_map.mp hMem
  exact fill.levelBasis_nonneg hLevel

theorem basis_mirrored (fill : Fill) : fill.mirrored.basis = fill.basis := by
  have hSame : levelBasis ∘ BookLevel.complement = levelBasis := by
    funext level
    simp only [Function.comp_apply, levelBasis, BookLevel.complement]
    ring
  rw [basis, mirrored, List.map_map, hSame, basis]

/-- `p * (1 - p)` lies under its tangents. -/
theorem basis_le_average (fill : Fill) :
    fill.basis ≤ fill.contracts * fill.averagePrice * (1 - fill.averagePrice) := by
  have hTangent : ∀ p : ℚ, p * (1 - p) ≤ fill.averagePrice * (1 - fill.averagePrice) +
      (1 - 2 * fill.averagePrice) * (p - fill.averagePrice) := by
    intro p
    have hSquare := sq_nonneg (p - fill.averagePrice)
    linarith
  calc fill.basis
      = weighted BookLevel.sizeContracts
          (fun level => level.priceDollars * (1 - level.priceDollars)) fill.levels :=
        congrArg List.sum (List.map_congr_left fun level _ => mul_assoc _ _ _)
    _ ≤ fill.contracts * (fill.averagePrice * (1 - fill.averagePrice)) :=
        weighted_le_of_average (f := fun p => p * (1 - p)) fill.sized hTangent
    _ = fill.contracts * fill.averagePrice * (1 - fill.averagePrice) := (mul_assoc _ _ _).symm

/-- Rounding up each level by itself never costs less. -/
theorem fee_le_sum (rate : ℚ) (fill : Fill) :
    quadraticFee rate true fill.basis ≤
      (fill.levels.map fun level => quadraticFee rate true (levelBasis level)).sum := by
  have hLevels : ∀ levels : List BookLevel, (∀ level ∈ levels, 0 ≤ levelBasis level) →
      roundFee true (rate * (levels.map levelBasis).sum) ≤
        (levels.map fun level => quadraticFee rate true (levelBasis level)).sum := by
    intro levels hNonneg
    induction levels with
    | nil => simp [roundFee_zero]
    | cons level levels ih =>
      obtain ⟨hHead, hTail⟩ := List.forall_mem_cons.mp hNonneg
      rw [List.map_cons, List.sum_cons, List.map_cons, List.sum_cons, mul_add,
        quadraticFee_of_nonneg _ _ hHead]
      exact (roundFee_up_add_le _ _).trans (by linarith [ih hTail])
  rw [quadraticFee_of_nonneg _ _ fill.basis_nonneg]
  exact hLevels fill.levels fun level hMem => fill.levelBasis_nonneg hMem

end Fill

/-- What a fee from the basis and the fee at a single price owe to each other and to the exact
fee. -/
structure FeeLaws (rate : ℚ) (roundUpToCent : Bool) (fromBasis : ℚ → ℚ) (dollars : ℚ → ℚ → ℚ)
    (fill : Fill) : Prop where
  nonneg : 0 ≤ fromBasis fill.basis
  roundedUp : roundUpToCent = true →
    rate * fill.basis ≤ fromBasis fill.basis ∧ fromBasis fill.basis < rate * fill.basis + 1 / 100
  rounded : roundUpToCent = false →
    |fromBasis fill.basis - rate * fill.basis| ≤ 1 / 2 * (1 / 100000)
  monotone : Monotone fromBasis
  averaged : fromBasis fill.basis ≤ dollars fill.averagePrice fill.contracts
  mirrored : fromBasis fill.mirrored.basis = fromBasis fill.basis
  split : roundUpToCent = true → fromBasis fill.basis ≤
    (fill.levels.map fun level => dollars level.priceDollars level.sizeContracts).sum

theorem feeLaws_quadratic {rate : ℚ} (hRate : 0 ≤ rate) (roundUpToCent : Bool) (fill : Fill) :
    FeeLaws rate roundUpToCent (quadraticFee rate roundUpToCent)
      (fun price contracts =>
        quadraticFee rate roundUpToCent (contracts * price * (1 - price))) fill where
  nonneg := quadraticFee_nonneg hRate fill.basis
  roundedUp := by
    rintro rfl
    rw [quadraticFee_of_nonneg _ _ fill.basis_nonneg]
    exact roundFee_up _
  rounded := by
    rintro rfl
    rw [quadraticFee_of_nonneg _ _ fill.basis_nonneg]
    exact (abs_roundFee_sub_le _).trans_eq (by norm_num)
  monotone := quadraticFee_mono hRate
  averaged := quadraticFee_mono hRate fill.basis_le_average
  mirrored := by rw [fill.basis_mirrored]
  split := by
    rintro rfl
    exact fill.fee_le_sum rate

theorem fee_laws (model : TakerFeeModel) (hTaker : 0 ≤ model.rate) (hMaker : 0 ≤ model.makerRate)
    (fill : Fill) :
    FeeLaws model.rate model.roundUpToCent model.feeDollarsFromBasis model.feeDollars fill ∧
    FeeLaws model.makerRate model.roundUpToCent model.makerFeeDollarsFromBasis
      model.makerFeeDollars fill :=
  ⟨feeLaws_quadratic hTaker model.roundUpToCent fill,
    feeLaws_quadratic hMaker model.roundUpToCent fill⟩

/-- A hundred contracts at ten cents and a hundred at ninety. -/
def spreadFill : Fill where
  levels := [⟨1 / 10, 100⟩, ⟨9 / 10, 100⟩]
  priced := by decide +kernel
  sized := by decide +kernel

theorem fee_laws_spreadFill :
    FeeLaws (7 / 100) true
      (TakerFeeModel.feeDollarsFromBasis ⟨.kalshi, 7 / 100, true, "GET /series", 0⟩)
      (TakerFeeModel.feeDollars ⟨.kalshi, 7 / 100, true, "GET /series", 0⟩) spreadFill :=
  (fee_laws ⟨.kalshi, 7 / 100, true, "GET /series", 0⟩ (by norm_num) le_rfl spreadFill).1

example : quadraticFee (7 / 100) true spreadFill.basis = 126 / 100 ∧
    quadraticFee (7 / 100) true (200 * (1 / 2) * (1 - 1 / 2)) = 350 / 100 := by decide +kernel

end KalshiBot.CrossVenue

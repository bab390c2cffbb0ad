import KalshiBot.CrossVenue.Fees
import KalshiBot.CrossVenue.Normalize
import KalshiBot.Library.RoundedSums
import Mathlib.Algebra.BigOperators.Ring.List

/-! # Kalshi's fee model, and fills in pieces

A series quotes its fee as a type and a multiplier. Every fill is rounded once, so an order that
is filled in pieces pays about what it would have paid at once.
-/

namespace KalshiBot.CrossVenue

open PythonText RoundedSums

set_option autoImplicit false

def kalshiBaseRate : ℚ := 7 / 100
def kalshiMakerBaseRate : ℚ := 175 / 10000

def kalshiQuadraticMakerMultipliers : List (String × ℚ) :=
  [("quadratic", 0), ("quadratic_with_maker_fees", 1), ("quadratic_with_combo_maker_fees", 2)]

/-- How the building of a fee model fails: as unsupported, or on a body that is no object. -/
inductive FeeModelError where
  | unsupported (message : String)
  | attribute

def unsupportedFeeType (ticker : String) (feeType : PyValue) : FeeModelError :=
  .unsupported ("Kalshi " ++ pyRepr ticker ++ " has fee_type=" ++ feeType.repr ++
    "; this module implements only " ++
    reprTexts (sortTexts (kalshiQuadraticMakerMultipliers.map Prod.fst)) ++
    ". Supporting another means teaching TakerFeeModel the formula, not widening a config value.")

def kalshiFeeModelFromParts (ticker : String) (feeType feeMultiplier : PyValue) (source : String) :
    Except FeeModelError TakerFeeModel :=
  match kalshiQuadraticMakerMultipliers.lookup (feeType.orElse (.str "")).text with
  | none => .error (unsupportedFeeType ticker feeType)
  | some makerMultiplier =>
    match feeMultiplier.toFloat with
    | none =>
      .error (.unsupported ("Kalshi " ++ pyRepr ticker ++ " has unparseable fee_multiplier=" ++
        feeMultiplier.repr))
    | some multiplier =>
      .ok
        { venue := .kalshi
          rate := kalshiBaseRate * multiplier
          roundUpToCent := true
          source
          makerRate := kalshiMakerBaseRate * makerMultiplier }

def kalshiFeeModel (series : Payload) : Except FeeModelError TakerFeeModel :=
  match (series.lookup "series").getD (.dict series) with
  | .dict body =>
    let feeType := field body "fee_type"
    let ticker := (field body "ticker").text
    kalshiFeeModelFromParts ticker feeType (field body "fee_multiplier")
      ("GET /series/" ++ ticker ++ " fee_type=" ++ feeType.text ++ " multiplier=" ++
        (field body "fee_multiplier").text)
  | _ => .error .attribute

/-- Kalshi rounds up to the cent, and a resting order pays nothing, a quarter or a half of the
base rate, whatever multiplier is quoted. -/
theorem kalshiFeeModelFromParts_ok {ticker source : String} {feeType feeMultiplier : PyValue}
    {model : TakerFeeModel}
    (h : kalshiFeeModelFromParts ticker feeType feeMultiplier source = .ok model) :
    model.roundUpToCent = true ∧
      model.makerRate ∈ [0, kalshiBaseRate / 4, kalshiBaseRate / 2] := by
  rw [kalshiFeeModelFromParts] at h
  cases hType : kalshiQuadraticMakerMultipliers.lookup (feeType.orElse (.str "")).text with
  | none =>
    rw [hType] at h
    cases h
  | some makerMultiplier =>
    rw [hType] at h
    cases hMultiplier : feeMultiplier.toFloat with
    | none =>
      rw [hMultiplier] at h
      cases h
    | some multiplier =>
      rw [hMultiplier] at h
      obtain rfl := Except.ok.inj h
      obtain ⟨before, after, hTable, -⟩ := List.lookup_eq_some_iff.mp hType
      have hListed : makerMultiplier ∈ kalshiQuadraticMakerMultipliers.map Prod.snd := by
        rw [hTable]
        simp
      have hRates : ∀ m ∈ kalshiQuadraticMakerMultipliers.map Prod.snd,
          kalshiMakerBaseRate * m ∈ [0, kalshiBaseRate / 4, kalshiBaseRate / 2] := by
        decide +kernel
      exact ⟨rfl, hRates makerMultiplier hListed⟩

namespace Fill

/-- The levels of all the pieces, as one fill. -/
def joined (pieces : List Fill) : Fill where
  levels := pieces.flatMap Fill.levels
  priced := by
    intro level hMem
    obtain ⟨piece, -, hLevel⟩ := List.mem_flatMap.mp hMem
    exact piece.priced level hLevel
  sized := by
    intro level hMem
    obtain ⟨piece, -, hLevel⟩ := List.mem_flatMap.mp hMem
    exact piece.sized level hLevel

theorem basis_joined (pieces : List Fill) : (joined pieces).basis = (pieces.map basis).sum := by
  show ((pieces.flatMap levels).map levelBasis).sum = (pieces.map basis).sum
  induction pieces with
  | nil => rfl
  | cons piece pieces ih =>
    rw [List.flatMap_cons, List.map_append, List.sum_append, ih, List.map_cons, List.sum_cons,
      basis]

end Fill

/-- What the fees of the pieces add up to, beside the fee of one fill with all their levels. -/
structure PieceLaws (roundUpToCent : Bool) (fee : ℚ → ℚ) (pieces : List Fill) : Prop where
  roundedUp : roundUpToCent = true →
    fee (Fill.joined pieces).basis ≤ (pieces.map fun piece => fee piece.basis).sum ∧
      (pieces.map fun piece => fee piece.basis).sum ≤
        fee (Fill.joined pieces).basis + (pieces.length - 1) / 100
  rounded : roundUpToCent = false →
    |(pieces.map fun piece => fee piece.basis).sum - fee (Fill.joined pieces).basis| ≤
      (pieces.length + 1) / 200000

section Pieces

variable {pieces : List Fill}

theorem fee_joined (rate : ℚ) (roundUpToCent : Bool) (pieces : List Fill) :
    quadraticFee rate roundUpToCent (Fill.joined pieces).basis =
      roundFee roundUpToCent (pieces.map fun piece => rate * piece.basis).sum := by
  rw [quadraticFee_of_nonneg _ _ (Fill.basis_nonneg _), Fill.basis_joined, List.sum_map_mul_left]

theorem fee_pieces (rate : ℚ) (roundUpToCent : Bool) (pieces : List Fill) :
    (pieces.map fun piece => quadraticFee rate roundUpToCent piece.basis) =
      (pieces.map fun piece => rate * piece.basis).map (roundFee roundUpToCent) := by
  rw [List.map_map]
  exact List.map_congr_left fun piece _ => quadraticFee_of_nonneg _ _ piece.basis_nonneg

theorem sum_roundFee_up (raws : List ℚ) :
    (raws.map (roundFee true)).sum = ((raws.map (· * 100)).map Int.ceil).sum / 100 := by
  induction raws with
  | nil => simp
  | cons raw raws ih =>
    simp only [List.map_cons, List.sum_cons, ih, roundFee, if_true]
    push_cast
    ring

theorem roundFee_up_sum (raws : List ℚ) :
    roundFee true raws.sum = ⌈(raws.map (· * 100)).sum⌉ / 100 := by
  rw [List.sum_map_mul_right, List.map_id', roundFee, if_pos rfl]

theorem pieceLaws_quadratic (rate : ℚ) (roundUpToCent : Bool) (hSome : pieces ≠ []) :
    PieceLaws roundUpToCent (quadraticFee rate roundUpToCent) pieces where
  roundedUp := by
    rintro rfl
    rw [fee_joined, fee_pieces, roundFee_up_sum, sum_roundFee_up, ← add_div]
    have hRaws : ((pieces.map fun piece => rate * piece.basis).map (· * 100)) ≠ [] := by
      simpa using hSome
    have hLower := ceil_sum_le ((pieces.map fun piece => rate * piece.basis).map (· * 100))
    have hUpper := sum_ceil_le hRaws
    rw [List.length_map, List.length_map] at hUpper
    constructor
    · exact div_le_div_of_nonneg_right (by exact_mod_cast hLower) (by norm_num)
    · exact div_le_div_of_nonneg_right (by exact_mod_cast hUpper) (by norm_num)
  rounded := by
    rintro rfl
    rw [fee_joined, fee_pieces]
    have hClose := abs_sum_sub_round_le abs_roundFee_sub_le
      (pieces.map fun piece => rate * piece.basis)
    rw [List.length_map] at hClose
    exact hClose.trans_eq (by ring)

end Pieces

/-- For the taker and for the maker, with whatever rate: a fill in pieces costs on Kalshi no less
than one fill of the same levels and at most a cent more for each piece but the first, and elsewhere
as much up to half a unit of the fifth decimal for each rounding. -/
theorem fee_of_pieces (model : TakerFeeModel) {pieces : List Fill} (hSome : pieces ≠ []) :
    PieceLaws model.roundUpToCent model.feeDollarsFromBasis pieces ∧
      PieceLaws model.roundUpToCent model.makerFeeDollarsFromBasis pieces :=
  ⟨pieceLaws_quadratic model.rate model.roundUpToCent hSome,
    pieceLaws_quadratic model.makerRate model.roundUpToCent hSome⟩

/-- One contract at two cents. -/
def longShot : Fill where
  levels := [⟨2 / 100, 1⟩]
  priced := by decide +kernel
  sized := by decide +kernel

def gameModel : TakerFeeModel := ⟨.kalshi, 7 / 100, true, "GET /series/KXNFLGAME", 175 / 10000⟩

theorem fee_of_pieces_longShots :
    PieceLaws true gameModel.feeDollarsFromBasis [longShot, longShot, longShot] ∧
      PieceLaws true gameModel.makerFeeDollarsFromBasis [longShot, longShot, longShot] :=
  fee_of_pieces gameModel (List.cons_ne_nil _ _)

-- three cents for the three pieces, one cent for the three contracts at once
example : gameModel.feeDollarsFromBasis longShot.basis = 1 / 100 ∧
    gameModel.feeDollarsFromBasis (Fill.joined [longShot, longShot, longShot]).basis = 1 / 100 := by
  decide +kernel

end KalshiBot.CrossVenue

import KalshiBot.CrossVenue.Markets
import Mathlib.Data.Int.ConditionallyCompleteOrder
import Mathlib.Order.Interval.Set.Basic
import Mathlib.Order.Max

/-! # Equivalent thresholds

A one-sided threshold on the tick grid is a half-line of ticks, and two thresholds make the same
claim exactly when they point the same way and end at the same tick. `thresholds_equivalent` is
compared with that.
-/

namespace KalshiBot.CrossVenue

set_option autoImplicit false

inductive Bound where
  | greater
  | greaterEqual
  | less
  | lessEqual
deriving DecidableEq

def tick : ℚ := 1 / 100

/-- The level that is this many ticks above zero. -/
def onGrid (ticks : ℤ) : ℚ := ticks * tick

namespace Bound

def comparator : Bound → Comparator
  | greater => .greater
  | greaterEqual => .greaterEqual
  | less => .less
  | lessEqual => .lessEqual

def direction : Bound → Direction
  | greater | greaterEqual => .up
  | less | lessEqual => .down

def Satisfied (level value : ℚ) : Bound → Prop
  | greater => level < value
  | greaterEqual => level ≤ value
  | less => value < level
  | lessEqual => value ≤ level

/-- The outermost tick of the claim, the least one upwards and the greatest one downwards. -/
def cut (level : ℤ) : Bound → ℤ
  | greater => level + 1
  | greaterEqual | lessEqual => level
  | less => level - 1

def halfLine (level : ℤ) (bound : Bound) : Set ℤ :=
  match bound.direction with
  | .up => Set.Ici (bound.cut level)
  | .down => Set.Iic (bound.cut level)

end Bound

def SameClaim (left : Bound) (leftLevel : ℤ) (right : Bound) (rightLevel : ℤ) : Prop :=
  ∀ value : ℤ, left.Satisfied (onGrid leftLevel) (onGrid value) ↔
    right.Satisfied (onGrid rightLevel) (onGrid value)

theorem onGrid_lt {a b : ℤ} : onGrid a < onGrid b ↔ a < b := by
  rw [onGrid, onGrid, tick]
  constructor
  · intro h
    exact_mod_cast (by linarith : (a : ℚ) < b)
  · intro h
    have : (a : ℚ) < b := by exact_mod_cast h
    linarith

theorem onGrid_le {a b : ℤ} : onGrid a ≤ onGrid b ↔ a ≤ b := by
  rw [← not_lt, ← not_lt, onGrid_lt]

theorem onGrid_inj {a b : ℤ} : onGrid a = onGrid b ↔ a = b := by
  rw [le_antisymm_iff, onGrid_le, onGrid_le, ← le_antisymm_iff]

theorem satisfied_iff (bound : Bound) (level value : ℤ) :
    bound.Satisfied (onGrid level) (onGrid value) ↔ value ∈ bound.halfLine level := by
  cases bound with
  | greater => exact onGrid_lt
  | greaterEqual => exact onGrid_le
  | less => exact onGrid_lt.trans Int.le_sub_one_iff.symm
  | lessEqual => exact onGrid_le

theorem ici_ne_iic (a b : ℤ) : Set.Ici a ≠ Set.Iic b := by
  intro h
  have hAbove : max a (b + 1) ∈ Set.Iic b := h ▸ Set.mem_Ici.mpr (le_max_left _ _)
  have := Set.mem_Iic.mp hAbove
  omega

theorem sameClaim_iff (left : Bound) (leftLevel : ℤ) (right : Bound) (rightLevel : ℤ) :
    SameClaim left leftLevel right rightLevel ↔
      left.direction = right.direction ∧ left.cut leftLevel = right.cut rightLevel := by
  have hSets : SameClaim left leftLevel right rightLevel ↔
      left.halfLine leftLevel = right.halfLine rightLevel := by
    rw [Set.ext_iff]
    exact forall_congr' fun value => by rw [satisfied_iff, satisfied_iff]
  rw [hSets, Bound.halfLine, Bound.halfLine]
  cases left.direction with
  | up =>
    cases right.direction with
    | up => simp [Set.Ici_inj]
    | down => exact iff_of_false (ici_ne_iic _ _) nofun
  | down =>
    cases right.direction with
    | up => exact iff_of_false (ici_ne_iic _ _).symm nofun
    | down => simp [Set.Iic_inj]

/-- The levels differ by at most one part in a billion. -/
def NearlyEqual (a b : ℤ) : Prop := |b - a| * 10 ^ 9 ≤ max |a| |b|

instance (a b : ℤ) : Decidable (NearlyEqual a b) := inferInstanceAs (Decidable (_ ≤ _))

theorem abs_onGrid (ticks : ℤ) : |onGrid ticks| = (|ticks| : ℤ) / 100 := by
  rw [onGrid, tick, abs_mul, Int.cast_abs]
  norm_num
  ring

theorem onGrid_sub (a b : ℤ) : onGrid a - onGrid b = onGrid (a - b) := by
  simp only [onGrid]
  push_cast
  ring

theorem isClose_levels (a b : ℤ) :
    isClose (onGrid a) (onGrid b) (1 / 10 ^ 9) (1 / 10 ^ 9) = true ↔ NearlyEqual a b := by
  have hRel : ∀ c : ℤ, |onGrid b - onGrid a| ≤ |1 / 10 ^ 9 * onGrid c| ↔ |b - a| * 10 ^ 9 ≤ |c| := by
    intro c
    rw [onGrid_sub, abs_mul, abs_onGrid, abs_onGrid]
    rw [← Int.cast_le (R := ℚ)]
    push_cast
    rw [abs_of_nonneg (by norm_num : (0 : ℚ) ≤ 1 / 10 ^ 9)]
    constructor <;> intro h <;> linarith
  have hAbs : |onGrid b - onGrid a| ≤ 1 / 10 ^ 9 ↔ a = b := by
    rw [onGrid_sub, abs_onGrid]
    constructor
    · intro h
      have hSmall : |b - a| < 1 := by
        have : ((|b - a| : ℤ) : ℚ) < 1 := by linarith
        exact_mod_cast this
      have := abs_eq_zero.mp (le_antisymm (Int.lt_add_one_iff.mp hSmall) (abs_nonneg _))
      omega
    · rintro rfl
      norm_num
  rw [isClose, decide_eq_true_eq, onGrid_inj, hRel, hRel, hAbs, NearlyEqual, le_max_iff]
  constructor
  · rintro (rfl | hRight | hLeft | rfl)
    · simp
    · exact .inr hRight
    · exact .inl hLeft
    · simp
  · rintro (hLeft | hRight)
    · exact .inr (.inr (.inl hLeft))
    · exact .inr (.inl hRight)

/-- The tolerances of the second comparison admit one tick and no other number of ticks. -/
theorem isClose_gap (gap : ℤ) :
    isClose (onGrid gap) tick (1 / 10 ^ 6) (tick / 100) = true ↔ gap = 1 := by
  have hTick : tick = onGrid 1 := by simp [onGrid]
  rw [isClose, decide_eq_true_eq]
  constructor
  · intro h
    by_contra hGap
    have hApart : 1 ≤ |1 - gap| := Int.one_le_abs (sub_ne_zero.mpr (Ne.symm hGap))
    have hApartQ : (1 : ℚ) ≤ ((|1 - gap| : ℤ) : ℚ) := by exact_mod_cast hApart
    have hSize : ((|gap| : ℤ) : ℚ) ≤ ((|1 - gap| : ℤ) : ℚ) + 1 := by
      have : |gap| ≤ |1 - gap| + 1 := by
        have := abs_sub_abs_le_abs_sub gap 1
        rw [abs_one, abs_sub_comm] at this
        omega
      exact_mod_cast this
    rw [hTick, onGrid_inj, onGrid_sub, abs_mul, abs_mul, abs_onGrid, abs_onGrid, abs_onGrid,
      abs_of_nonneg (by norm_num : (0 : ℚ) ≤ 1 / 10 ^ 6)] at h
    obtain rfl | hTickRel | hGapRel | hSmall := h
    · exact hGap rfl
    · rw [abs_one, Int.cast_one] at hTickRel
      linarith
    · linarith
    · have hOne : onGrid 1 = 1 / 100 := by norm_num [onGrid, tick]
      rw [hOne] at hSmall
      linarith
  · rintro rfl
    exact .inl hTick.symm

theorem isClose_gap_sub (a b : ℤ) :
    isClose (onGrid b - onGrid a) tick (1 / 10 ^ 6) (tick / 100) = true ↔ b = a + 1 := by
  rw [onGrid_sub, isClose_gap]
  omega

theorem nearlyEqual_self (a : ℤ) : NearlyEqual a a := by
  simp [NearlyEqual]

theorem sameDirection_value (bound : Bound) :
    sameDirection bound.comparator.value = some bound.direction := by
  cases bound <;> rfl

theorem value_inj {left right : Bound} :
    left.comparator.value = right.comparator.value ↔ left = right := by
  cases left <;> cases right <;> decide

/-- The last comparison of the source, between bounds of one direction whose levels are apart. -/
def bridges (left : Bound) (a : ℤ) (right : Bound) (b : ℤ) : Bool :=
  match left, right with
  | .greater, .greaterEqual | .lessEqual, .less =>
    isClose (onGrid b - onGrid a) tick (1 / 10 ^ 6) (tick / 100)
  | .greaterEqual, .greater | .less, .lessEqual =>
    isClose (-(onGrid b - onGrid a)) tick (1 / 10 ^ 6) (tick / 100)
  | _, _ => false

theorem thresholdsEquivalent_eq (left : Bound) (a : ℤ) (right : Bound) (b : ℤ) :
    thresholdsEquivalent left.comparator.value (onGrid a) right.comparator.value (onGrid b) tick =
      if left.direction ≠ right.direction then false
      else if NearlyEqual a b then left = right
      else bridges left a right b := by
  simp only [thresholdsEquivalent, sameDirection_value, isClose_levels, value_inj]
  cases left <;> cases right <;> rfl

theorem bridges_iff {left right : Bound} (hDirection : left.direction = right.direction) {a b : ℤ}
    (hApart : a ≠ b) : bridges left a right b = true ↔ left.cut a = right.cut b := by
  cases left <;> cases right <;> try cases hDirection
  all_goals simp only [bridges, Bound.cut, neg_sub, isClose_gap_sub, Bool.false_eq_true, false_iff]
  all_goals omega

/-- The check follows the half-lines as long as the levels are not nearly equal; where they are,
it only compares the comparators. -/
theorem thresholdsEquivalent_iff (left : Bound) (a : ℤ) (right : Bound) (b : ℤ) :
    thresholdsEquivalent left.comparator.value (onGrid a) right.comparator.value (onGrid b) tick = true ↔
      left.direction = right.direction ∧
        if NearlyEqual a b then left = right else left.cut a = right.cut b := by
  rw [thresholdsEquivalent_eq]
  split
  next hDirection => exact iff_of_false Bool.false_ne_true fun h => hDirection h.1
  next hDirection =>
    rw [and_iff_right (not_not.mp hDirection)]
    split
    · exact decide_eq_true_iff
    next hApart =>
      refine bridges_iff (not_not.mp hDirection) ?_
      rintro rfl
      exact hApart (nearlyEqual_self a)

/-- The strict bound of one direction, one tick outside the weak one. -/
def OneTick : Bound → ℤ → Bound → ℤ → Prop
  | .greater, a, .greaterEqual, b => b = a + 1
  | .greaterEqual, a, .greater, b => a = b + 1
  | .less, a, .lessEqual, b => a = b + 1
  | .lessEqual, a, .less, b => b = a + 1
  | _, _, _, _ => False

/-- Unequal levels of one direction within the relative tolerance, of the same comparator or one
tick apart. -/
structure Blurred (left : Bound) (a : ℤ) (right : Bound) (b : ℤ) : Prop where
  apart : a ≠ b
  near : NearlyEqual a b
  direction : left.direction = right.direction
  claims : left = right ∨ OneTick left a right b

theorem oneTick_iff {left right : Bound} (hDirection : left.direction = right.direction) {a b : ℤ}
    (hApart : a ≠ b) : OneTick left a right b ↔ left.cut a = right.cut b := by
  cases left <;> cases right <;> try cases hDirection
  all_goals simp only [OneTick, Bound.cut, false_iff]
  all_goals omega

theorem eq_of_cut {left right : Bound} (hDirection : left.direction = right.direction) {a : ℤ}
    (h : left.cut a = right.cut a) : left = right := by
  cases left <;> cases right <;> try cases hDirection
  all_goals simp only [Bound.cut] at h
  all_goals first | rfl | omega

theorem equivalent_iff_sameClaim (left : Bound) (a : ℤ) (right : Bound) (b : ℤ) :
    (thresholdsEquivalent left.comparator.value (onGrid a) right.comparator.value (onGrid b) tick = true ↔
      SameClaim left a right b) ↔ ¬Blurred left a right b := by
  rw [thresholdsEquivalent_iff, sameClaim_iff]
  constructor
  · intro h hBlurred
    have hCut := oneTick_iff hBlurred.direction hBlurred.apart
    simp only [hBlurred.direction, hBlurred.near, true_and, if_true] at h
    obtain hSame | hTick := hBlurred.claims
    · have hCuts := h.mp hSame
      rw [hSame] at hCuts
      have := hBlurred.apart
      cases right <;> simp only [Bound.cut] at hCuts <;> omega
    · rw [h.mpr (hCut.mp hTick)] at hTick
      cases right <;> exact hTick
  · intro hClear
    refine and_congr_right fun hDirection => ?_
    split
    next hNear =>
      obtain rfl | hApart := eq_or_ne a b
      · constructor
        · rintro rfl
          rfl
        · exact eq_of_cut hDirection
      · have hNot : ¬(left = right ∨ OneTick left a right b) :=
          fun hClaims => hClear ⟨hApart, hNear, hDirection, hClaims⟩
        rw [oneTick_iff hDirection hApart] at hNot
        exact iff_of_false (fun h => hNot (.inl h)) fun h => hNot (.inr h)
    · exact Iff.rfl

/-- Below ten million the tolerance is smaller than a tick. -/
theorem equivalent_below_ten_million (left : Bound) {a : ℤ} (right : Bound) {b : ℤ}
    (ha : |a| < 10 ^ 9) (hb : |b| < 10 ^ 9) :
    thresholdsEquivalent left.comparator.value (onGrid a) right.comparator.value (onGrid b) tick = true ↔
      SameClaim left a right b := by
  refine (equivalent_iff_sameClaim left a right b).mpr fun hBlurred => ?_
  have hApart : 1 ≤ |b - a| := Int.one_le_abs (sub_ne_zero.mpr hBlurred.apart.symm)
  have hNear := hBlurred.near
  rw [NearlyEqual] at hNear
  omega

/-- Above 10000000 and above 10000000.01, which are two claims; above 10000000 and at least
10000000.01, which are one. -/
theorem ten_million_blurred :
    (thresholdsEquivalent "greater" (onGrid 1000000000) "greater" (onGrid 1000000001) tick = true ∧
      ¬SameClaim .greater 1000000000 .greater 1000000001) ∧
    (thresholdsEquivalent "greater" (onGrid 1000000000) "greater_equal" (onGrid 1000000001) tick = false ∧
      SameClaim .greater 1000000000 .greaterEqual 1000000001) := by
  rw [sameClaim_iff, sameClaim_iff]
  decide +kernel

end KalshiBot.CrossVenue

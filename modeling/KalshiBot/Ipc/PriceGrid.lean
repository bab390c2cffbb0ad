import KalshiBot.Ipc.ExecutorServer
import KalshiBot.Library.DecimalText

/-! # The price grid

A market lists its grid as ranges of prices, each with a step. Where two ranges meet, they meet
in an end point of both, so that whichever is listed first owns it without consequence.
-/

namespace KalshiBot.Ipc

open PythonText

set_option autoImplicit false

/-- One entry of `price_ranges`; both ends are on its own grid. -/
structure PriceRange where
  start : ℚ
  stop : ℚ
  step : ℚ
  step_pos : 0 < step
  start_onGrid : ∃ k : ℤ, start = k * step
  stop_onGrid : ∃ k : ℤ, stop = k * step

namespace PriceRange

def wire (range : PriceRange) : List ℚ := [range.start, range.stop, range.step]

def Contains (range : PriceRange) (price : ℚ) : Prop := range.start ≤ price ∧ price ≤ range.stop

instance (range : PriceRange) (price : ℚ) : Decidable (range.Contains price) :=
  inferInstanceAs (Decidable (_ ∧ _))

def EndsAt (range : PriceRange) (price : ℚ) : Prop := price = range.start ∨ price = range.stop

/-- Two ranges have a price in common only where both end. -/
def MeetAtEnds (a b : PriceRange) : Prop :=
  ∀ price, a.Contains price → b.Contains price → a.EndsAt price ∧ b.EndsAt price

theorem MeetAtEnds.symm {a b : PriceRange} (h : MeetAtEnds a b) : MeetAtEnds b a :=
  fun price hB hA => (h price hA hB).symm

instance : Std.Symm MeetAtEnds := ⟨fun _ _ h => h.symm⟩

variable {range : PriceRange} {price : ℚ}

theorem EndsAt.onGrid (h : range.EndsAt price) : ∃ k : ℤ, price = k * range.step := by
  obtain rfl | rfl := h
  · exact range.start_onGrid
  · exact range.stop_onGrid

theorem toStep_onGrid (h : ∃ k : ℤ, price = k * range.step) : toStep price range.step = price := by
  obtain ⟨k, rfl⟩ := h
  rw [toStep, mul_div_cancel_right₀ _ range.step_pos.ne', roundHalfEven_intCast]

theorem toStep_mono (range : PriceRange) {p q : ℚ} (h : p ≤ q) :
    toStep p range.step ≤ toStep q range.step := by
  have hRound := roundHalfEven_mono (div_le_div_of_nonneg_right h range.step_pos.le)
  exact mul_le_mul_of_nonneg_right (Int.cast_le.mpr hRound) range.step_pos.le

/-- The ends stay where they are, and rounding is monotone. -/
theorem contains_toStep (h : range.Contains price) : range.Contains (toStep price range.step) := by
  constructor
  · rw [← toStep_onGrid range.start_onGrid]
    exact range.toStep_mono h.1
  · rw [← toStep_onGrid range.stop_onGrid]
    exact range.toStep_mono h.2

theorem abs_toStep_sub_le (range : PriceRange) (price : ℚ) :
    |toStep price range.step - price| ≤ range.step / 2 := by
  have hStep := range.step_pos
  have hNear := abs_sub_roundHalfEven_le (price / range.step)
  have hScaled : toStep price range.step - price =
      -((price / range.step - roundHalfEven (price / range.step)) * range.step) := by
    rw [toStep, sub_mul, div_mul_cancel₀ _ hStep.ne']
    ring
  rw [hScaled, abs_neg, abs_mul, abs_of_pos hStep]
  calc |price / range.step - roundHalfEven (price / range.step)| * range.step
      ≤ 1 / 2 * range.step := mul_le_mul_of_nonneg_right hNear hStep.le
    _ = range.step / 2 := by ring

theorem MeetAtEnds.not_inside {a b : PriceRange} (h : MeetAtEnds a b) {x : ℚ} (ha : a.Contains x)
    (hb : b.Contains x) : ¬(a.start < x ∧ x < a.stop) := by
  rintro ⟨hStart, hStop⟩
  obtain hEnd | hEnd := (h x ha hb).1
  · exact hStart.ne' hEnd
  · exact hStop.ne hEnd

/-- A price of one range below a price of another: so are all the others of the two. -/
theorem MeetAtEnds.stop_le_start {a b : PriceRange} (h : MeetAtEnds a b) {p q : ℚ}
    (hp : a.Contains p) (hq : b.Contains q) (hLess : p < q) : a.stop ≤ b.start := by
  by_contra hNot
  have hOverlap : b.start < a.stop := not_le.mp hNot
  obtain hLast | hInside := hp.2.eq_or_lt
  · have hStart : b.start < p := hLast ▸ hOverlap
    have hStop : p < b.stop := hLess.trans_le hq.2
    exact h.symm.not_inside ⟨hStart.le, hStop.le⟩ hp ⟨hStart, hStop⟩
  obtain hFirst | hInside' := hq.1.eq_or_lt
  · have hStart : a.start < q := hp.1.trans_lt hLess
    have hStop : q < a.stop := hFirst ▸ hOverlap
    exact h.not_inside ⟨hStart.le, hStop.le⟩ hq ⟨hStart, hStop⟩
  obtain ⟨x, hLow, hHigh⟩ : ∃ x, max p b.start < x ∧ x < min q a.stop :=
    exists_between (max_lt (lt_min hLess hInside) (lt_min hInside' hOverlap))
  obtain ⟨hpx, hbx⟩ := max_lt_iff.mp hLow
  obtain ⟨hxq, hxa⟩ := lt_min_iff.mp hHigh
  have hStart : a.start < x := hp.1.trans_lt hpx
  exact h.not_inside ⟨hStart.le, hxa.le⟩ ⟨hbx.le, hxq.le.trans hq.2⟩ ⟨hStart, hxa⟩

end PriceRange

section Grid

variable {grid : List PriceRange} {price : ℚ} {range : PriceRange}

theorem snapToGrid_of_find (h : grid.find? (fun range => range.Contains price) = some range) :
    snapToGrid price (grid.map PriceRange.wire) = some (toStep price range.step) := by
  induction grid with
  | nil => cases h
  | cons head rest ih =>
    rw [List.map_cons, PriceRange.wire, snapToGrid]
    by_cases hHere : head.Contains price
    · rw [List.find?_cons_of_pos (by simpa using hHere)] at h
      cases h
      exact if_pos ⟨range.step_pos, hHere⟩
    · rw [List.find?_cons_of_neg (by simpa using hHere)] at h
      rw [if_neg fun hBoth => hHere hBoth.2]
      exact ih h

theorem find_contains (h : grid.find? (fun range => range.Contains price) = some range) :
    range ∈ grid ∧ range.Contains price :=
  ⟨List.mem_of_find?_eq_some h, by simpa using List.find?_some h⟩

theorem meet_of_ne (hGrid : grid.Pairwise PriceRange.MeetAtEnds) {a b : PriceRange} (ha : a ∈ grid)
    (hb : b ∈ grid) (hNe : a ≠ b) : PriceRange.MeetAtEnds a b :=
  hGrid.forall ha hb hNe

/-- What is snapped may be owned by another range than the price, but then it is an end of both. -/
theorem snapToGrid_toStep (hGrid : grid.Pairwise PriceRange.MeetAtEnds)
    (h : grid.find? (fun range => range.Contains price) = some range) :
    snapToGrid (toStep price range.step) (grid.map PriceRange.wire) =
      some (toStep price range.step) := by
  obtain ⟨hMem, hContains⟩ := find_contains h
  have hSnapped := PriceRange.contains_toStep hContains
  obtain ⟨owner, hOwner⟩ : ∃ owner, grid.find?
      (fun range' => range'.Contains (toStep price range.step)) = some owner :=
    Option.isSome_iff_exists.mp (List.find?_isSome.mpr ⟨range, hMem, by simpa using hSnapped⟩)
  obtain ⟨hOwnerMem, hOwnerContains⟩ := find_contains hOwner
  rw [snapToGrid_of_find hOwner, PriceRange.toStep_onGrid]
  by_cases hSame : range = owner
  · exact hSame ▸ ⟨_, rfl⟩
  · exact (meet_of_ne hGrid hMem hOwnerMem hSame _ hSnapped hOwnerContains).2.onGrid

theorem toStep_le_toStep (hGrid : grid.Pairwise PriceRange.MeetAtEnds) {p q : ℚ} (hle : p ≤ q)
    {a b : PriceRange} (ha : grid.find? (fun range => range.Contains p) = some a)
    (hb : grid.find? (fun range => range.Contains q) = some b) :
    toStep p a.step ≤ toStep q b.step := by
  obtain ⟨haMem, haContains⟩ := find_contains ha
  obtain ⟨hbMem, hbContains⟩ := find_contains hb
  by_cases hSame : a = b
  · exact hSame ▸ a.toStep_mono hle
  · have hLess : p < q := by
      refine lt_of_le_of_ne hle ?_
      rintro rfl
      exact hSame (Option.some.inj (ha.symm.trans hb))
    calc toStep p a.step
        ≤ a.stop := (PriceRange.contains_toStep haContains).2
      _ ≤ b.start := (meet_of_ne hGrid haMem hbMem hSame).stop_le_start haContains hbContains hLess
      _ ≤ toStep q b.step := (PriceRange.contains_toStep hbContains).1

/-- Snapping is a monotone projection onto the grid. -/
theorem snapToGrid_projects (grid : List PriceRange) (hGrid : grid.Pairwise PriceRange.MeetAtEnds) :
    (∀ price, (∃ range ∈ grid, range.Contains price) → ∃ range snapped,
      grid.find? (fun range => range.Contains price) = some range ∧
      snapToGrid price (grid.map PriceRange.wire) = some snapped ∧
      (∃ k : ℤ, snapped = k * range.step) ∧ range.Contains snapped ∧
      |snapped - price| ≤ range.step / 2 ∧
      snapToGrid snapped (grid.map PriceRange.wire) = some snapped) ∧
    (∀ p q, (∃ range ∈ grid, range.Contains p) → (∃ range ∈ grid, range.Contains q) → p ≤ q →
      ∃ lower upper, snapToGrid p (grid.map PriceRange.wire) = some lower ∧
        snapToGrid q (grid.map PriceRange.wire) = some upper ∧ lower ≤ upper) := by
  have hFound : ∀ price, (∃ range ∈ grid, range.Contains price) →
      ∃ range, grid.find? (fun range => range.Contains price) = some range := by
    rintro price ⟨range, hMem, hContains⟩
    exact Option.isSome_iff_exists.mp
      (List.find?_isSome.mpr ⟨range, hMem, by simpa using hContains⟩)
  constructor
  · intro price hInside
    obtain ⟨range, hFind⟩ := hFound price hInside
    refine ⟨range, toStep price range.step, hFind, snapToGrid_of_find hFind, ⟨_, rfl⟩, ?_, ?_, ?_⟩
    · exact PriceRange.contains_toStep (find_contains hFind).2
    · exact range.abs_toStep_sub_le price
    · exact snapToGrid_toStep hGrid hFind
  · intro p q hp hq hle
    obtain ⟨a, ha⟩ := hFound p hp
    obtain ⟨b, hb⟩ := hFound q hq
    exact ⟨_, _, snapToGrid_of_find ha, snapToGrid_of_find hb, toStep_le_toStep hGrid hle ha hb⟩

end Grid

/-- Finer in the tails. -/
def taperedGrid : List PriceRange :=
  [⟨0, 1 / 10, 1 / 1000, by norm_num, ⟨0, by norm_num⟩, ⟨100, by norm_num⟩⟩,
    ⟨1 / 10, 9 / 10, 1 / 100, by norm_num, ⟨10, by norm_num⟩, ⟨90, by norm_num⟩⟩,
    ⟨9 / 10, 1, 1 / 1000, by norm_num, ⟨900, by norm_num⟩, ⟨1000, by norm_num⟩⟩]

theorem taperedGrid_meets : taperedGrid.Pairwise PriceRange.MeetAtEnds := by
  simp only [taperedGrid, List.pairwise_cons, List.mem_cons, forall_eq_or_imp,
    List.not_mem_nil, IsEmpty.forall_iff, implies_true, and_true, List.Pairwise.nil,
    PriceRange.MeetAtEnds, PriceRange.Contains, PriceRange.EndsAt]
  refine ⟨⟨?_, ?_⟩, ?_⟩
  · rintro price ⟨-, hStop⟩ ⟨hStart, -⟩
    exact ⟨.inr (le_antisymm hStop hStart), .inl (le_antisymm hStop hStart)⟩
  · rintro price ⟨-, hStop⟩ ⟨hStart, -⟩
    linarith
  · rintro price ⟨-, hStop⟩ ⟨hStart, -⟩
    exact ⟨.inr (le_antisymm hStop hStart), .inl (le_antisymm hStop hStart)⟩

theorem snapToGrid_projects_tapered :
    (∀ price, (∃ range ∈ taperedGrid, range.Contains price) → ∃ range snapped,
      taperedGrid.find? (fun range => range.Contains price) = some range ∧
      snapToGrid price (taperedGrid.map PriceRange.wire) = some snapped ∧
      (∃ k : ℤ, snapped = k * range.step) ∧ range.Contains snapped ∧
      |snapped - price| ≤ range.step / 2 ∧
      snapToGrid snapped (taperedGrid.map PriceRange.wire) = some snapped) ∧
    (∀ p q, (∃ range ∈ taperedGrid, range.Contains p) →
      (∃ range ∈ taperedGrid, range.Contains q) → p ≤ q →
      ∃ lower upper, snapToGrid p (taperedGrid.map PriceRange.wire) = some lower ∧
        snapToGrid q (taperedGrid.map PriceRange.wire) = some upper ∧ lower ≤ upper) :=
  snapToGrid_projects taperedGrid taperedGrid_meets

example : snapToGrid (4237 / 10000) (taperedGrid.map PriceRange.wire) = some (42 / 100) := by
  decide +kernel

end KalshiBot.Ipc

import KalshiBot.CrossVenue.Markets
import KalshiBot.Library.StableSort

/-! # Ladders of the opposite side

The asks of one outcome from the resting bids of the other.
-/

namespace KalshiBot.CrossVenue

open StableSort

set_option autoImplicit false

def sortedLevels (levels : List BookLevel) (ascending : Bool) : List BookLevel :=
  if ascending then sortBy BookLevel.priceDollars levels
  else sortBy (OrderDual.toDual ∘ BookLevel.priceDollars) levels

def complementLadder (bids : List BookLevel) : List BookLevel :=
  let takeable := bids.filter fun level => 0 < 1 - level.priceDollars ∧ 1 - level.priceDollars < 1
  sortedLevels (takeable.map BookLevel.complement) true

namespace BookLevel

def Takeable (level : BookLevel) : Prop := 0 < level.priceDollars ∧ level.priceDollars < 1

instance (level : BookLevel) : Decidable level.Takeable := inferInstanceAs (Decidable (_ ∧ _))

@[simp] theorem priceDollars_complement (level : BookLevel) :
    level.complement.priceDollars = 1 - level.priceDollars := rfl

@[simp] theorem complement_complement (level : BookLevel) : level.complement.complement = level := by
  rw [complement, priceDollars_complement, sub_sub_cancel]
  rfl

theorem takeable_complement {level : BookLevel} : level.complement.Takeable ↔ level.Takeable := by
  rw [Takeable, Takeable, priceDollars_complement, sub_pos, sub_lt_self_iff]
  exact and_comm

end BookLevel

variable {bids : List BookLevel}

/-- The levels that survive, with their prices turned around. -/
theorem complementLadder_eq (bids : List BookLevel) :
    complementLadder bids = sortBy BookLevel.priceDollars
      ((bids.filter fun level => level.Takeable).map BookLevel.complement) := by
  have hSame : (fun level : BookLevel =>
      decide (0 < 1 - level.priceDollars ∧ 1 - level.priceDollars < 1)) =
        fun level => decide level.Takeable := by
    funext level
    exact decide_eq_decide.mpr BookLevel.takeable_complement
  rw [complementLadder, hSame]
  exact if_pos rfl

theorem filter_takeable (hTakeable : ∀ level ∈ bids, level.Takeable) :
    (bids.filter fun level => level.Takeable) = bids :=
  List.filter_eq_self.mpr fun level hMem => decide_eq_true (hTakeable level hMem)

theorem complementLadder_perm (bids : List BookLevel) :
    (complementLadder bids).Perm
      ((bids.filter fun level => level.Takeable).map BookLevel.complement) := by
  rw [complementLadder_eq]
  exact sortBy_perm _

theorem complementLadder_pairwise (bids : List BookLevel) :
    (complementLadder bids).Pairwise fun a b => a.priceDollars ≤ b.priceDollars := by
  rw [complementLadder_eq]
  exact sortBy_pairwise _

theorem takeable_of_mem_complementLadder {level : BookLevel} (h : level ∈ complementLadder bids) :
    level.Takeable := by
  obtain ⟨bid, hBid, rfl⟩ := List.mem_map.mp ((complementLadder_perm bids).mem_iff.mp h)
  exact BookLevel.takeable_complement.mpr (of_decide_eq_true (List.mem_filter.mp hBid).2)

theorem ties_complement (price : ℚ) (levels : List BookLevel) :
    ties BookLevel.priceDollars price (levels.map BookLevel.complement) =
      (ties BookLevel.priceDollars (1 - price) levels).map BookLevel.complement := by
  have hKey : ∀ level : BookLevel,
      1 - level.priceDollars = price ↔ level.priceDollars = 1 - price := by
    intro level
    constructor
    · rintro rfl
      rw [sub_sub_cancel]
    · intro hPrice
      rw [hPrice, sub_sub_cancel]
  rw [ties, List.filter_map]
  refine congrArg (List.map BookLevel.complement) (List.filter_congr fun level _ => ?_)
  exact decide_eq_decide.mpr (hKey level)

theorem complementLadder_twice (hTakeable : ∀ level ∈ bids, level.Takeable) :
    complementLadder (complementLadder bids) = sortedLevels bids true := by
  have hAsks : (complementLadder bids).filter (fun level => level.Takeable) = complementLadder bids :=
    filter_takeable fun level hMem => takeable_of_mem_complementLadder hMem
  refine eq_sortBy (complementLadder_pairwise _) fun price => ?_
  calc ties BookLevel.priceDollars price (complementLadder (complementLadder bids))
      = ties BookLevel.priceDollars price
          ((complementLadder bids).map BookLevel.complement) := by
        rw [complementLadder_eq (complementLadder bids), ties_sortBy, hAsks]
    _ = (ties BookLevel.priceDollars (1 - price) (complementLadder bids)).map
          BookLevel.complement := ties_complement price _
    _ = (ties BookLevel.priceDollars (1 - price) (bids.map BookLevel.complement)).map
          BookLevel.complement := by
        rw [complementLadder_eq, filter_takeable hTakeable, ties_sortBy]
    _ = ties BookLevel.priceDollars price bids := by
        rw [ties_complement, sub_sub_cancel, List.map_map]
        exact (List.map_congr_left fun level _ => level.complement_complement).trans
          (List.map_id' _)

theorem sizes_complementLadder (bids : List BookLevel) :
    ((complementLadder bids).map BookLevel.sizeContracts).Perm
      ((bids.filter fun level => level.Takeable).map BookLevel.sizeContracts) := by
  have hSizes := (complementLadder_perm bids).map BookLevel.sizeContracts
  rwa [List.map_map] at hSizes

/-- The cheapest ask stands against the highest bid. -/
theorem bestAsk_complementLadder (hTakeable : ∀ level ∈ bids, level.Takeable) {highest : ℚ}
    (hMem : highest ∈ bids.map BookLevel.priceDollars)
    (hHighest : ∀ level ∈ bids, level.priceDollars ≤ highest) :
    OutcomeBook.bestAsk { asks := complementLadder bids } = some (1 - highest) := by
  obtain ⟨bid, hBid, rfl⟩ := List.mem_map.mp hMem
  have hPerm := complementLadder_perm bids
  rw [filter_takeable hTakeable] at hPerm
  have hAsk : bid.complement ∈ complementLadder bids :=
    hPerm.mem_iff.mpr (List.mem_map_of_mem hBid)
  have hSorted := complementLadder_pairwise bids
  cases hAsks : complementLadder bids with
  | nil =>
    rw [hAsks] at hAsk
    cases hAsk
  | cons ask asks =>
    rw [hAsks] at hAsk hSorted hPerm
    obtain ⟨other, hOther, rfl⟩ := List.mem_map.mp (hPerm.mem_iff.mp List.mem_cons_self)
    have hLow : other.complement.priceDollars ≤ bid.complement.priceDollars := by
      obtain hHead | hLater := List.mem_cons.mp hAsk
      · rw [hHead]
      · exact (List.pairwise_cons.mp hSorted).1 _ hLater
    have hHigh := sub_le_sub_left (hHighest other hOther) 1
    exact congrArg some (le_antisymm hLow hHigh)

theorem askDepth_complementLadder (bids : List BookLevel) :
    OutcomeBook.askDepthContracts { asks := complementLadder bids } =
      ((bids.filter fun level => level.Takeable).map BookLevel.sizeContracts).sum :=
  (sizes_complementLadder bids).sum_eq

/-- In its third to fifth part, what sorting ascending by price with ties in their original order
is. -/
theorem complement_ladder_inverts (bids : List BookLevel) :
    ((∀ level ∈ bids, 0 < level.priceDollars ∧ level.priceDollars < 1) →
      complementLadder (complementLadder bids) = sortedLevels bids true ∧
      ((complementLadder bids).map BookLevel.sizeContracts).Perm
        (bids.map BookLevel.sizeContracts) ∧
      ∀ highest ∈ bids.map BookLevel.priceDollars,
        (∀ level ∈ bids, level.priceDollars ≤ highest) →
          OutcomeBook.bestAsk { asks := complementLadder bids } = some (1 - highest)) ∧
    (complementLadder bids).Pairwise (fun a b => a.priceDollars ≤ b.priceDollars) ∧
    (sortedLevels bids true).Perm bids ∧
    (sortedLevels bids true).Pairwise (fun a b => a.priceDollars ≤ b.priceDollars) ∧
    (∀ price, (sortedLevels bids true).filter (fun level => level.priceDollars = price) =
      bids.filter fun level => level.priceDollars = price) ∧
    (complementLadder bids).Perm
      ((bids.filter fun level => 0 < level.priceDollars ∧ level.priceDollars < 1).map
        BookLevel.complement) ∧
    OutcomeBook.askDepthContracts { asks := complementLadder bids } =
      ((bids.filter fun level => 0 < level.priceDollars ∧ level.priceDollars < 1).map
        BookLevel.sizeContracts).sum := by
  refine ⟨?_, complementLadder_pairwise bids, sortBy_perm bids, sortBy_pairwise bids,
    fun price => ties_sortBy price bids, complementLadder_perm bids, askDepth_complementLadder bids⟩
  intro hTakeable
  refine ⟨complementLadder_twice hTakeable, ?_, ?_⟩
  · have hSizes := sizes_complementLadder bids
    rwa [filter_takeable hTakeable] at hSizes
  · intro highest hMem hHighest
    exact bestAsk_complementLadder hTakeable hMem hHighest

/-- Two levels at forty cents, and one below them that arrived in between. -/
def tiedBids : List BookLevel := [⟨4 / 10, 7⟩, ⟨1 / 10, 5⟩, ⟨4 / 10, 3⟩]

theorem complement_ladder_inverts_tied :
    complementLadder (complementLadder tiedBids) = sortedLevels tiedBids true :=
  ((complement_ladder_inverts tiedBids).1 (by decide +kernel)).1

example : complementLadder (⟨0, 9⟩ :: tiedBids) =
    [⟨6 / 10, 7⟩, ⟨6 / 10, 3⟩, ⟨9 / 10, 5⟩] := by decide +kernel

end KalshiBot.CrossVenue

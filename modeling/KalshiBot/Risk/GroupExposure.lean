import KalshiBot.Library.Runs
import KalshiBot.Risk.Exposure
import KalshiBot.Risk.Groups

/-! # The exposure of a group

The baseline of a group is summed up when positions are reconciled, over the tickers whose
group is known by then. A ticker that becomes known later is missing from it.
-/

namespace KalshiBot.Risk

open PythonText RollingWindow Runs

set_option autoImplicit false

/-- The tickers that the map gives this group. -/
def RiskGate.tickersOf (g : RiskGate) (group : String) : Finset String :=
  {ticker ∈ g.correlationGroupByTicker.keys.toFinset | g.groupOf ticker = group}

def GroupsAddUp (g : RiskGate) : Prop :=
  ∀ group, group ≠ "" → ∀ nowMs,
    g.positionForGroup group nowMs = ∑ ticker ∈ g.tickersOf group, g.positionForTicker ticker nowMs

def firedTickers (rows : List RiskGate.FetchedOrder) (calls : List GateCall) : List String :=
  rows.map RiskGate.FetchedOrder.ticker ++ (attemptsOf calls).map WireAttempt.ticker

/-- Every ticker is fired with a group of its own, and filled only once it has been fired. -/
structure FixedGroups (groupFor : String → String) (rows : List RiskGate.FetchedOrder)
    (calls : List GateCall) : Prop where
  nonempty : ∀ ticker ∈ firedTickers rows calls, groupFor ticker ≠ ""
  stored : ∀ row ∈ rows, row.correlationGroup.getD "" = groupFor row.ticker
  attempts : ∀ a ∈ attemptsOf calls, a.correlationGroup = groupFor a.ticker
  fills : ∀ before ticker fillCount nowMs after,
    calls = before ++ .recordFill ticker fillCount nowMs :: after → ticker ∈ firedTickers rows before

/-- A ticker that becomes known is not one that the last reconciliation lists. -/
def LearnedInTime (g : RiskGate) : GateCall → Prop
  | .recordAttempt a => a.ticker ∉ g.correlationGroupByTicker →
    (g.reconciledPositionByTicker.lookup a.ticker).getD 0 = 0
  | _ => True

/-- The baselines of the groups are what the baselines of their tickers add up to. -/
def GroupBaselines (g : RiskGate) : Prop :=
  ∀ group, group ≠ "" →
    (g.reconciledPositionByGroup.lookup group).getD 0 = g.baselineOn fun t => g.groupOf t = group

theorem mem_of_groupOf {g : RiskGate} {ticker group : String} (h : g.groupOf ticker = group)
    (hGroup : group ≠ "") : ticker ∈ g.correlationGroupByTicker := by
  by_contra hUnknown
  rw [RiskGate.groupOf, AList.lookup_eq_none.mpr hUnknown, Option.getD_none] at h
  exact hGroup h.symm

theorem firedTickers_snoc (rows : List RiskGate.FetchedOrder) (calls : List GateCall)
    (call : GateCall) : firedTickers rows (calls ++ [call]) =
      firedTickers rows calls ++ (call.attempt?.map WireAttempt.ticker).toList := by
  rw [firedTickers, attemptsOf_snoc, List.map_append, ← List.append_assoc]
  cases call.attempt? <;> rfl

theorem FixedGroups.before {groupFor : String → String} {rows : List RiskGate.FetchedOrder}
    {calls later : List GateCall} (h : FixedGroups groupFor rows (calls ++ later)) :
    FixedGroups groupFor rows calls where
  nonempty ticker hTicker := by
    refine h.nonempty ticker ?_
    rw [firedTickers, attemptsOf, List.filterMap_append, List.map_append, ← List.append_assoc]
    exact List.mem_append_left _ hTicker
  stored := h.stored
  attempts a ha := by
    refine h.attempts a ?_
    rw [attemptsOf, List.filterMap_append]
    exact List.mem_append_left _ ha
  fills := by
    rintro before ticker fillCount nowMs after rfl
    exact h.fills before ticker fillCount nowMs (after ++ later) (by simp)

/-- The map and the fills know the groups of the tickers fired so far, and of no others. -/
structure Grouped (groupFor : String → String) (fired : List String) (g : RiskGate) : Prop where
  learned : Learned groupFor (· ∈ fired) g.correlationGroupByTicker
  known : ∀ ticker ∈ g.correlationGroupByTicker, ticker ∈ fired
  fills : ∀ f ∈ g.fills, f.ticker ∈ fired ∧ f.correlationGroup = groupFor f.ticker

namespace Grouped

variable {groupFor : String → String} {fired : List String} {g : RiskGate}

theorem fire (h : Grouped groupFor fired g) (ticker : String) {g' : RiskGate}
    (hMap : g'.correlationGroupByTicker =
      RiskGate.learnGroup g.correlationGroupByTicker ticker (groupFor ticker))
    (hFills : ∀ f ∈ g'.fills, f ∈ g.fills ∨ f.ticker = ticker ∧ f.correlationGroup = groupFor ticker) :
    Grouped groupFor (fired ++ [ticker]) g' where
  learned := by
    rw [hMap]
    refine (h.learned.learnGroup ticker).mono fun t ht => ?_
    simpa using ht
  known t ht := by
    rw [hMap, RiskGate.learnGroup] at ht
    split at ht
    · exact List.mem_append_left _ (h.known t ht)
    · obtain rfl | hOld := (AList.mem_insert _).mp ht
      · exact List.mem_append_right _ List.mem_cons_self
      · exact List.mem_append_left _ (h.known t hOld)
  fills f hf := by
    obtain hOld | ⟨hTicker, hGroup⟩ := hFills f hf
    · exact ⟨List.mem_append_left _ (h.fills f hOld).1, (h.fills f hOld).2⟩
    · rw [hTicker, hGroup]
      exact ⟨List.mem_append_right _ List.mem_cons_self, rfl⟩

theorem same_map (h : Grouped groupFor fired g) {g' : RiskGate}
    (hMap : g'.correlationGroupByTicker = g.correlationGroupByTicker)
    (hFills : ∀ f ∈ g'.fills, f ∈ g.fills ∨ f.ticker ∈ fired ∧ f.correlationGroup = groupFor f.ticker) :
    Grouped groupFor fired g' where
  learned := hMap ▸ h.learned
  known := hMap ▸ h.known
  fills f hf := (hFills f hf).elim (h.fills f) id

theorem warmStart (limits : RiskLimits) {rows : List RiskGate.FetchedOrder}
    (hRows : ∀ row ∈ rows, row.correlationGroup.getD "" = groupFor row.ticker) :
    Grouped groupFor (rows.map RiskGate.FetchedOrder.ticker) (.warmStart limits rows) := by
  induction rows using List.reverseRecOn with
  | nil => exact ⟨.of_empty groupFor fun _ => List.not_mem_nil, nofun, nofun⟩
  | append_singleton rows row ih =>
    have hRow := hRows row (List.mem_append_right _ List.mem_cons_self)
    have hBefore := ih fun r hr => hRows r (List.mem_append_left _ hr)
    rw [warmStart_snoc, List.map_append]
    refine hBefore.fire row.ticker ?_ ?_
    · rw [RiskGate.warmStartRow, hRow]
    · intro f hf
      obtain hOld | hNew := List.mem_append.mp hf
      · exact .inl hOld
      · right
        unfold RiskGate.warmStartFill at hNew
        split at hNew
        · cases hNew
        · split at hNew
          · rw [List.mem_singleton.mp hNew]
            exact ⟨rfl, hRow⟩
          · cases hNew

theorem run (limits : RiskLimits) {rows : List RiskGate.FetchedOrder} {calls : List GateCall}
    (h : FixedGroups groupFor rows calls) :
    Grouped groupFor (firedTickers rows calls) (runCalls (.warmStart limits rows) calls) := by
  induction calls using List.reverseRecOn with
  | nil =>
    rw [firedTickers, attemptsOf, List.filterMap_nil, List.map_nil, List.append_nil]
    exact .warmStart limits h.stored
  | append_singleton calls call ih =>
    have hBefore := ih h.before
    rw [runCalls_snoc, firedTickers_snoc]
    cases call with
    | recordAttempt a =>
      have hGroup := h.attempts a (by
        rw [attemptsOf_snoc]
        exact List.mem_append_right _ List.mem_cons_self)
      refine hBefore.fire a.ticker ?_ fun f hf => .inl hf
      rw [GateCall.apply, RiskGate.recordAttempt, hGroup]
    | recordFill ticker fillCount nowMs =>
      have hFired := h.fills calls ticker fillCount nowMs [] rfl
      simp only [GateCall.attempt?, Option.map_none, Option.toList_none, List.append_nil]
      refine hBefore.same_map (by rw [GateCall.apply, RiskGate.recordFill_eq]) fun f hf => ?_
      obtain hOld | ⟨-, hTicker, hGroup⟩ := RiskGate.mem_recordFill hf
      · exact .inl hOld
      · rw [hTicker, hGroup, hBefore.learned.groupOf_eq hFired]
        exact .inr ⟨hFired, rfl⟩
    | check c nowMs =>
      simp only [GateCall.attempt?, Option.map_none, Option.toList_none, List.append_nil]
      obtain hSame | hPruned := (runCalls (.warmStart limits rows) calls).check_gate c nowMs
      · rwa [GateCall.apply, hSame]
      · rw [GateCall.apply, hPruned]
        exact hBefore.same_map rfl fun f hf =>
          .inl ((pruneBefore_suffix Fill.recordedAtMs _ _).mem hf)
    | reconcileOpenPositions | beginDispatch | endDispatch =>
      simp only [GateCall.attempt?, Option.map_none, Option.toList_none, List.append_nil]
      exact hBefore.same_map rfl fun f hf => .inl hf

theorem groupsAddUp_iff (h : Grouped groupFor fired g) : GroupsAddUp g ↔ GroupBaselines g := by
  have hSums : ∀ group, group ≠ "" → ∀ nowMs,
      ∑ ticker ∈ g.tickersOf group, g.positionForTicker ticker nowMs =
        (g.baselineOn fun t => g.groupOf t = group) +
          g.unconfirmed (fun f => f.correlationGroup = group) nowMs := by
    intro group hGroup nowMs
    have hSum := g.sum_positionForTicker g.correlationGroupByTicker.keys.toFinset
      (fun ticker => g.groupOf ticker = group)
      (fun ticker _ hOn => List.mem_toFinset.mpr
        (AList.mem_keys.mp (mem_of_groupOf (of_decide_eq_true hOn) hGroup)))
      (fun f _ hOn => List.mem_toFinset.mpr
        (AList.mem_keys.mp (mem_of_groupOf (of_decide_eq_true hOn) hGroup))) nowMs
    simp only [decide_eq_true_eq] at hSum
    rw [RiskGate.tickersOf, hSum]
    congr 1
    refine congrArg (total Fill.fillCount) (List.filter_congr fun f hf => ?_)
    obtain ⟨hFired, hOwn⟩ := h.fills f hf
    simp only [hOwn, h.learned.groupOf_eq hFired]
  constructor
  · intro hAddUp group hGroup
    have hTotal := hAddUp group hGroup 0
    rw [hSums group hGroup, RiskGate.positionForGroup] at hTotal
    exact add_right_cancel hTotal
  · intro hBaselines group hGroup nowMs
    rw [hSums group hGroup, RiskGate.positionForGroup, hBaselines group hGroup]

theorem groupOf_unknown {ticker : String} (hUnknown : ticker ∉ g.correlationGroupByTicker) :
    g.groupOf ticker = "" := by
  rw [RiskGate.groupOf, AList.lookup_eq_none.mpr hUnknown, Option.getD_none]

theorem groupOf_recordAttempt {a : WireAttempt} (hGroup : a.correlationGroup ≠ "")
    (ticker : String) : (GateCall.apply g (.recordAttempt a)).groupOf ticker =
      if ticker = a.ticker then a.correlationGroup else g.groupOf ticker := by
  simp only [GateCall.apply, RiskGate.recordAttempt, RiskGate.groupOf, RiskGate.learnGroup,
    if_neg hGroup]
  split
  next hTicker => rw [hTicker, AList.lookup_insert, Option.getD_some]
  next hTicker => rw [AList.lookup_insert_ne hTicker]

/-- A ticker that joins a group brings its baseline with it. -/
theorem baselineOn_recordAttempt {a : WireAttempt} (hGroup : a.correlationGroup ≠ "")
    (hUnknown : a.ticker ∉ g.correlationGroupByTicker) {group : String} (hNonempty : group ≠ "") :
    (GateCall.apply g (.recordAttempt a)).baselineOn
        (fun t => (GateCall.apply g (.recordAttempt a)).groupOf t = group) =
      (g.baselineOn fun t => g.groupOf t = group) +
        if a.correlationGroup = group then (g.reconciledPositionByTicker.lookup a.ticker).getD 0
        else 0 := by
  rw [AList.lookup, dlookup_getD_eq_total g.reconciledPositionByTicker.nodupKeys]
  change total Sigma.snd (g.reconciledPositionByTicker.entries.filter _) = _
  simp only [groupOf_recordAttempt hGroup]
  by_cases hJoins : a.correlationGroup = group
  · rw [if_pos hJoins, RiskGate.baselineOn, ← total_filter_or]
    · refine congrArg (total _) (List.filter_congr fun entry _ => ?_)
      by_cases hTicker : entry.1 = a.ticker <;> simp [hTicker, hJoins]
    · intro entry _ hOn
      refine decide_eq_false ?_
      rintro hTicker
      rw [hTicker, groupOf_unknown hUnknown] at hOn
      exact hNonempty (of_decide_eq_true hOn).symm
  · rw [if_neg hJoins, add_zero]
    refine congrArg (total _) (List.filter_congr fun entry _ => ?_)
    by_cases hTicker : entry.1 = a.ticker
    · simp [hTicker, hJoins, groupOf_unknown hUnknown, hNonempty.symm]
    · simp [hTicker]

theorem groupBaselines_recordAttempt (h : Grouped groupFor fired g) {a : WireAttempt}
    (hGroup : a.correlationGroup = groupFor a.ticker) (hNonempty : groupFor a.ticker ≠ "")
    (hBefore : GroupBaselines g) :
    GroupBaselines (GateCall.apply g (.recordAttempt a)) ↔ LearnedInTime g (.recordAttempt a) := by
  rw [← hGroup] at hNonempty
  rw [LearnedInTime]
  by_cases hKnown : a.ticker ∈ g.correlationGroupByTicker
  · refine iff_of_true (fun group hEmpty => ?_) (fun hUnknown => absurd hKnown hUnknown)
    have hSame : (GateCall.apply g (.recordAttempt a)).groupOf = g.groupOf := by
      funext ticker
      rw [groupOf_recordAttempt hNonempty]
      split
      next hTicker => rw [hTicker, hGroup, h.learned.groupOf_eq (h.known _ hKnown)]
      next => rfl
    rw [hSame]
    exact hBefore group hEmpty
  · constructor
    · intro hAfter _
      have hTotal := (hAfter a.correlationGroup hNonempty).symm.trans (hBefore _ hNonempty)
      rw [baselineOn_recordAttempt hNonempty hKnown hNonempty, if_pos rfl] at hTotal
      exact left_eq_add.mp hTotal.symm
    · intro hAbsent group hEmpty
      rw [baselineOn_recordAttempt hNonempty hKnown hEmpty, hAbsent hKnown, ite_self, add_zero]
      exact hBefore group hEmpty

theorem groupBaselines_step (h : Grouped groupFor fired g) {call : GateCall}
    (hAttempt : ∀ a, call = .recordAttempt a →
      a.correlationGroup = groupFor a.ticker ∧ groupFor a.ticker ≠ "")
    (hBefore : GroupBaselines g) : GroupBaselines (call.apply g) ↔ LearnedInTime g call := by
  cases call with
  | recordAttempt a =>
    obtain ⟨hGroup, hNonempty⟩ := hAttempt a rfl
    exact h.groupBaselines_recordAttempt hGroup hNonempty hBefore
  | check c nowMs =>
    refine iff_of_true ?_ trivial
    obtain hSame | hPruned := g.check_gate c nowMs
    · rwa [GateCall.apply, hSame]
    · rw [GateCall.apply, hPruned]
      exact hBefore
  | recordFill ticker fillCount nowMs =>
    refine iff_of_true ?_ trivial
    rw [GateCall.apply, RiskGate.recordFill_eq]
    exact hBefore
  | reconcileOpenPositions openPositions snapshotAtMs =>
    refine iff_of_true (fun group hEmpty => ?_) trivial
    refine (RiskGate.lookup_aggregate _ _ _ _).trans ?_
    refine congrArg (total _) (List.filter_congr fun entry _ => ?_)
    refine decide_eq_decide.mpr (and_iff_left_of_imp ?_)
    rintro rfl ⟨-, hNone⟩
    exact hEmpty hNone
  | beginDispatch | endDispatch => exact iff_of_true hBefore trivial

end Grouped

def majorsAttempt : GateCall := .recordAttempt ⟨"KX-A-1", "yes", 1, 1 / 2, 2000, "majors"⟩

def fiveOpen : GateCall := .reconcileOpenPositions (AList.singleton "KX-A-1" 5) 1000

theorem fixedGroups_of_attempt {calls : List GateCall} (hCalls : attemptsOf calls =
    [⟨"KX-A-1", "yes", 1, 1 / 2, 2000, "majors"⟩])
    (hFills : ∀ ticker fillCount nowMs, .recordFill ticker fillCount nowMs ∉ calls) :
    FixedGroups (fun _ => "majors") [] calls where
  nonempty _ _ := by decide
  stored := nofun
  attempts a ha := by
    rw [hCalls, List.mem_singleton] at ha
    rw [ha]
  fills := by
    rintro before ticker fillCount nowMs after rfl
    exact absurd (List.mem_append_right _ List.mem_cons_self) (hFills ticker fillCount nowMs)

end KalshiBot.Risk

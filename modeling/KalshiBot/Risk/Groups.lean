import KalshiBot.Risk.Gate

/-! # What the gate learns of correlation groups

Fills and reconciled positions carry no group. The gate looks it up in the map that
attempts fill in, and the lookup is right as long as a ticker keeps its group.
-/

namespace KalshiBot.Risk

open PythonText

set_option autoImplicit false

/-- The map agrees with a fixed group for every ticker and knows those of some. -/
structure Learned (groupFor : String → String) (attempted : String → Prop)
    (known : Dict String String) : Prop where
  sound : ∀ ticker group, known.lookup ticker = some group → group = groupFor ticker
  complete : ∀ ticker, attempted ticker → groupFor ticker ≠ "" →
    known.lookup ticker = some (groupFor ticker)

namespace Learned

variable {groupFor : String → String} {attempted : String → Prop} {known : Dict String String}

theorem of_empty (groupFor : String → String) {attempted : String → Prop}
    (h : ∀ ticker, ¬attempted ticker) : Learned groupFor attempted ∅ :=
  ⟨nofun, fun ticker hAttempted => absurd hAttempted (h ticker)⟩

theorem mono (h : Learned groupFor attempted known) {fewer : String → Prop}
    (hFewer : ∀ ticker, fewer ticker → attempted ticker) : Learned groupFor fewer known :=
  ⟨h.sound, fun ticker hTicker => h.complete ticker (hFewer ticker hTicker)⟩

theorem groupOf_eq {g : RiskGate} (h : Learned groupFor attempted g.correlationGroupByTicker)
    {ticker : String} (hTicker : attempted ticker) : g.groupOf ticker = groupFor ticker := by
  by_cases hEmpty : groupFor ticker = ""
  · cases hLookup : g.correlationGroupByTicker.lookup ticker with
    | none => rw [RiskGate.groupOf, hLookup, Option.getD_none, hEmpty]
    | some group => rw [RiskGate.groupOf, hLookup, Option.getD_some, h.sound _ _ hLookup]
  · rw [RiskGate.groupOf, h.complete ticker hTicker hEmpty, Option.getD_some]

theorem learnGroup (h : Learned groupFor attempted known) (ticker : String) :
    Learned groupFor (fun t => attempted t ∨ t = ticker)
      (RiskGate.learnGroup known ticker (groupFor ticker)) := by
  unfold RiskGate.learnGroup
  split
  · next hEmpty =>
    refine ⟨h.sound, ?_⟩
    rintro t (hAttempted | rfl) hNonempty
    · exact h.complete t hAttempted hNonempty
    · exact absurd hEmpty hNonempty
  · refine ⟨?_, ?_⟩
    · intro t group hLookup
      by_cases hTicker : t = ticker
      · subst hTicker
        rw [AList.lookup_insert] at hLookup
        exact (Option.some.inj hLookup).symm
      · exact h.sound t group ((AList.lookup_insert_ne hTicker).symm.trans hLookup)
    · intro t hAttempted hNonempty
      by_cases hTicker : t = ticker
      · subst hTicker
        exact AList.lookup_insert _
      · rw [AList.lookup_insert_ne hTicker]
        exact h.complete t (hAttempted.resolve_right hTicker) hNonempty

end Learned

end KalshiBot.Risk

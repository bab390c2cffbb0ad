import KalshiBot.Library.SqliteScripts

/-! # Scripts cut off between two steps -/

namespace KalshiBot.Sqlite

set_option autoImplicit false

variable {T C : Type} [DecidableEq T] [DecidableEq C]

/-- Wherever the steps are cut off, what is then committed fits the steps completed. -/
def Cuts (steps : List (Step T C)) (db : Database T C)
    (fits : List (Step T C) → Database T C → Prop) : Prop :=
  ∀ completed, completed <+: steps → ∃ db', Leaves completed db db' ∧ fits completed db'

variable {db mid db' : Database T C} {steps first second : List (Step T C)}
  {fits fits' : List (Step T C) → Database T C → Prop}

theorem Cuts.mono (h : Cuts steps db fits)
    (hFits : ∀ completed db', completed <+: steps → fits completed db' → fits' completed db') :
    Cuts steps db fits' := by
  intro completed hPrefix
  obtain ⟨db', hLeaves, hFit⟩ := h completed hPrefix
  exact ⟨db', hLeaves, hFits completed db' hPrefix hFit⟩

theorem cuts_nil (h : fits [] db) : Cuts [] db fits := by
  intro completed hPrefix
  obtain rfl := List.prefix_nil.mp hPrefix
  exact ⟨db, (leads_nil db).leaves, h⟩

theorem Cuts.append (hFirst : Cuts first db fits) (hLeads : Leads first db mid)
    (hSecond : Cuts second mid fun completed => fits (first ++ completed)) :
    Cuts (first ++ second) db fits := by
  intro completed hPrefix
  obtain hShort | ⟨rest, rfl, hRest⟩ := prefix_append_cases hPrefix
  · exact hFirst completed hShort
  · obtain ⟨db', hLeaves, hFit⟩ := hSecond rest hRest
    exact ⟨db', hLeads.leaves_append hLeaves, hFit⟩

theorem cuts_cons {step : Step T C} (hStart : fits [] db) (hLeads : Leads [step] db mid)
    (hRest : Cuts steps mid fun completed => fits (step :: completed)) :
    Cuts (step :: steps) db fits := by
  intro completed hPrefix
  obtain rfl | ⟨rest, rfl, hRestPrefix⟩ := List.prefix_cons_iff.mp hPrefix
  · exact ⟨db, (leads_nil db).leaves, hStart⟩
  · obtain ⟨db', hLeaves, hFit⟩ := hRest rest hRestPrefix
    exact ⟨db', hLeads.leaves_append hLeaves, hFit⟩

/-- Until its commit a transaction leaves what was there. -/
theorem cuts_transaction {statements : List (Statement T C)}
    (hRun : statements.foldlM Statement.run db = some db')
    (hOpen : ∀ completed, completed <+: .begin :: statements.map .run → fits completed db)
    (hDone : fits (.begin :: statements.map .run ++ [.commit]) db') :
    Cuts (.begin :: statements.map .run ++ [.commit]) db fits := by
  intro completed hPrefix
  obtain rfl | hShort := List.prefix_concat_iff.mp hPrefix
  · exact ⟨db', (leads_transaction hRun).leaves, hDone⟩
  · refine ⟨db, ?_, hOpen completed hShort⟩
    obtain rfl | ⟨rest, rfl, hRest⟩ := List.prefix_cons_iff.mp hShort
    · exact (leads_nil db).leaves
    · obtain ⟨done, -, rfl⟩ := List.prefix_map_iff.mp hRest
      exact leaves_begin done db

theorem leads_emptyTransaction (db : Database T C) : Leads [.begin, .commit] db db :=
  have hRun : ([] : List (Statement T C)).foldlM Statement.run db = some db := rfl
  leads_transaction hRun

/-- A transaction that is committed before anything has changed. -/
theorem cuts_emptyTransaction (hStart : fits [] db) (hBegin : fits [.begin] db)
    (hRest : Cuts steps db fun completed => fits (.begin :: .commit :: completed)) :
    Cuts (.begin :: .commit :: steps) db fits := by
  intro completed hPrefix
  obtain rfl | ⟨rest, rfl, hRestPrefix⟩ := List.prefix_cons_iff.mp hPrefix
  · exact ⟨db, (leads_nil db).leaves, hStart⟩
  · obtain rfl | ⟨rest', rfl, hRestPrefix'⟩ := List.prefix_cons_iff.mp hRestPrefix
    · exact ⟨db, leaves_begin [] db, hBegin⟩
    · obtain ⟨db', hLeaves, hFit⟩ := hRest rest' hRestPrefix'
      exact ⟨db', (leads_emptyTransaction db).leaves_append hLeaves, hFit⟩

theorem cuts_still {statements : List (Statement T C)}
    (hRun : ∀ statement ∈ statements, statement.run db = some db)
    (hFits : ∀ completed, completed <+: statements.map .run → fits completed db) :
    Cuts (statements.map .run) db fits := by
  intro completed hPrefix
  obtain ⟨done, hDone, rfl⟩ := List.prefix_map_iff.mp hPrefix
  have hStill := foldlM_of_still fun statement hMem => hRun statement (hDone.subset hMem)
  exact ⟨db, (leads_runs hStill).leaves, hFits _ hPrefix⟩

theorem cuts_addColumns {name : T} {content : TableContent C} {added : List C}
    (h : db.tables name = some content) (hNew : ∀ c ∈ added, c ∉ content.columns)
    (hNodup : added.Nodup)
    (hFits : ∀ done content', done <+: added → content'.columns = content.columns ++ done →
      Carried content content' →
        fits ((done.map (.addColumn name)).map .run) (db.set name (some content'))) :
    Cuts ((added.map (.addColumn name)).map .run) db fits := by
  intro completed hPrefix
  obtain ⟨statements, hStatements, rfl⟩ := List.prefix_map_iff.mp hPrefix
  obtain ⟨done, hDone, rfl⟩ := List.prefix_map_iff.mp hStatements
  obtain ⟨content', hRun, hColumns, hCarried⟩ := run_addColumns h
    (fun c hMem => hNew c (hDone.subset hMem)) (hNodup.sublist hDone.sublist)
  exact ⟨_, (leads_runs hRun).leaves, hFits done content' hDone hColumns hCarried⟩

end KalshiBot.Sqlite

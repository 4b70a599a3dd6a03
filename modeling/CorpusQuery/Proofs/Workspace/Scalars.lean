import CorpusQuery.Proofs.View.Projection
import CorpusQuery.Proofs.Workspace.Session

/-!
# What rows show

Whatever is done in a session, the tables in the cache hold scalars only, since a table that is
computed does (`StoresScalars.afterAll`). So no call shows a cell that is empty, a list, a map or a
document. Together with what is known of layouts and plans this says that sorting and showing read
the cells that they are meant to read (`cells_in_place`).
-/

namespace CorpusQuery

open Job

/-- Whether all rows of a table hold scalars only. -/
def Sheet.HasScalars (sheet : Sheet) : Prop := ∀ row ∈ sheet.rows, row.HasScalars

theorem Definition.hasScalars_fresh {definition : Definition} {corpus : Corpus} {disk : Disk}
    {view : View} {rows : List Row} (h : (definition.fresh corpus disk view).result = .ok rows) :
    ∀ row ∈ rows, row.HasScalars := by
  unfold fresh at h
  split at h
  · cases h
  · exact hasScalars_rows h

namespace Workspace

/-- Whether all tables in the cache hold scalars only. -/
def StoresScalars (w : Workspace) : Prop := ∀ entry ∈ w.cache.entries, entry.payload.HasScalars

variable {w start : Workspace} {corpus : Corpus} {definition : Definition} {name : String}
  {force : Bool} {sheet : Sheet}

theorem storesScalars_of_empty (h : start.cache = .empty) : start.StoresScalars := by
  intro entry hentry
  rw [h] at hentry
  cases hentry

theorem mem_of_found? {key : CacheKey} {entry : CacheEntry Sheet}
    (h : w.found? key force = some entry) : entry ∈ w.cache.entries := by
  cases force with
  | true => cases h
  | false => exact List.mem_of_find?_eq_some h

/-- A call gives a table from the cache or one that it has computed. -/
theorem StoresScalars.result (h : w.StoresScalars)
    (hresult : ((materialize corpus definition name force).run w).result = .ok sheet) :
    sheet.HasScalars := by
  cases hview : definition.view name with
  | error e =>
    rw [run_materialize_of_error hview] at hresult
    cases hresult
  | ok view =>
    cases hfound : w.found? (definition.callKey corpus name) force with
    | some entry =>
      rw [run_materialize_of_found hview hfound] at hresult
      cases hresult
      exact h entry (mem_of_found? hfound)
    | none =>
      rw [result_materialize_of_none hview hfound] at hresult
      cases hfresh : (definition.fresh corpus w.disk view).result with
      | error e =>
        rw [hfresh] at hresult
        cases hresult
      | ok rows =>
        rw [hfresh] at hresult
        cases hresult
        exact Definition.hasScalars_fresh hfresh

/-- A step stores nothing else in the cache than what a call gives. -/
theorem StoresScalars.after (h : w.StoresScalars) (step : Step) : (w.after step).StoresScalars := by
  have hkept (keep : CacheEntry Sheet → Bool) :
      ∀ entry ∈ w.cache.entries.filter keep, entry.payload.HasScalars :=
    fun entry hentry => h entry (List.mem_of_mem_filter hentry)
  cases step with
  | onDisk change => exact h
  | advance milliseconds => exact h
  | prune => exact hkept _
  | invalidate key => exact hkept _
  | materialize corpus definition name force =>
    change ((materialize corpus definition name force).run w).state.StoresScalars
    rcases w.state_materialize_cases corpus definition name force with
      ⟨rows, corpora, hresult, hstate⟩ | ⟨corpora, swept, hswept, hstate⟩
    · rw [hstate]
      refine List.forall_mem_cons.mpr ⟨h.result hresult, fun entry hentry => ?_⟩
      exact hkept _ entry (List.mem_of_mem_filter hentry)
    · rw [hstate]
      rcases hswept with rfl | rfl
      · exact h
      · exact hkept _

theorem StoresScalars.afterAll (h : w.StoresScalars) (steps : List Step) :
    (w.afterAll steps).StoresScalars := by
  induction steps generalizing w with
  | nil => exact h
  | cons step steps ih => exact ih (h.after step)

/-- The layout of a view fits the view and the columns it is sorted by; the plan for the sorting
goes by all of these columns in their order, and by the first column shown if there are none. A row
is made of the cells at the places that the layout shows, each of which is still there when it is
taken. In a session that begins with an empty cache every call gives rows of scalars only. -/
theorem cells_in_place {σ : Type} (view : View) (sorts : List SortColumn) :
    let layout := Layout.ofView view sorts
    layout.Fits view sorts ∧
    (∀ (corpus : Corpus) (s : σ), ∃ plan,
      ((Definition.sortPlan corpus view layout sorts).run s).result = .ok plan ∧
      layout.Sorts sorts plan) ∧
    (∀ (definition : Definition) (cells : List Value), definition.TakesOnce layout cells) ∧
    ∀ (start : Workspace) (steps : List Step) corpus definition name force sheet,
      start.cache = .empty →
      ((materialize corpus definition name force).run (start.afterAll steps)).result = .ok sheet →
      ∀ row ∈ sheet.rows, ∀ cell ∈ row.cells, cell.2.IsScalar := by
  intro layout
  have hfits : layout.Fits view sorts := Layout.fits_ofView view sorts
  refine ⟨hfits, fun corpus s => ?_, fun definition cells => ?_, ?_⟩
  · have hresult := (Definition.yields_sortPlan (σ := σ) corpus view layout sorts s).1
    exact ⟨_, hresult, hfits.sorts_plan⟩
  · exact Definition.takesOnce hfits.shownOnce definition cells
  · intro start steps corpus definition name force sheet hempty hresult
    exact ((storesScalars_of_empty hempty).afterAll steps).result hresult

/-- Cards that ask for one column twice and are sorted by another one. -/
def cardView : View where
  name := "v"
  kind := .cards
  filter := .trivial
  order := ["file.name", "file.name"]
  sorts := [⟨"price", "ASC"⟩]

/-- The layout of the cards, and the rows of a call in a session on two notes. -/
theorem cells_in_place_of_cards :
    let sorts := [SortColumn.mk "price" .ascending]
    let layout := Layout.ofView cardView sorts
    let start := Workspace.ofDisk .empty Definition.noteDisk
    layout.columns = ["file.name", "price", "cover"] ∧ layout.shown = [0, 2] ∧
      layout.Fits cardView sorts ∧ layout.Sorts sorts [⟨1, .ascending⟩] ∧ start.cache = .empty ∧
      ∃ sheet, ((materialize Definition.noteCorpus Definition.noteDefinition "v" true).run
          (start.afterAll [.advance 5])).result = .ok sheet ∧
        sheet.rows.length = 1 ∧
        ∀ row ∈ sheet.rows, ∀ cell ∈ row.cells, cell.2.IsScalar := by
  intro sorts layout start
  obtain ⟨hfits, hplan, -, hscalars⟩ := cells_in_place (σ := Unit) cardView sorts
  obtain ⟨plan, hresult, hsorts⟩ := hplan Definition.noteCorpus ()
  obtain rfl : [⟨1, .ascending⟩] = plan := Except.ok.inj hresult
  have hlength : (match ((Definition.noteDefinition.rowsFrom Definition.noteCorpus
      ⟨Definition.noteDisk, 5, start.ttl⟩ Definition.noteView ⟨[["a.md"], ["b.md"]]⟩).run
      ⟨⟨[]⟩, .empty, 0⟩).result with
      | .ok rows => rows.length
      | .error _ => 0) = 1 := by
    decide +kernel
  rw [Definition.fresh_of_ok Definition.ofDisk_noteDisk] at hlength
  cases hfresh : (Definition.noteDefinition.fresh Definition.noteCorpus Definition.noteDisk
      Definition.noteView).result with
  | error e =>
    rw [hfresh] at hlength
    cases hlength
  | ok rows =>
    rw [hfresh] at hlength
    have hcall : ((materialize Definition.noteCorpus Definition.noteDefinition "v" true).run
        (start.afterAll [.advance 5])).result = .ok ⟨0, rows⟩ :=
      (result_materialize_of_none rfl rfl).trans
        (congrArg (Except.map (Sheet.mk 0)) hfresh)
    exact ⟨by decide +kernel, by decide +kernel, hfits, hsorts, rfl, ⟨0, rows⟩, hcall, hlength,
      hscalars start [.advance 5] _ _ "v" true _ rfl hcall⟩

end Workspace

end CorpusQuery

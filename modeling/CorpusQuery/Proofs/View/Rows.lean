import CorpusQuery.Proofs.View.Cells
import CorpusQuery.View.Materialize

/-!
# Computing the rows of a view

What a computation gives, reports and leaves behind. The rows come from the files that a walk of the
disk lists now; the index, the cache and the tables made before have no part in them.
-/

namespace CorpusQuery

open Job

variable {σ : Type}

/-! ## The index -/

namespace Surroundings

variable {around : Surroundings} {corpus : Corpus}

theorem run_refresh_of_ok {index : Index}
    (h : Index.ofDisk around.disk corpus.root = .ok index) (before : Index) :
    (around.refresh corpus).run before = ⟨.ok (), Index.listed, index⟩ := by
  unfold refresh
  rw [h]
  rfl

theorem run_refresh_of_error {fault : Disk.Fault}
    (h : Index.ofDisk around.disk corpus.root = .error fault) (before : Index) :
    (around.refresh corpus).run before = ⟨.error (.io fault), [], before⟩ := by
  unfold refresh
  rw [h]
  rfl

/-- Sweeping the cache is for the log only. -/
theorem messages_sweepEvents {α : Type} (around : Surroundings) (cache : Cache α) :
    Event.messages (around.sweepEvents cache) = [] := by
  unfold sweepEvents
  split <;> rfl

end Surroundings

theorem Desk.run_onIndex {α : Type} (job : Job Index α) (desk : Desk) :
    (Desk.onIndex job).run desk =
      ⟨(job.run desk.index).result, (job.run desk.index).events,
        { desk with index := (job.run desk.index).state }⟩ := rfl

namespace Definition

variable {definition : Definition} {corpus : Corpus} {around : Surroundings} {view : View}

/-! ## Rows -/

/-- The rows of a view from the values of its columns: sorted, and then shown. -/
def arrange (definition : Definition) (corpus : Corpus) (view : View) (sorts : List SortColumn)
    (values : List (List Value)) : Job σ (List Row) := do
  let layout := Layout.ofView view sorts
  let table := values.map fun row => row.map Value.cell
  let plan ← sortPlan corpus view layout sorts
  let sorted := Table.sort (Table.numericColumns layout.columns.length table) plan table
  pure (sorted.map (definition.row layout))

theorem rows_eq (definition : Definition) (snapshot : Snapshot) (view : View) :
    (definition.rows snapshot view : Job σ (List Row)) = (do
      let documents ← gather snapshot (definition.filter.both view.filter) snapshot.index.files
      let sorts ← definition.sortColumns snapshot.corpus view.name view.sorts
      let (values, problems) ←
        definition.rowsOf snapshot (Layout.ofView view sorts).columns documents
      Job.report (problemEvents snapshot.corpus problems)
      definition.arrange snapshot.corpus view sorts values) := rfl

/-- A file is checked as a document that has not been read. -/
theorem run_gather_cons (snapshot : Snapshot) (filter : Filter) (file : RelPath)
    (files : List RelPath) (s : σ) :
    (gather snapshot filter (file :: files)).run s =
      match (filter.check snapshot (.ofPath snapshot.corpus file)).run none with
      | ⟨.error e, events, _⟩ => ⟨.error e, events, s⟩
      | ⟨.ok passed, events, content⟩ =>
        let rest := (gather snapshot filter files).run s
        ⟨rest.result.map fun documents =>
            if passed then ⟨.ofPath snapshot.corpus file, content⟩ :: documents else documents,
          events ++ rest.events, rest.state⟩ := by
  rw [gather, run_bind, run_aside]
  rcases (filter.check snapshot (.ofPath snapshot.corpus file)).run none with
    ⟨e | passed, events, content⟩
  · rfl
  · simp only [Except.map, run_bind_pure]

/-- The cells of a document are computed from where its check ended. -/
theorem run_rowsOf_cons (definition : Definition) (snapshot : Snapshot) (columns : List String)
    (opened : OpenDocument) (rest : List OpenDocument) (s : σ) :
    (definition.rowsOf snapshot columns (opened :: rest)).run s =
      match (definition.values snapshot opened.document columns).run opened.content with
      | ⟨.error e, events, _⟩ => ⟨.error e, events, s⟩
      | ⟨.ok row, events, _⟩ =>
        let others := (definition.rowsOf snapshot columns rest).run s
        ⟨others.result.map fun rows => (row.1 :: rows.1, row.2 ++ rows.2),
          events ++ others.events, others.state⟩ := by
  rw [rowsOf_cons, run_bind, run_rowValues]
  rcases (definition.values snapshot opened.document columns).run opened.content with
    ⟨e | row, events, content⟩
  · rfl
  · simp only [run_bind_pure]

theorem detached_gather (snapshot : Snapshot) (filter : Filter) (files : List RelPath) :
    Detached (gather snapshot filter files : Job σ _) := by
  induction files with
  | nil => exact .pure _
  | cons file files ih =>
    exact (Detached.aside _ _).bind fun _ => ih.bind fun _ => .pure _

theorem detached_sortColumns (definition : Definition) (corpus : Corpus) (view : String)
    (entries : List SortEntry) :
    Detached (definition.sortColumns corpus view entries : Job σ _) := by
  induction entries with
  | nil => exact .pure _
  | cons entry entries ih =>
    rw [sortColumns]
    split
    · exact ih.bind fun _ => .pure _
    · split
      · exact .throw _
      · exact (Detached.report _).bind fun _ => ih

theorem detached_rowsOf (definition : Definition) (snapshot : Snapshot) (columns : List String)
    (documents : List OpenDocument) :
    Detached (definition.rowsOf snapshot columns documents : Job σ _) := by
  induction documents with
  | nil => exact .pure _
  | cons opened rest ih =>
    rw [rowsOf_cons]
    refine Detached.bind ?_ fun _ => ih.bind fun _ => .pure _
    exact (Detached.aside _ _).bind fun _ => .pure _

/-- What is decided about the order of rows is a notice or two and a result. -/
theorem sortPlan_induction {P : ∀ {α : Type}, Job σ α → Prop} {corpus : Corpus} {view : View}
    (hpure : ∀ {α : Type} (a : α), P (pure a : Job σ α))
    (hbind : ∀ {α β : Type} {job : Job σ α} {next : α → Job σ β},
      P job → (∀ a, P (next a)) → P (job >>= next))
    (hunsorted : P (corpus.notify .warning "view is not sorted"
      s!"no usable sort entry in view {view.name}" : Job σ Unit))
    (hdefault : ∀ details,
      P (corpus.notify .info s!"view {view.name} has no sort" details : Job σ Unit))
    (layout : Layout) (sorts : List SortColumn) :
    P (sortPlan corpus view layout sorts : Job σ (List SortStep)) := by
  unfold sortPlan
  cases layout.shown with
  | nil =>
    dsimp only
    split
    · exact hpure _
    · split
      · exact hbind hunsorted fun _ => hpure _
      · exact hpure _
  | cons position positions =>
    dsimp only
    split
    · exact hpure _
    · split
      · exact hbind hunsorted fun _ => hbind (hdefault _) fun _ => hpure _
      · exact hbind (hdefault _) fun _ => hpure _

theorem detached_sortPlan (corpus : Corpus) (view : View) (layout : Layout)
    (sorts : List SortColumn) : Detached (sortPlan corpus view layout sorts : Job σ _) :=
  sortPlan_induction (P := fun job => Detached job) .pure .bind (.report _) (fun _ => .report _)
    layout sorts

/-- Computing rows is apart from the state. -/
theorem detached_rows (definition : Definition) (snapshot : Snapshot) (view : View) :
    Detached (definition.rows snapshot view : Job σ (List Row)) := by
  rw [rows_eq]
  refine (detached_gather _ _ _).bind fun documents => ?_
  refine (detached_sortColumns _ _ _ _).bind fun sorts => ?_
  refine (detached_rowsOf _ _ _ _).bind fun values => ?_
  refine (Detached.report _).bind fun _ => ?_
  exact (detached_sortPlan _ _ _ _).bind fun _ => .pure _

/-! ## Tables -/

/-- The rows from the files of an index. -/
def rowsFrom (definition : Definition) (corpus : Corpus) (around : Surroundings) (view : View)
    (index : Index) : Job Desk (List Row) :=
  definition.rows { corpus, disk := around.disk, index } view

/-- Gives rows a number and stores them. -/
def keep (definition : Definition) (corpus : Corpus) (around : Surroundings) (view : View)
    (rows : List Row) : Job Desk Sheet := do
  Job.log .info "materialized view"
  let sheet ← Desk.number rows
  Desk.onCache (around.store (definition.cacheKey corpus view) sheet)
  pure sheet

theorem run_keep (rows : List Row) (desk : Desk) :
    (definition.keep corpus around view rows).run desk =
      ⟨.ok ⟨desk.made, rows⟩,
        .log .info "materialized view" :: around.sweepEvents desk.cache,
        { desk with
          cache := desk.cache.put around.ttl around.now (definition.cacheKey corpus view)
            ⟨desk.made, rows⟩
          made := desk.made + 1 }⟩ := by
  have hstore : (Desk.onCache (around.store (definition.cacheKey corpus view)
      ⟨desk.made, rows⟩)).run { desk with made := desk.made + 1 } =
      ⟨.ok (), around.sweepEvents desk.cache,
        { desk with
          cache := desk.cache.put around.ttl around.now (definition.cacheKey corpus view)
            ⟨desk.made, rows⟩
          made := desk.made + 1 }⟩ := by
    unfold Desk.onCache Surroundings.store
    rw [run_onPart, run_get_bind, run_report_bind, run_set, List.append_nil]
  have hnumber : (Desk.number rows).run desk =
      ⟨.ok ⟨desk.made, rows⟩, [], { desk with made := desk.made + 1 }⟩ := rfl
  unfold keep log
  rw [run_report_bind, run_bind, hnumber]
  simp only [run_bind, hstore, run_pure, List.nil_append, List.append_nil, List.cons_append]

theorem run_recompute {index : Index}
    (hwalk : Index.ofDisk around.disk corpus.root = .ok index) (desk : Desk) :
    (definition.recompute corpus around view).run desk =
      (do
        Job.report Index.listed
        let rows ← definition.rowsFrom corpus around view index
        definition.keep corpus around view rows : Job Desk Sheet).run { desk with index } := by
  have hrefresh : (Desk.onIndex (around.refresh corpus)).run desk =
      ⟨.ok (), Index.listed, { desk with index }⟩ := by
    rw [Desk.run_onIndex, Surroundings.run_refresh_of_ok hwalk]
  rw [recompute, run_bind_of_ok (a := ()) (by rw [hrefresh]), hrefresh, run_get_bind,
    run_report_bind]
  rfl

/-- If the rows cannot be computed, the new index is all that stays. -/
theorem run_recompute_of_error {index : Index} {desk : Desk} {e : Error}
    (hwalk : Index.ofDisk around.disk corpus.root = .ok index)
    (h : ((definition.rowsFrom corpus around view index).run desk).result = .error e) :
    (definition.recompute corpus around view).run desk =
      ⟨.error e, Index.listed ++ ((definition.rowsFrom corpus around view index).run desk).events,
        { desk with index }⟩ := by
  have hrows := (detached_rows definition ⟨corpus, around.disk, index⟩ view).run_eq desk
    { desk with index }
  unfold rowsFrom at h ⊢
  rw [run_recompute hwalk, run_report_bind, rowsFrom, run_bind_of_error (by rw [hrows, h]), hrows]

/-- If they can, they are given the next number and stored. -/
theorem run_recompute_of_ok {index : Index} {desk : Desk} {rows : List Row}
    (hwalk : Index.ofDisk around.disk corpus.root = .ok index)
    (h : ((definition.rowsFrom corpus around view index).run desk).result = .ok rows) :
    (definition.recompute corpus around view).run desk =
      ⟨.ok ⟨desk.made, rows⟩,
        Index.listed ++ (((definition.rowsFrom corpus around view index).run desk).events ++
          .log .info "materialized view" :: around.sweepEvents desk.cache),
        { index
          cache := desk.cache.put around.ttl around.now (definition.cacheKey corpus view)
            ⟨desk.made, rows⟩
          made := desk.made + 1 }⟩ := by
  have hrows := (detached_rows definition ⟨corpus, around.disk, index⟩ view).run_eq desk
    { desk with index }
  unfold rowsFrom at h ⊢
  rw [run_recompute hwalk, run_report_bind, rowsFrom, run_bind_of_ok (by rw [hrows, h]), hrows,
    run_keep]

/-- If the walk fails, so does the computation, and nothing is changed. -/
theorem run_recompute_of_fault {fault : Disk.Fault}
    (hwalk : Index.ofDisk around.disk corpus.root = .error fault) (desk : Desk) :
    (definition.recompute corpus around view).run desk = ⟨.error (.io fault), [], desk⟩ := by
  have hrefresh :
      (Desk.onIndex (around.refresh corpus)).run desk = ⟨.error (.io fault), [], desk⟩ := by
    rw [Desk.run_onIndex, Surroundings.run_refresh_of_error hwalk]
  rw [recompute, run_bind_of_error (by rw [hrefresh]), hrefresh]

/-- A computation that fails leaves at most a new index behind, and that only if the files could be
listed. -/
theorem state_recompute_of_error {desk : Desk} {e : Error}
    (h : ((definition.recompute corpus around view).run desk).result = .error e) :
    ((definition.recompute corpus around view).run desk).state =
      { desk with index := (Index.ofDisk around.disk corpus.root).toOption.getD desk.index } := by
  cases hwalk : Index.ofDisk around.disk corpus.root with
  | error fault =>
    rw [run_recompute_of_fault hwalk]
    rfl
  | ok index =>
    cases hrows : ((definition.rowsFrom corpus around view index).run desk).result with
    | error e' =>
      rw [run_recompute_of_error hwalk hrows]
      rfl
    | ok rows =>
      rw [run_recompute_of_ok hwalk hrows] at h
      cases h

/-- The table that is computed holds the rows from the files that the walk lists. -/
theorem result_recompute {index : Index}
    (hwalk : Index.ofDisk around.disk corpus.root = .ok index) (desk : Desk) :
    ((definition.recompute corpus around view).run desk).result =
      ((definition.rowsFrom corpus around view index).run desk).result.map
        (Sheet.mk desk.made) := by
  cases hrows : ((definition.rowsFrom corpus around view index).run desk).result with
  | error e =>
    rw [run_recompute_of_error hwalk hrows]
    rfl
  | ok rows =>
    rw [run_recompute_of_ok hwalk hrows]
    rfl

/-- Beside what is reported of the rows, only the log hears of the computation. -/
theorem messages_recompute {index : Index}
    (hwalk : Index.ofDisk around.disk corpus.root = .ok index) (desk : Desk) :
    Event.messages ((definition.recompute corpus around view).run desk).events =
      Event.messages ((definition.rowsFrom corpus around view index).run desk).events := by
  cases hrows : ((definition.rowsFrom corpus around view index).run desk).result with
  | error e =>
    rw [run_recompute_of_error hwalk hrows]
    rfl
  | ok rows =>
    rw [run_recompute_of_ok hwalk hrows, Event.messages_append, Event.messages_append]
    change [] ++ (_ ++ Event.messages (around.sweepEvents desk.cache)) = _
    rw [Surroundings.messages_sweepEvents, List.append_nil, List.nil_append]

/-! ## Views by name -/

theorem mem_of_view {name : String} (h : definition.view name = .ok view) :
    view ∈ definition.views ∧ view.name = name := by
  unfold Definition.view at h
  split at h
  · next shown hfind =>
    cases h
    have hname : (view.name == name) = true :=
      List.find?_some (p := fun other : View => other.name == name) hfind
    exact ⟨List.mem_of_find?_eq_some hfind, beq_iff_eq.mp hname⟩
  · cases h

theorem view_error_iff {name : String} {e : Error} :
    definition.view name = .error e ↔
      e = .notFound .view name ∧ ∀ view ∈ definition.views, view.name ≠ name := by
  constructor
  · intro h
    unfold Definition.view at h
    split at h
    · cases h
    · next hfind =>
      cases h
      exact ⟨rfl, fun view hview hname =>
        List.find?_eq_none.mp hfind view hview (beq_iff_eq.mpr hname)⟩
  · rintro ⟨rfl, hnone⟩
    cases h : definition.view name with
    | ok view => exact absurd (mem_of_view h).2 (hnone view (mem_of_view h).1)
    | error e =>
      unfold Definition.view at h
      split at h
      · cases h
      · cases h
        rfl

theorem view_of_mem (h : view ∈ definition.views) :
    ∃ shown, definition.view view.name = .ok shown := by
  cases hfind : definition.views.find? fun other => other.name == view.name with
  | none => exact absurd (List.find?_eq_none.mp hfind view h) (by simp)
  | some shown => exact ⟨shown, by rw [Definition.view, hfind]⟩

/-! ## Calls -/

/-- A view that the definition does not have. -/
theorem run_materialize_of_unknown {name : String} {e : Error}
    (hview : definition.view name = .error e) (force : Bool) (desk : Desk) :
    (definition.materialize corpus around name force).run desk = ⟨.error e, [], desk⟩ := by
  rw [materialize, hview]
  rfl

/-- A forced call does not look at the cache. -/
theorem materialize_forced {name : String} (hview : definition.view name = .ok view) :
    definition.materialize corpus around name true = definition.recompute corpus around view := by
  rw [materialize, hview, Job.ofExcept, pure_bind]
  rfl

theorem run_cached (key : CacheKey) (desk : Desk) :
    (Desk.onCache (around.cached? key)).run desk =
      ⟨.ok (desk.cache.get around.ttl around.now key).1, around.sweepEvents desk.cache,
        { desk with cache := desk.cache.prune around.ttl around.now }⟩ := by
  unfold Desk.onCache Surroundings.cached?
  rw [run_onPart, run_get_bind, run_report_bind, run_modifyGet, List.append_nil]
  rfl

/-- A table that is found in the cache is given as it is; that is for the log only. -/
theorem run_materialize_of_hit {name : String} {desk : Desk} {sheet : Sheet}
    (hview : definition.view name = .ok view)
    (hhit : (desk.cache.get around.ttl around.now (definition.cacheKey corpus view)).1 =
      some sheet) :
    (definition.materialize corpus around name false).run desk =
      ⟨.ok sheet, around.sweepEvents desk.cache ++ [.log .debug "view served from cache"],
        { desk with cache := desk.cache.prune around.ttl around.now }⟩ := by
  rw [materialize, hview, Job.ofExcept, pure_bind, if_neg Bool.false_ne_true,
    run_bind_of_ok (by rw [run_cached]), run_cached, hhit]
  rfl

/-- If none is found, the view is computed with the cache swept. -/
theorem run_materialize_unforced {name : String} {desk : Desk}
    (hview : definition.view name = .ok view)
    (hmiss : (desk.cache.get around.ttl around.now (definition.cacheKey corpus view)).1 = none) :
    (definition.materialize corpus around name false).run desk =
      let swept := { desk with cache := desk.cache.prune around.ttl around.now }
      ⟨((definition.recompute corpus around view).run swept).result,
        around.sweepEvents desk.cache ++
          ((definition.recompute corpus around view).run swept).events,
        ((definition.recompute corpus around view).run swept).state⟩ := by
  rw [materialize, hview, Job.ofExcept, pure_bind, if_neg Bool.false_ne_true,
    run_bind_of_ok (by rw [run_cached]), run_cached, hmiss]

/-! ## Views that are not cached -/

/-- A view that is not taken from the cache is computed: at most the cache has been swept before. -/
theorem run_materialize_of_miss {name : String} {force : Bool} {desk : Desk}
    (hview : definition.view name = .ok view)
    (hmiss : force = true ∨
      (desk.cache.get around.ttl around.now (definition.cacheKey corpus view)).1 = none) :
    ∃ events before, Event.messages events = [] ∧ before.index = desk.index ∧
      before.made = desk.made ∧
      (definition.materialize corpus around name force).run desk =
        ⟨((definition.recompute corpus around view).run before).result,
          events ++ ((definition.recompute corpus around view).run before).events,
          ((definition.recompute corpus around view).run before).state⟩ := by
  cases force with
  | true => exact ⟨[], desk, rfl, rfl, rfl, by rw [materialize_forced hview]; rfl⟩
  | false =>
    exact ⟨around.sweepEvents desk.cache,
      { desk with cache := desk.cache.prune around.ttl around.now },
      around.messages_sweepEvents desk.cache, rfl, rfl,
      run_materialize_unforced hview (hmiss.resolve_left Bool.false_ne_true)⟩

/-- The rows of a view that is not taken from the cache. -/
theorem result_materialize_of_miss {name : String} {force : Bool} {desk : Desk} {index : Index}
    (hview : definition.view name = .ok view)
    (hmiss : force = true ∨
      (desk.cache.get around.ttl around.now (definition.cacheKey corpus view)).1 = none)
    (hwalk : Index.ofDisk around.disk corpus.root = .ok index) :
    ((definition.materialize corpus around name force).run desk).result =
      ((definition.rowsFrom corpus around view index).run desk).result.map
        (Sheet.mk desk.made) := by
  obtain ⟨events, before, -, -, hmade, hrun⟩ := run_materialize_of_miss hview hmiss
  rw [hrun, result_recompute hwalk, hmade]
  unfold rowsFrom
  rw [(detached_rows definition ⟨corpus, around.disk, index⟩ view).run_eq desk before]

/-- There are none if the walk fails. -/
theorem result_materialize_of_fault {name : String} {force : Bool} {desk : Desk}
    {fault : Disk.Fault} (hview : definition.view name = .ok view)
    (hmiss : force = true ∨
      (desk.cache.get around.ttl around.now (definition.cacheKey corpus view)).1 = none)
    (hwalk : Index.ofDisk around.disk corpus.root = .error fault) :
    ((definition.materialize corpus around name force).run desk).result = .error (.io fault) := by
  obtain ⟨events, before, -, -, -, hrun⟩ := run_materialize_of_miss hview hmiss
  rw [hrun, run_recompute_of_fault hwalk]

/-- A call that gives a table that was not in the cache has listed the files and computed it. -/
theorem rows_of_materialize_of_miss {name : String} {force : Bool} {desk : Desk} {sheet : Sheet}
    (hview : definition.view name = .ok view)
    (hmiss : force = true ∨
      (desk.cache.get around.ttl around.now (definition.cacheKey corpus view)).1 = none)
    (h : ((definition.materialize corpus around name force).run desk).result = .ok sheet) :
    ∃ index, Index.ofDisk around.disk corpus.root = .ok index ∧
      ((definition.rowsFrom corpus around view index).run desk).result = .ok sheet.rows := by
  cases hwalk : Index.ofDisk around.disk corpus.root with
  | error fault =>
    rw [result_materialize_of_fault hview hmiss hwalk] at h
    cases h
  | ok index =>
    rw [result_materialize_of_miss hview hmiss hwalk] at h
    cases hrows : ((definition.rowsFrom corpus around view index).run desk).result with
    | error e =>
      rw [hrows] at h
      cases h
    | ok rows =>
      rw [hrows] at h
      cases h
      exact ⟨index, rfl, hrows⟩

/-- The messages about a view that is not taken from the cache are those about its rows. -/
theorem messages_materialize_of_miss {name : String} {force : Bool} {desk : Desk} {index : Index}
    (hview : definition.view name = .ok view)
    (hmiss : force = true ∨
      (desk.cache.get around.ttl around.now (definition.cacheKey corpus view)).1 = none)
    (hwalk : Index.ofDisk around.disk corpus.root = .ok index) :
    Event.messages ((definition.materialize corpus around name force).run desk).events =
      Event.messages ((definition.rowsFrom corpus around view index).run desk).events := by
  obtain ⟨events, before, hevents, -, -, hrun⟩ := run_materialize_of_miss hview hmiss
  rw [hrun, Event.messages_append, hevents, messages_recompute hwalk, List.nil_append]
  unfold rowsFrom
  rw [(detached_rows definition ⟨corpus, around.disk, index⟩ view).run_eq desk before]

end Definition

end CorpusQuery

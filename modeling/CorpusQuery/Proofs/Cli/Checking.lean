import CorpusQuery.Cli.Run
import CorpusQuery.Proofs.View.Messages

/-!
# Checking definitions

The check of a definition looks at every filter as a whole (`Filter.mem_compileErrors_iff`), while a
view asks only some of its leaves of each document, up to the first one that decides. So a
definition that passes the check never shows a leaf that does not compile, whatever becomes of the
disk (`check_certifies_filters`).
-/

namespace CorpusQuery

open Job Event

/-- Events without a message that is worse than a hint. -/
def Event.Harmless (events : List Event) : Prop := ∀ m ∈ messages events, m.severity < .warning

instance (events : List Event) : Decidable (Harmless events) :=
  inferInstanceAs (Decidable (∀ m ∈ messages events, m.severity < .warning))

theorem Event.harmless_append {first second : List Event} :
    Harmless (first ++ second) ↔ Harmless first ∧ Harmless second := by
  simp only [Harmless, messages_append, List.mem_append, or_imp, forall_and]

theorem Event.not_any_warning (events : List Event) :
    (!(messages events).any fun m => Severity.warning ≤ m.severity) = decide (Harmless events) := by
  have hlt : ∀ severity : Severity, severity < .warning ↔ ¬Severity.warning ≤ severity := by
    intro severity
    cases severity <;> decide
  rw [Bool.eq_iff_iff]
  simp [Harmless, hlt]

namespace Filter

/-- A filter whose leaves all compile. -/
def Compiles (filter : Filter) : Prop :=
  ∀ leaf, filter.IsLeaf leaf → ∃ expr, Expr.compile leaf.source = .ok expr

theorem mem_compileErrors_iff (filter : Filter) (e : CompileError) :
    e ∈ filter.compileErrors ↔
      ∃ leaf, filter.IsLeaf leaf ∧ Expr.compile leaf.source = .error e := by
  refine compileErrors.induct
    (fun filter => e ∈ filter.compileErrors ↔
      ∃ leaf, filter.IsLeaf leaf ∧ Expr.compile leaf.source = .error e)
    (fun filters => e ∈ compileErrorsIn filters ↔
      ∃ filter ∈ filters, ∃ leaf, filter.IsLeaf leaf ∧ Expr.compile leaf.source = .error e)
    ?trivial ?compiled ?broken ?all ?any ?nil ?cons filter
  case trivial =>
    refine ⟨nofun, ?_⟩
    rintro ⟨leaf, h, -⟩
    cases h
  case compiled =>
    intro filter expr hcompiled
    have hsource := filter.compiled_eq.symm.trans hcompiled
    simp only [compileErrors, hcompiled, List.not_mem_nil, false_iff]
    rintro ⟨leaf, h, hbroken⟩
    cases h
    cases hsource.symm.trans hbroken
  case broken =>
    intro filter problem hcompiled
    have hsource := filter.compiled_eq.symm.trans hcompiled
    simp only [compileErrors, hcompiled, List.mem_singleton]
    constructor
    · rintro rfl
      exact ⟨filter, .field, hsource⟩
    · rintro ⟨leaf, h, hbroken⟩
      cases h
      cases hsource.symm.trans hbroken
      rfl
  case all =>
    intro children ih
    refine ih.trans ⟨?_, ?_⟩
    · rintro ⟨child, hmem, leaf, h, hbroken⟩
      exact ⟨leaf, .all hmem h, hbroken⟩
    · rintro ⟨leaf, h, hbroken⟩
      cases h with
      | all hmem h => exact ⟨_, hmem, leaf, h, hbroken⟩
  case any =>
    intro children ih
    refine ih.trans ⟨?_, ?_⟩
    · rintro ⟨child, hmem, leaf, h, hbroken⟩
      exact ⟨leaf, .any hmem h, hbroken⟩
    · rintro ⟨leaf, h, hbroken⟩
      cases h with
      | any hmem h => exact ⟨_, hmem, leaf, h, hbroken⟩
  case nil => simp [compileErrorsIn]
  case cons =>
    intro child children ih ihs
    simp only [compileErrorsIn, List.mem_append, ih, ihs, List.mem_cons, exists_eq_or_imp]

theorem compileErrors_eq_nil_iff (filter : Filter) :
    filter.compileErrors = [] ↔ filter.Compiles := by
  rw [List.eq_nil_iff_forall_not_mem]
  simp only [mem_compileErrors_iff]
  constructor
  · intro h leaf hleaf
    cases hcompile : Expr.compile leaf.source with
    | ok expr => exact ⟨expr, rfl⟩
    | error e => exact absurd ⟨leaf, hleaf, hcompile⟩ (h e)
  · rintro h e ⟨leaf, hleaf, hbroken⟩
    obtain ⟨expr, hcompile⟩ := h leaf hleaf
    cases hcompile.symm.trans hbroken

end Filter

namespace Definition

variable {σ : Type} {definition : Definition}

theorem load_eq_parse {corpus : Corpus} {disk : Disk} {base source : String} {relative : RelPath}
    (hpath : Path.normalize base = some relative)
    (hfile : disk.isFile corpus.root relative.text = true)
    (hread : disk.readText corpus.root relative.text = .ok source) :
    (load corpus disk base : Job σ _) = parse corpus relative.text source := by
  unfold load
  rw [hpath]
  dsimp only
  rw [if_pos hfile, hread]
  exact pure_bind _ _

/-- A definition without an expression in a filter, be it of all views or of one, that does not
compile. -/
def FiltersCompile (definition : Definition) : Prop :=
  definition.filter.Compiles ∧ ∀ view ∈ definition.views, view.filter.Compiles

theorem brokenFilters_eq_nil_iff : definition.brokenFilters = [] ↔ definition.FiltersCompile := by
  simp [brokenFilters, filters, FiltersCompile, Filter.compileErrors_eq_nil_iff]

/-- The report of a check never fails. It is a grave message for each expression that does not
compile. -/
theorem run_reportBroken (corpus : Corpus) (definition : Definition) (s : σ) :
    ∃ events, (definition.reportBroken corpus).run s = ⟨.ok (), events, s⟩ ∧
      messages events = definition.brokenFilters.map fun broken =>
        corpus.message .error s!"filter in {broken.1} does not compile" broken.2.message := by
  unfold reportBroken
  induction definition.brokenFilters with
  | nil => exact ⟨[], rfl, rfl⟩
  | cons broken rest ih =>
    obtain ⟨events, hrun, hmessages⟩ := ih
    refine ⟨(corpus.message .error s!"filter in {broken.1} does not compile"
      broken.2.message).events true ++ events, ?_, ?_⟩
    · rw [List.forM]
      exact (run_report_bind _ _ s).trans (by rw [hrun])
    · rw [messages_append, messages_events, hmessages]
      rfl

/-- Filters that compile are never reported as ones that could not be parsed, and a call never fails
for a leaf of theirs. -/
theorem FiltersCompile.materialize (h : definition.FiltersCompile) (corpus : Corpus)
    (around : Surroundings) (name : String) (force : Bool) (desk : Desk) :
    (∀ m ∈ messages ((definition.materialize corpus around name force).run desk).events,
        ¬m.Begins "could not parse filter") ∧
      ∀ e problem, ((definition.materialize corpus around name force).run desk).result = .error e →
        ¬e.OfCompile problem := by
  have hleaf : ∀ view ∈ definition.views, ∀ leaf problem,
      (definition.filter.both view.filter).IsLeaf leaf →
        Expr.compile leaf.source ≠ .error problem := by
    intro view hview leaf problem hleaf hbroken
    have hcompiles : ∃ expr, Expr.compile leaf.source = .ok expr := by
      rcases Filter.isLeaf_both hleaf with hleaf | hleaf
      · exact h.1 leaf hleaf
      · exact h.2 view hview leaf hleaf
    obtain ⟨expr, hcompile⟩ := hcompiles
    cases hcompile.symm.trans hbroken
  constructor
  · intro m hm hbegins
    obtain ⟨view, hview, hkind⟩ := reports_materialize hm
    obtain ⟨leaf, problem, hmem, hbroken⟩ := hkind.leaf_of_begins hbegins
    exact hleaf view hview leaf problem hmem hbroken
  · intro e problem hresult hcompile
    obtain ⟨view, hview, leaf, hmem, hbroken⟩ := compile_error_of_materialize hresult hcompile
    exact hleaf view hview leaf problem hmem hbroken

end Definition

namespace Workspace

theorem run_openCorpus_of_ok {w : Workspace} {cwd : Disk.Place} {name : String}
    {config : CorpusConfig} {corpus : Corpus} {index : Index}
    (hlocate : Corpus.locate w.disk cwd name config = .ok corpus)
    (hwalk : Index.ofDisk w.disk corpus.root = .ok index) :
    (openCorpus cwd name config).run w =
      ⟨.ok corpus, Index.listed, { w with corpora := w.corpora ++ [(corpus, index)] }⟩ := by
  have hrefresh : ((w.surroundings.refresh corpus).aside ⟨[]⟩ : Job Workspace _).run w =
      ⟨.ok ((), index), Index.listed, w⟩ := by
    have hrun : (w.surroundings.refresh corpus).run ⟨[]⟩ = ⟨.ok (), Index.listed, index⟩ :=
      Surroundings.run_refresh_of_ok hwalk _
    rw [run_aside, hrun]
    rfl
  rw [openCorpus, run_get_bind, hlocate]
  exact (run_bind_of_ok (congrArg Outcome.result hrefresh)).trans (by rw [hrefresh]; rfl)

end Workspace

namespace Cli.Host

/-- What opening a corpus and loading a definition from it leaves behind, on the disk of a host. -/
def opening (host : Host) (settings : Settings) (choice : CorpusChoice) (base : String) :
    Outcome Workspace (Corpus × Definition) :=
  (host.openDefinition choice base).run (Workspace.ofDisk settings host.disk)

theorem run_openCorpus_of_ok {host : Host} {settings : Settings} {choice : CorpusChoice}
    {corpus : Corpus} {index : Index}
    (hchoose : host.choose settings choice = .ok (corpus.name, corpus.config))
    (hlocate : Corpus.locate host.disk host.folder corpus.name corpus.config = .ok corpus)
    (hwalk : Index.ofDisk host.disk corpus.root = .ok index) :
    (host.openCorpus choice).run (Workspace.ofDisk settings host.disk) =
      ⟨.ok corpus, Index.listed,
        { Workspace.ofDisk settings host.disk with corpora := [(corpus, index)] }⟩ := by
  have hchosen : (Workspace.ofDisk settings host.disk).settings = settings := rfl
  rw [openCorpus, run_get_bind, hchosen, hchoose]
  exact Workspace.run_openCorpus_of_ok hlocate hwalk

theorem opening_of_text {host : Host} {settings : Settings} {choice : CorpusChoice} {base : String}
    {corpus : Corpus} {index : Index} {relative : RelPath} {source : String}
    (hchoose : host.choose settings choice = .ok (corpus.name, corpus.config))
    (hlocate : Corpus.locate host.disk host.folder corpus.name corpus.config = .ok corpus)
    (hwalk : Index.ofDisk host.disk corpus.root = .ok index)
    (hpath : Path.normalize base = some relative)
    (hfile : host.disk.isFile corpus.root relative.text = true)
    (hread : host.disk.readText corpus.root relative.text = .ok source) :
    let opened := { Workspace.ofDisk settings host.disk with corpora := [(corpus, index)] }
    let parsed := (Definition.parse corpus relative.text source).run opened
    host.opening settings choice base =
      ⟨parsed.result.map fun definition => (corpus, definition), Index.listed ++ parsed.events,
        parsed.state⟩ := by
  intro opened parsed
  have hopen : (host.openCorpus choice).run (Workspace.ofDisk settings host.disk) =
      ⟨.ok corpus, Index.listed, opened⟩ := run_openCorpus_of_ok hchoose hlocate hwalk
  have hload : (Definition.load corpus opened.disk base : Job Workspace _) =
      Definition.parse corpus relative.text source := Definition.load_eq_parse hpath hfile hread
  have hnext : (do pure (corpus, ← Definition.load corpus (← get).disk base)
      : Job Workspace (Corpus × Definition)).run opened =
      ⟨parsed.result.map fun definition => (corpus, definition), parsed.events, parsed.state⟩ := by
    rw [run_get_bind, hload, run_bind]
    simp only [parsed]
    rcases (Definition.parse corpus relative.text source).run opened with
      ⟨e | definition, events, after⟩ <;> simp [run_pure, Except.map]
  rw [opening, openDefinition, run_bind_of_ok (congrArg Outcome.result hopen), hopen]
  dsimp only
  rw [hnext]

theorem run_check_of_error {host : Host} {settings : Settings} {choice : CorpusChoice}
    {base : String} {e : Error} (h : (host.opening settings choice base).result = .error e) :
    ((host.check base choice).run (Workspace.ofDisk settings host.disk)).result = .error e := by
  have hlisten : ((host.openDefinition choice base).listen.run
      (Workspace.ofDisk settings host.disk)).result = .error e := by
    rw [run_listen]
    exact congrArg (Except.map _) h
  rw [check, run_bind_of_error hlisten]

theorem run_check_of_ok {host : Host} {settings : Settings} {choice : CorpusChoice} {base : String}
    {corpus : Corpus} {definition : Definition}
    (h : (host.opening settings choice base).result = .ok (corpus, definition)) :
    ∃ printed, ((host.check base choice).run (Workspace.ofDisk settings host.disk)).result =
        .ok printed ∧
      (printed.success = true ↔
        Harmless (host.opening settings choice base).events ∧ definition.FiltersCompile) := by
  have hlisten : ((host.openDefinition choice base).listen.run
      (Workspace.ofDisk settings host.disk)).result =
        .ok ((corpus, definition), (host.opening settings choice base).events) := by
    rw [run_listen]
    exact congrArg (Except.map _) h
  obtain ⟨reported, hreport, hmessages⟩ := definition.run_reportBroken corpus
    ((host.openDefinition choice base).listen.run (Workspace.ofDisk settings host.disk)).state
  have hchecking : ((definition.reportBroken corpus).listen.run
      ((host.openDefinition choice base).listen.run
        (Workspace.ofDisk settings host.disk)).state).result = .ok ((), reported) := by
    rw [run_listen, hreport]
    rfl
  have hharmless : Harmless reported ↔ definition.FiltersCompile := by
    rw [← Definition.brokenFilters_eq_nil_iff, Harmless, hmessages]
    cases definition.brokenFilters with
    | nil => simp
    | cons broken rest =>
      have hgrave : ¬Severity.error < .warning := by decide
      simp [Corpus.message, hgrave]
  rw [check, run_bind_of_ok hlisten]
  dsimp only
  rw [run_bind_of_ok hchecking]
  refine ⟨_, rfl, ?_⟩
  rw [not_any_warning, decide_eq_true_iff, harmless_append, hharmless]

/-- The check of a definition succeeds if and only if the definition is loaded without a message
worse than a hint and each expression in its filters compiles. If it does, then no view of the
definition, on any disk and in any corpus, be it as strict or not, is ever shown with a message that
a filter could not be parsed, or refused because an expression does not compile. -/
theorem check_certifies_filters (host : Host) (config : Option String) (verbose : Nat)
    (quiet : Bool) (base : String) (choice : CorpusChoice) :
    let reply := host.reply ⟨config, verbose, quiet, .check base choice⟩
    (reply.exit = 0 ↔
      ∃ settings corpus definition, host.settings config = .ok settings ∧
        (host.opening settings choice base).result = .ok (corpus, definition) ∧
        (∀ m ∈ messages (host.opening settings choice base).events, m.severity < .warning) ∧
        definition.filter.Compiles ∧ ∀ view ∈ definition.views, view.filter.Compiles) ∧
      (reply.exit = 0 → ∀ settings corpus definition, host.settings config = .ok settings →
        (host.opening settings choice base).result = .ok (corpus, definition) →
        ∀ (later : Corpus) (around : Surroundings) (name : String) (force : Bool) (desk : Desk),
          let shown := (definition.materialize later around name force).run desk
          (∀ m ∈ messages shown.events, ¬m.Begins "could not parse filter") ∧
            ∀ e problem, shown.result = .error e → ¬e.OfCompile problem) := by
  intro reply
  have hexit : reply.exit = 0 ↔
      ∃ settings corpus definition, host.settings config = .ok settings ∧
        (host.opening settings choice base).result = .ok (corpus, definition) ∧
        Harmless (host.opening settings choice base).events ∧ definition.FiltersCompile := by
    change (host.reply ⟨config, verbose, quiet, .check base choice⟩).exit = 0 ↔ _
    unfold Host.reply execute
    cases hsettings : host.settings config with
    | error e => simp
    | ok settings =>
      cases hopen : (host.opening settings choice base).result with
      | error e => simp [run_check_of_error hopen, hopen]
      | ok opened =>
        obtain ⟨corpus, definition⟩ := opened
        obtain ⟨printed, hrun, hsuccess⟩ := run_check_of_ok hopen
        simp [hrun, hsuccess, hopen]
  refine ⟨hexit, ?_⟩
  intro h settings corpus definition hsettings hopen later around name force desk
  obtain ⟨settings', corpus', definition', hsettings', hopen', -, hcompile⟩ := hexit.mp h
  cases hsettings.symm.trans hsettings'
  cases hopen.symm.trans hopen'
  exact hcompile.materialize later around name force desk

/-- The text of a definition whose view asks for one of two expressions. -/
def choiceText : String := "views:\n  - name: v\n    filters:\n      or: [file.name, price > 1]\n"

/-- A host with one definition in the folder `notes`. -/
def choiceHost : Host where
  disk := ⟨[("notes", .folder [("v.base", .file choiceText.toUTF8)])]⟩
  folder := []
  namedSettings := none
  defaultSettings := none
  completionScript := fun _ => ""

/-- The corpus in the folder `notes`. -/
def choiceCorpus : Corpus := ⟨"notes", ["notes"], { path := "notes" }⟩

/-- A host with a definition of the given text in the folder `notes`. -/
def notesHost (source : String) : Host where
  disk := ⟨[("notes", .folder [("v.base", .file source.toUTF8)])]⟩
  folder := []
  namedSettings := none
  defaultSettings := none
  completionScript := fun _ => ""

/-- What is left when its corpus has been opened. -/
def notesOpened (source : String) : Workspace :=
  { Workspace.ofDisk .empty (notesHost source).disk with
    corpora := [(choiceCorpus, ⟨[["v.base"]]⟩)] }

section Notes

variable (source : String)

theorem locate_notesHost :
    (notesHost source).disk.locate (notesHost source).folder "notes" = .ok choiceCorpus.root :=
  @Disk.locate_of_node? _ [] ["notes"] _ (by decide) (by decide +kernel) rfl nofun

theorem choose_notesHost :
    (notesHost source).choose .empty (.folder "notes") =
      .ok (choiceCorpus.name, choiceCorpus.config) := by
  have hfolder : (notesHost source).disk.isFolder (notesHost source).folder "notes" = true :=
    Disk.isFolder_of_find (Disk.find_of_locate (locate_notesHost source) rfl)
  rw [choose, if_pos hfolder, locate_notesHost]
  rfl

theorem corpus_notesHost :
    Corpus.locate (notesHost source).disk (notesHost source).folder choiceCorpus.name
      choiceCorpus.config = .ok choiceCorpus := by
  have hpath : choiceCorpus.config.path = "notes" := rfl
  rw [Corpus.locate, hpath, locate_notesHost]
  rfl

theorem ofDisk_notesHost :
    Index.ofDisk (notesHost source).disk choiceCorpus.root = .ok ⟨[["v.base"]]⟩ := by
  have hfiles : (notesHost source).disk.filesIn choiceCorpus.root []
      [("v.base", .file source.toUTF8)] = [["v.base"]] := by rfl
  rw [Index.ofDisk_of_folder rfl (by decide +kernel), hfiles, List.mergeSort_singleton]

theorem opening_notesHost :
    let parsed := (Definition.parse choiceCorpus "v.base" source).run (notesOpened source)
    (notesHost source).opening .empty (.folder "notes") "v.base" =
      ⟨parsed.result.map fun definition => (choiceCorpus, definition),
        Index.listed ++ parsed.events, parsed.state⟩ := by
  have hpath : Path.normalize "v.base" = some ["v.base"] := by decide +kernel
  have hplace : (notesHost source).disk.locate choiceCorpus.root (RelPath.text ["v.base"]) =
      .ok ["notes", "v.base"] :=
    Disk.locate_of_node? (by decide) (by decide +kernel) rfl nofun
  have hfind : (notesHost source).disk.find choiceCorpus.root (RelPath.text ["v.base"]) =
      .ok (.file source.toUTF8) := Disk.find_of_locate hplace rfl
  have htext : RelPath.text ["v.base"] = "v.base" := by decide +kernel
  have hopening := opening_of_text (choose_notesHost source) (corpus_notesHost source)
    (ofDisk_notesHost source) hpath (Disk.isFile_of_find hfind) (Disk.readText_of_find hfind)
  rw [htext] at hopening
  exact hopening

end Notes

theorem opening_choiceHost :
    ∃ definition,
      (choiceHost.opening .empty (.folder "notes") "v.base").result =
        .ok (choiceCorpus, definition) ∧
      Harmless (choiceHost.opening .empty (.folder "notes") "v.base").events ∧
      definition.FiltersCompile := by
  have hparse : (match ((Definition.parse choiceCorpus "v.base" choiceText).run
      (notesOpened choiceText)).result with
      | .ok definition => definition.brokenFilters.isEmpty
      | .error _ => false) = true := by
    decide +kernel
  have hharmless : Harmless (Index.listed ++ ((Definition.parse choiceCorpus "v.base"
      choiceText).run (notesOpened choiceText)).events) := by
    decide +kernel
  have hhost : choiceHost = notesHost choiceText := rfl
  rw [hhost, opening_notesHost]
  dsimp only
  cases hresult : ((Definition.parse choiceCorpus "v.base" choiceText).run
      (notesOpened choiceText)).result with
  | error e =>
    rw [hresult] at hparse
    cases hparse
  | ok definition =>
    rw [hresult] at hparse
    have hbroken : definition.brokenFilters = [] := List.isEmpty_iff.mp hparse
    exact ⟨definition, rfl, hharmless, Definition.brokenFilters_eq_nil_iff.mp hbroken⟩

theorem check_certifies_filters_of_choice :
    (choiceHost.reply ⟨none, 0, false, .check "v.base" (.folder "notes")⟩).exit = 0 ∧
      ∃ definition,
        (choiceHost.opening .empty (.folder "notes") "v.base").result =
          .ok (choiceCorpus, definition) ∧
        ∀ (later : Corpus) (around : Surroundings) (name : String) (force : Bool) (desk : Desk),
          ∀ m ∈ messages ((definition.materialize later around name force).run desk).events,
            ¬m.Begins "could not parse filter" := by
  obtain ⟨definition, hopen, hharmless, hcompile⟩ := opening_choiceHost
  obtain ⟨hiff, hcertified⟩ :=
    check_certifies_filters choiceHost none 0 false "v.base" (.folder "notes")
  have hexit := hiff.mpr ⟨.empty, choiceCorpus, definition, rfl, hopen, hharmless, hcompile⟩
  exact ⟨hexit, definition, hopen, fun later around name force desk =>
    (hcertified hexit .empty choiceCorpus definition rfl hopen later around name force desk).1⟩

end Cli.Host

end CorpusQuery

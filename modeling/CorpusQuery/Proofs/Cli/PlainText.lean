import CorpusQuery.Proofs.Cli.Checking
import CorpusQuery.Proofs.Definition.Stepwise
import CorpusQuery.Proofs.Text.Pieces

/-!
# Plain output

Tables and values are printed as they are, with tabs between the texts of a line and a line feed
behind it. So the output is taken apart again exactly if no text that is printed has one of these
two in it (`tabulates_iff`, `listsResults_iff`). A text from a note or an expression may have them.
-/

namespace CorpusQuery.Cli

open Job Text

variable {rows : List Row} {results : List (String × Except Error Value)}
  {lines cells : List String}

/-! ## Lines -/

/-- The lines of an output, each of which ends with a line feed. -/
def printedLines (output : String) : List String := (splitString '\n' output).dropLast

theorem unlines_cons (line : String) (lines : List String) :
    unlines (line :: lines) = line ++ "\n" ++ unlines lines := by
  rw [unlines, List.map_cons, String.join_cons]
  rfl

theorem unlines_eq_intercalate (lines : List String) :
    unlines lines = String.intercalate (String.ofList ['\n']) (lines ++ [""]) := by
  induction lines with
  | nil => rfl
  | cons line lines ih =>
    rw [unlines_cons, ih, List.cons_append, String.intercalate_cons_of_ne_nil (by simp)]

/-- Lines without line feeds in them are printed as they are. -/
theorem printedLines_unlines (h : ∀ line ∈ lines, '\n' ∉ line.toList) :
    printedLines (unlines lines) = lines := by
  have hwords : ∀ word ∈ lines ++ [""], '\n' ∉ word.toList := by
    intro word hword
    rcases List.mem_append.mp hword with hline | hend
    · exact h word hline
    · rw [List.mem_singleton.mp hend]
      exact List.not_mem_nil
  have hsplit := splitString_intercalate_iff.mpr ⟨by simp, hwords⟩
  rw [printedLines, unlines_eq_intercalate, hsplit, List.dropLast_concat]

theorem length_printedLines (output : String) :
    (printedLines output).length = output.toList.count '\n' := by
  rw [printedLines, List.length_dropLast, length_splitString, Nat.add_sub_cancel]

/-- There is a line for each of the lines that are printed, and one for each line feed in them. -/
theorem length_printedLines_unlines (lines : List String) :
    (printedLines (unlines lines)).length =
      lines.length + (lines.map fun line => line.toList.count '\n').sum := by
  rw [length_printedLines]
  induction lines with
  | nil => rfl
  | cons line lines ih =>
    have hend : "\n".toList.count '\n' = 1 := rfl
    rw [unlines_cons, String.toList_append, String.toList_append, List.count_append,
      List.count_append, ih, hend, List.map_cons, List.sum_cons, List.length_cons]
    omega

theorem length_printedLines_unlines_iff :
    (printedLines (unlines lines)).length = lines.length ↔
      ∀ line ∈ lines, '\n' ∉ line.toList := by
  rw [length_printedLines_unlines, Nat.add_eq_left, List.sum_eq_zero_iff]
  simp only [List.forall_mem_map, List.count_eq_zero]

/-- A line has a line feed in it if one of its cells has. -/
theorem mem_tableLine_iff :
    '\n' ∈ (tableLine cells).toList ↔ ∃ cell ∈ cells, '\n' ∈ cell.toList := by
  induction cells with
  | nil => simp [tableLine]
  | cons cell cells ih =>
    rcases eq_or_ne cells [] with rfl | hne
    · simp [tableLine]
    · have hline : tableLine (cell :: cells) = cell ++ "\t" ++ tableLine cells :=
        String.intercalate_cons_of_ne_nil hne
      simp [hline, ih]

/-! ## Tables -/

/-- The texts of the cells of a row. -/
def cellTexts (row : Row) : List String := row.cells.map fun cell => cellText cell.2

/-- An output with a line for the columns and a line for each row, from which the texts of the cells
are got back at the tabs. -/
def Tabulates (rows : List Row) (output : String) : Prop :=
  ∃ heading lines, printedLines output = heading :: lines ∧
    lines.map (splitString '\t') = rows.map cellTexts

/-- The lines of a table. -/
def tableLines (first : Row) (rows : List Row) : List String :=
  tableLine first.keys :: rows.map fun row => tableLine (cellTexts row)

theorem tableText_cons (first : Row) (rest : List Row) :
    tableText (first :: rest) = unlines (tableLines first (first :: rest)) := rfl

theorem not_mem_tableLines_iff {first : Row} :
    (∀ line ∈ tableLines first rows, '\n' ∉ line.toList) ↔
      (∀ key ∈ first.keys, '\n' ∉ key.toList) ∧
        ∀ row ∈ rows, '\n' ∉ (tableLine (cellTexts row)).toList := by
  rw [tableLines, List.forall_mem_cons, List.forall_mem_map, mem_tableLine_iff]
  simp

/-- The cells of a row are got back from its line, and it is one line, exactly if there are any and
no tab and no line feed is in them. -/
theorem splitString_tableLine_iff :
    splitString '\t' (tableLine cells) = cells ∧ '\n' ∉ (tableLine cells).toList ↔
      cells ≠ [] ∧ ∀ cell ∈ cells, '\t' ∉ cell.toList ∧ '\n' ∉ cell.toList := by
  have hsplit : splitString '\t' (tableLine cells) = cells ↔
      cells ≠ [] ∧ ∀ cell ∈ cells, '\t' ∉ cell.toList := splitString_intercalate_iff
  have hline : '\n' ∉ (tableLine cells).toList ↔ ∀ cell ∈ cells, '\n' ∉ cell.toList := by
    rw [mem_tableLine_iff]
    simp
  rw [hsplit, hline, and_assoc, ← forall₂_and]

/-- A table is taken apart again exactly if there are texts in each row, and they have no tabs and
no line feeds; a tab in a heading does no harm. -/
theorem tabulates_iff {first : Row} {rest : List Row} :
    Tabulates (first :: rest) (tableText (first :: rest)) ↔
      (∀ key ∈ first.keys, '\n' ∉ key.toList) ∧
        ∀ row ∈ first :: rest, cellTexts row ≠ [] ∧
          ∀ text ∈ cellTexts row, '\t' ∉ text.toList ∧ '\n' ∉ text.toList := by
  rw [tableText_cons]
  generalize first :: rest = rows
  constructor
  · rintro ⟨heading, lines, hprinted, hcells⟩
    have hrows : lines.length = rows.length := by simpa using congrArg List.length hcells
    have hlength : (printedLines (unlines (tableLines first rows))).length =
        (tableLines first rows).length := by
      rw [hprinted, tableLines, List.length_cons, List.length_cons, List.length_map, hrows]
    have hplain := length_printedLines_unlines_iff.mp hlength
    obtain ⟨-, rfl⟩ := List.cons.inj (hprinted.symm.trans (printedLines_unlines hplain))
    rw [List.map_map, List.map_inj_left] at hcells
    obtain ⟨hkeys, hlines⟩ := not_mem_tableLines_iff.mp hplain
    exact ⟨hkeys, fun row hrow => splitString_tableLine_iff.mp ⟨hcells row hrow, hlines row hrow⟩⟩
  · rintro ⟨hkeys, hrows⟩
    have hrow := fun row hrow => splitString_tableLine_iff.mpr (hrows row hrow)
    have hplain := not_mem_tableLines_iff.mpr ⟨hkeys, fun row h => (hrow row h).2⟩
    refine ⟨_, _, printedLines_unlines hplain, ?_⟩
    rw [List.map_map]
    exact List.map_congr_left fun row h => (hrow row h).1

/-! ## Values of expressions -/

/-- What is shown of the value of an expression, or of why there is none. -/
def shownResult : Except Error Value → String
  | .ok value => cellText value
  | .error e => "error: " ++ e.message

theorem evaluationLine_eq (result : String × Except Error Value) :
    Host.evaluationLine result = tableLine [result.1, shownResult result.2] := by
  rcases result with ⟨path, e | value⟩ <;> rfl

/-- An output with a line for each document, which begins with its path and a tab. -/
def ListsResults (results : List (String × Except Error Value)) (output : String) : Prop :=
  List.Forall₂ (fun result line => (result.1 ++ "\t").toList <+: line.toList) results
    (printedLines output)

theorem listsResults_iff :
    ListsResults results (unlines (results.map Host.evaluationLine)) ↔
      ∀ result ∈ results, '\n' ∉ result.1.toList ∧ '\n' ∉ (shownResult result.2).toList := by
  have hlines : (∀ line ∈ results.map Host.evaluationLine, '\n' ∉ line.toList) ↔
      ∀ result ∈ results, '\n' ∉ result.1.toList ∧ '\n' ∉ (shownResult result.2).toList := by
    rw [List.forall_mem_map]
    refine forall₂_congr fun result _ => ?_
    rw [evaluationLine_eq, mem_tableLine_iff]
    simp
  rw [← hlines]
  constructor
  · intro h
    rw [← length_printedLines_unlines_iff, List.length_map]
    exact h.length_eq.symm
  · intro h
    rw [ListsResults, printedLines_unlines h, List.forall₂_map_right_iff, List.forall₂_same]
    intro result _
    rw [evaluationLine_eq]
    exact ⟨(shownResult result.2).toList, by simp [tableLine]⟩

/-! ## What commands print -/

namespace Host

variable {host : Host} {settings : Settings} {choice : CorpusChoice} {corpus : Corpus}

/-- The reply to a command that needs the settings and succeeds. -/
theorem reply_of_ok (request : Request) {printed : Printed}
    (hcommand : ∀ shell, request.command ≠ .completions shell)
    (hsettings : host.settings request.config = .ok settings)
    (hresult : ((host.execute request.command).run (Workspace.ofDisk settings host.disk)).result =
      .ok printed) :
    (host.reply request).exit = (if printed.success then 0 else 1) ∧
      (host.reply request).output = printed.text := by
  unfold reply
  split
  · next shell hshell => exact absurd hshell (hcommand shell)
  · simp [hsettings, hresult]

theorem result_showView {base name : String} {view : Option String} {refresh : Bool}
    {definition : Definition} {sheet : Sheet}
    (hopen : (host.opening settings choice base).result = .ok (corpus, definition))
    (hname : viewName definition base view = .ok name)
    (hsheet : ((Workspace.materialize corpus definition name refresh).run
      (host.opening settings choice base).state).result = .ok sheet) :
    ((host.showView base view choice false refresh).run
      (Workspace.ofDisk settings host.disk)).result = .ok { text := tableText sheet.rows } := by
  have hok : (Job.ofExcept (.ok name) : Job Workspace String) = pure name := rfl
  rw [opening] at hopen hsheet
  rw [showView, run_bind_of_ok hopen]
  dsimp only
  rw [hname, hok, pure_bind, run_bind_of_ok hsheet]
  rfl

/-- A document of a corpus by its path, with the value of an expression for it. -/
def documentValue (snapshot : Snapshot) (expr : Expr) (file : RelPath) :
    String × Except Error Value :=
  let doc := Document.ofPath snapshot.corpus file
  (doc.path, ((expr.evaluate (doc.scope snapshot)).run none).result)

/-- The evaluation for all documents never fails: an error is the outcome for its document only. -/
theorem result_evaluateAll (snapshot : Snapshot) (expr : Expr) (files : List RelPath)
    (w : Workspace) :
    ((evaluateAll snapshot expr files).run w).result =
      .ok (files.map (documentValue snapshot expr)) := by
  induction files generalizing w with
  | nil => rfl
  | cons file files ih =>
    have hfirst (value : Document.Reading Value) :
        ((value.attempt.aside none : Job Workspace _).run w).result =
          .ok ((value.run none).result, (value.run none).state) := rfl
    rw [evaluateAll, run_bind_of_ok (hfirst _), run_bind_of_ok (ih _)]
    rfl

/-- What opening a corpus leaves behind, on the disk of a host. -/
def opened (host : Host) (settings : Settings) (choice : CorpusChoice) :
    Outcome Workspace Corpus :=
  (host.openCorpus choice).run (Workspace.ofDisk settings host.disk)

theorem result_eval {source : String} {expr : Expr} (hcompile : Expr.compile source = .ok expr)
    (hopen : (host.opened settings choice).result = .ok corpus) :
    let snapshot := (host.opened settings choice).state.snapshot corpus
    let results := snapshot.index.files.map (documentValue snapshot expr)
    ((host.eval source choice false).run (Workspace.ofDisk settings host.disk)).result =
      .ok { text := unlines (results.map evaluationLine) } := by
  intro snapshot results
  have hok : (Job.ofExcept ((Except.ok expr : Except CompileError Expr).mapError .compile) :
      Job Workspace Expr) = pure expr := rfl
  have hvalues := result_evaluateAll snapshot expr snapshot.index.files
    (host.opened settings choice).state
  rw [opened] at hopen hvalues
  rw [eval, hcompile, hok, pure_bind, run_bind_of_ok hopen, run_get_bind]
  exact congrArg Outcome.result (run_bind_of_ok hvalues)

/-- Plain output has its lines and cells exactly if no text in it breaks them. A view with rows is
printed as a line for the columns and a line for each row, from which the texts of the cells are got
back at the tabs, if and only if there are cells, no tab and no line feed is in the text of one, and
no line feed is in a heading. The values of an expression are printed as a line for each document,
which begins with its path and a tab, if and only if no line feed is in a path, in the text of a
value or in an error. -/
theorem plain_output_by_lines (host : Host) (config : Option String) (verbose : Nat)
    (quiet : Bool) (choice : CorpusChoice) {settings : Settings}
    (hsettings : host.settings config = .ok settings) :
    (∀ base view refresh corpus definition name sheet first rest,
      (host.opening settings choice base).result = .ok (corpus, definition) →
      viewName definition base view = .ok name →
      ((Workspace.materialize corpus definition name refresh).run
        (host.opening settings choice base).state).result = .ok sheet →
      sheet.rows = first :: rest →
      let reply := host.reply ⟨config, verbose, quiet, .view base view choice false refresh⟩
      reply.exit = 0 ∧
        (Tabulates sheet.rows reply.output ↔
          (∀ key ∈ first.keys, '\n' ∉ key.toList) ∧
            ∀ row ∈ sheet.rows, cellTexts row ≠ [] ∧
              ∀ text ∈ cellTexts row, '\t' ∉ text.toList ∧ '\n' ∉ text.toList)) ∧
      ∀ source expr corpus, Expr.compile source = .ok expr →
        (host.opened settings choice).result = .ok corpus →
        let snapshot := (host.opened settings choice).state.snapshot corpus
        let results := snapshot.index.files.map (documentValue snapshot expr)
        let reply := host.reply ⟨config, verbose, quiet, .eval source choice false⟩
        reply.exit = 0 ∧
          (ListsResults results reply.output ↔
            ∀ result ∈ results,
              '\n' ∉ result.1.toList ∧ '\n' ∉ (shownResult result.2).toList) := by
  constructor
  · intro base view refresh corpus definition name sheet first rest hopen hname hsheet hrows reply
    obtain ⟨hexit, houtput⟩ := reply_of_ok
      ⟨config, verbose, quiet, .view base view choice false refresh⟩ nofun hsettings
      (result_showView hopen hname hsheet)
    refine ⟨hexit, ?_⟩
    rw [houtput, hrows]
    exact tabulates_iff
  · intro source expr corpus hcompile hopen snapshot results reply
    obtain ⟨hexit, houtput⟩ := reply_of_ok ⟨config, verbose, quiet, .eval source choice false⟩
      nofun hsettings (result_eval hcompile hopen)
    refine ⟨hexit, ?_⟩
    rw [houtput]
    exact listsResults_iff

/-- A definition with a view of two columns. -/
def columnsText : String := "views:\n  - name: v\n    order: [file.path, file.ext]\n"

theorem opened_notesHost (source : String) :
    (notesHost source).opened .empty (.folder "notes") =
      ⟨.ok choiceCorpus, Index.listed, notesOpened source⟩ :=
  run_openCorpus_of_ok (choose_notesHost source) (corpus_notesHost source)
    (ofDisk_notesHost source)

/-- The view of the two columns has one row. -/
theorem exists_row_of_columns :
    ∃ definition sheet row,
      ((notesHost columnsText).opening .empty (.folder "notes") "v.base").result =
        .ok (choiceCorpus, definition) ∧
      ((Workspace.materialize choiceCorpus definition "v" true).run
        ((notesHost columnsText).opening .empty (.folder "notes") "v.base").state).result =
          .ok sheet ∧
      sheet.rows = [row] ∧ row.keys = ["file.path", "file.ext"] ∧
      cellTexts row = ["v.base", "base"] := by
  have hshown : (match ((Definition.parse choiceCorpus "v.base" columnsText).run
      (notesOpened columnsText)).result with
      | .ok definition =>
        match definition.view "v" with
        | .ok view =>
          match ((definition.rowsFrom choiceCorpus (notesOpened columnsText).surroundings view
            ⟨[["v.base"]]⟩).run ((notesOpened columnsText).desk choiceCorpus)).result with
          | .ok rows => rows.map fun row => (row.keys, cellTexts row)
          | .error _ => []
        | .error _ => []
      | .error _ => []) = [(["file.path", "file.ext"], ["v.base", "base"])] := by
    decide +kernel
  have hstate : ((Definition.parse choiceCorpus "v.base" columnsText).run
      (notesOpened columnsText)).state = notesOpened columnsText := by
    rw [(Definition.detached_parse choiceCorpus "v.base" columnsText).run_eq
      (notesOpened columnsText) (notesOpened columnsText)]
  rw [opening_notesHost]
  dsimp only
  cases hparse : ((Definition.parse choiceCorpus "v.base" columnsText).run
      (notesOpened columnsText)).result with
  | error e =>
    rw [hparse] at hshown
    cases hshown
  | ok definition =>
    rw [hparse] at hshown
    dsimp only at hshown
    cases hview : definition.view "v" with
    | error e =>
      rw [hview] at hshown
      cases hshown
    | ok view =>
      have hsheet := @Definition.result_materialize_of_miss _ _
        (notesOpened columnsText).surroundings _ _ true
        ((notesOpened columnsText).desk choiceCorpus) _ hview (.inl rfl)
        (ofDisk_notesHost columnsText)
      rw [hview] at hshown
      dsimp only at hshown
      cases hrows : ((definition.rowsFrom choiceCorpus (notesOpened columnsText).surroundings view
          ⟨[["v.base"]]⟩).run ((notesOpened columnsText).desk choiceCorpus)).result with
      | error e =>
        rw [hrows] at hshown
        cases hshown
      | ok rows =>
        rw [hrows] at hshown hsheet
        obtain ⟨row, rfl, hrow⟩ := List.map_eq_singleton_iff.mp hshown
        obtain ⟨hkeys, htexts⟩ := Prod.mk.inj hrow
        refine ⟨definition, ⟨0, [row]⟩, row, rfl, ?_, rfl, hkeys, htexts⟩
        rw [hstate]
        exact hsheet

/-- A table of two columns, and the values of an expression. -/
theorem plain_output_by_lines_of_columns :
    ∃ definition sheet,
      ((notesHost columnsText).opening .empty (.folder "notes") "v.base").result =
        .ok (choiceCorpus, definition) ∧
      ((Workspace.materialize choiceCorpus definition "v" true).run
        ((notesHost columnsText).opening .empty (.folder "notes") "v.base").state).result =
          .ok sheet ∧
      Tabulates sheet.rows ((notesHost columnsText).reply
        ⟨none, 0, false, .view "v.base" (some "v") (.folder "notes") false true⟩).output ∧
      ListsResults [("v.base", .ok (.str "base"))] ((notesHost columnsText).reply
        ⟨none, 0, false, .eval "file.ext" (.folder "notes") false⟩).output := by
  obtain ⟨definition, sheet, row, hopen, hsheet, hrows, hkeys, htexts⟩ := exists_row_of_columns
  obtain ⟨hviews, hvalues⟩ :=
    @plain_output_by_lines (notesHost columnsText) none 0 false (.folder "notes") .empty rfl
  refine ⟨definition, sheet, hopen, hsheet, ?_, ?_⟩
  · refine (hviews _ _ true _ _ _ _ _ _ hopen rfl hsheet hrows).2.mpr ⟨?_, fun other hother => ?_⟩
    · rw [hkeys]
      decide
    · rw [hrows] at hother
      rw [List.mem_singleton.mp hother, htexts]
      decide
  · have hcompile : Expr.compile "file.ext" = .ok (.attr ["file", "ext"]) := rfl
    have hopened := opened_notesHost columnsText
    have hplain := (hvalues _ _ _ hcompile (congrArg Outcome.result hopened)).2
    rw [hopened] at hplain
    refine hplain.mpr fun result hresult => ?_
    obtain rfl : result = ("v.base", .ok (.str "base")) := List.mem_singleton.mp hresult
    decide

/-- A line feed in the value of an expression makes two lines of one, and a tab in a cell two cells
of one. -/
theorem not_plain_output_by_lines :
    let host := notesHost columnsText
    let reply := host.reply ⟨none, 0, false, .eval "\"first\\nsecond\"" (.folder "notes") false⟩
    (host.opened .empty (.folder "notes")).result = .ok choiceCorpus ∧
      reply.output = "v.base\tfirst\nsecond\n" ∧
      ¬ListsResults [("v.base", .ok (.str "first\nsecond"))] reply.output ∧
      ¬Tabulates [⟨[("summary", .str "first\tsecond")]⟩]
        (tableText [⟨[("summary", .str "first\tsecond")]⟩]) := by
  intro host reply
  have hopened := opened_notesHost columnsText
  have hcompile : Expr.compile "\"first\\nsecond\"" = .ok (.literal (.str "first\nsecond")) := rfl
  have hopen := congrArg Outcome.result hopened
  obtain ⟨-, houtput⟩ := reply_of_ok
    ⟨none, 0, false, .eval "\"first\\nsecond\"" (.folder "notes") false⟩ nofun rfl
    (result_eval hcompile hopen)
  rw [hopened] at houtput
  have htext : reply.output = "v.base\tfirst\nsecond\n" := houtput
  refine ⟨hopen, htext, fun h => ?_, fun h => ?_⟩
  · rw [htext] at h
    exact absurd h.length_eq (by decide)
  · obtain ⟨-, hcells⟩ := tabulates_iff.mp h
    exact (hcells _ List.mem_cons_self).2 _ List.mem_cons_self |>.1 (by decide)

end Host

end CorpusQuery.Cli

import CorpusQuery.Proofs.Definition.Stepwise
import CorpusQuery.Proofs.Job.Paired

/-!
# Definitions in strict and in lenient corpora

A text is read as a definition in a corpus that is strict about everything and in one that is strict
about nothing. Either both readings are the same and report no message, or the strict one fails with
the problem that the first message of the lenient one is about (`readAlike_parse`).
-/

namespace CorpusQuery

open Job

/-- The corpus with both kinds of strictness set or not set. -/
def Corpus.withStrictness (corpus : Corpus) (strict : Bool) : Corpus :=
  { corpus with
    config := { corpus.config with strictDefinitions := strict, strictFields := strict } }

@[simp] theorem Corpus.strictDefinitions_withStrictness (corpus : Corpus) (strict : Bool) :
    (corpus.withStrictness strict).strictDefinitions = strict := rfl

@[simp] theorem Corpus.strictFields_withStrictness (corpus : Corpus) (strict : Bool) :
    (corpus.withStrictness strict).strictFields = strict := rfl

/-- An error of reading a definition, and a message whose details tell of the same problem. -/
inductive Error.ToldIn : Error → Message → Prop
  | definition {problem : ShapeProblem} {m : Message} (details_eq : m.details = problem.message) :
      ToldIn (.definition problem) m
  | compile {e : CompileError} {m : Message} (details_eq : m.details = e.message) :
      ToldIn (.compile e) m

namespace Definition

variable {σ : Type}

/-! ## Steps -/

/-- A strict and a lenient reading of the same part of a definition. -/
abbrev ReadAlike (corpus : Corpus) {α : Type} (read : Corpus → Job σ α) : Prop :=
  Job.Paired (fun _ => true) Error.ToldIn
    (read (corpus.withStrictness true)) (read (corpus.withStrictness false))

theorem readAlike_refuse (corpus : Corpus) (title : String) (problem : ShapeProblem) :
    ReadAlike (σ := σ) corpus fun corpus => corpus.refuse title problem :=
  Paired.refuse (.definition rfl) fun s => ⟨[], complaints_notify rfl s⟩

theorem readAlike_formula (corpus : Corpus) (name source : String) :
    ReadAlike (σ := σ) corpus fun corpus => readFormula corpus name source := by
  unfold ReadAlike readFormula
  cases Expr.compile source with
  | ok expr => exact .pure _
  | error e =>
    exact Paired.refuse (.compile rfl) fun s => complaints_notify_bind rfl s

theorem stepwise_readAlike (corpus : Corpus) :
    Stepwise (σ := σ) fun read => ReadAlike corpus read where
  pure := .pure
  log level text := (Quiet.log level text).paired
  refuse := readAlike_refuse corpus
  formula := readAlike_formula corpus
  bind := .bind

/-! ## Whole definitions -/

theorem readAlike_parse (corpus : Corpus) (path source : String) :
    ReadAlike (σ := σ) corpus fun corpus => parse corpus path source := by
  intro s
  cases hentries : entriesOf path source with
  | error e =>
    rw [run_parse_of_error hentries, run_parse_of_error hentries]
    exact .same rfl rfl
  | ok entries =>
    rw [run_parse_of_ok hentries, run_parse_of_ok hentries]
    exact (stepwise_readAlike corpus).ofEntries path entries s

/-- What a strict corpus reads, a lenient one reads as well. -/
theorem parse_lenient_of_strict {corpus : Corpus} {path source : String} {definition : Definition}
    {s : σ}
    (h : ((parse (corpus.withStrictness true) path source).run s).result = .ok definition) :
    ((parse (corpus.withStrictness false) path source).run s).result = .ok definition := by
  rw [← (readAlike_parse corpus path source).run_eq_of_ok h, h]

/-- Every message is among the complaints if all messages count as complaints. -/
theorem complaints_all (events : List Event) :
    Event.complaints (fun _ => true) events = Event.messages events :=
  List.filter_eq_self.mpr fun _ _ => rfl

/-- A strict corpus reads exactly the texts that a lenient one reads without a message, and reads
the same definition in them. Where only the lenient one succeeds, the strict error is what the first
message of the lenient reading tells in its details. Strict readings report nothing. -/
theorem strict_parse_tells_first_message (corpus : Corpus) (path source : String) (s : σ) :
    let strict := (parse (corpus.withStrictness true) path source).run s
    let lenient := (parse (corpus.withStrictness false) path source).run s
    ((∃ definition, strict.result = .ok definition) ↔
        (∃ definition, lenient.result = .ok definition) ∧ Event.messages lenient.events = []) ∧
      (∀ definition, strict.result = .ok definition → lenient.result = .ok definition) ∧
      (∀ e definition, strict.result = .error e → lenient.result = .ok definition →
        ∃ m others, Event.messages lenient.events = m :: others ∧ e.ToldIn m) ∧
      Event.messages strict.events = [] := by
  intro strict lenient
  rcases readAlike_parse corpus path source s with
    ⟨heq, hquiet⟩ | ⟨e, m, others, hfails, hsilent, hfirst, htold⟩
  · rw [complaints_all] at hquiet
    change strict = lenient at heq
    refine ⟨?_, fun definition h => ?_, fun e definition hstrict hlenient => ?_, ?_⟩
    · rw [heq]
      exact ⟨fun h => ⟨h, hquiet⟩, fun h => h.1⟩
    · rwa [← heq]
    · rw [heq, hlenient] at hstrict
      cases hstrict
    · rw [heq]
      exact hquiet
  · rw [complaints_all] at hsilent hfirst
    change strict.result = .error e at hfails
    refine ⟨⟨?_, ?_⟩, fun definition h => ?_, fun e' definition hstrict _ => ?_, hsilent⟩
    · rintro ⟨definition, h⟩
      rw [hfails] at h
      cases h
    · rintro ⟨-, hnone⟩
      rw [hfirst] at hnone
      cases hnone
    · rw [hfails] at h
      cases h
    · rw [hfails] at hstrict
      cases hstrict
      exact ⟨m, others, hfirst, htold⟩

/-- A number where views should be. -/
theorem strict_parse_tells_first_message_of_number :
    ∃ e m others,
      ((parse (Corpus.withStrictness ⟨"notes", [], {}⟩ true) "v.base" "views: 5\n").run ()).result =
        .error e ∧
      Event.messages ((parse (Corpus.withStrictness ⟨"notes", [], {}⟩ false) "v.base"
        "views: 5\n").run ()).events = m :: others ∧
      e.ToldIn m := by
  have hstrict : (match ((parse (Corpus.withStrictness ⟨"notes", [], {}⟩ true) "v.base"
      "views: 5\n").run ()).result with
      | .ok _ => false
      | .error _ => true) = true := by
    decide +kernel
  have hlenient : (match ((parse (Corpus.withStrictness ⟨"notes", [], {}⟩ false) "v.base"
      "views: 5\n").run ()).result with
      | .ok _ => true
      | .error _ => false) = true := by
    decide +kernel
  obtain ⟨-, -, hfails, -⟩ :=
    strict_parse_tells_first_message ⟨"notes", [], {}⟩ "v.base" "views: 5\n" ()
  cases he : ((parse (Corpus.withStrictness ⟨"notes", [], {}⟩ true) "v.base"
      "views: 5\n").run ()).result with
  | ok definition =>
    rw [he] at hstrict
    cases hstrict
  | error e =>
    cases hd : ((parse (Corpus.withStrictness ⟨"notes", [], {}⟩ false) "v.base"
        "views: 5\n").run ()).result with
    | error e' =>
      rw [hd] at hlenient
      cases hlenient
    | ok definition =>
      obtain ⟨m, others, hfirst, htold⟩ := hfails e definition he hd
      exact ⟨e, m, others, rfl, hfirst, htold⟩

end Definition

end CorpusQuery

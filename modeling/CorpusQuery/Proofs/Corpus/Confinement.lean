import CorpusQuery.Proofs.Disk.Following
import CorpusQuery.Proofs.Path.Normalization
import CorpusQuery.Proofs.View.Refusals

/-!
# Paths that users write

Users write the path of a definition and the path of a cover. Either is looked at through its normal
form only, so that it never leads above the root of the corpus: a path without a normal form is
refused (`load_outsideRoot_iff`, `cover_outsideRoot_iff`), and of the others nothing but the normal
form matters (`load_congr`). A definition is known by it too, so that all spellings of its path
share its sheets in the cache (`cacheKey_eq_iff`).
-/

namespace CorpusQuery

open Job

/-! ## Definitions -/

namespace Definition

variable {σ : Type} {corpus : Corpus} {disk : Disk} {text : String} {s : σ}

theorem load_of_outside (h : Path.normalize text = none) :
    (load corpus disk text : Job σ Definition) = throw (.outsideRoot text) := by
  rw [load, h]

/-- A definition is looked for at the normal form of its path. -/
theorem load_of_normalize {path : RelPath} (h : Path.normalize text = some path) :
    (load corpus disk text : Job σ Definition) =
      if disk.isFile corpus.root path.text then
        Job.ofExcept ((disk.readText corpus.root path.text).mapError .io) >>=
          parse corpus path.text
      else throw (.notFound .definition text) := by
  rw [load, h]

/-- A definition that was read has the path that it was read under. -/
theorem path_of_parse {path source : String} {definition : Definition}
    (h : ((parse corpus path source).run s).result = .ok definition) : definition.path = path := by
  cases hentries : entriesOf path source with
  | error e =>
    rw [run_parse_of_error hentries] at h
    cases h
  | ok entries =>
    rw [run_parse_of_ok hentries] at h
    obtain ⟨filter, -, h⟩ := result_bind_eq_ok h
    obtain ⟨formulas, -, h⟩ := result_bind_eq_ok h
    obtain ⟨columns, -, h⟩ := result_bind_eq_ok h
    obtain ⟨views, -, h⟩ := result_bind_eq_ok h
    obtain ⟨-, -, h⟩ := result_bind_eq_ok h
    cases h
    rfl

/-- A loaded definition has the normal form of the path that it was asked for by. -/
theorem path_of_load {definition : Definition}
    (h : ((load corpus disk text).run s).result = .ok definition) :
    ∃ path, Path.normalize text = some path ∧ definition.path = path.text := by
  cases hnormal : Path.normalize text with
  | none =>
    rw [load_of_outside hnormal] at h
    cases h
  | some path =>
    rw [load_of_normalize hnormal] at h
    split at h
    · obtain ⟨source, -, hparse⟩ := result_bind_eq_ok h
      exact ⟨path, rfl, path_of_parse hparse⟩
    · cases h

/-- What a text is refused for is not a place outside of the root. -/
theorem parse_ne_outsideRoot {path source refused : String} :
    ((parse corpus path source).run s).result ≠ .error (.outsideRoot refused) := by
  intro h
  rcases error_of_parse h with hentries | hrefused
  · exact not_ofFields_of_entries hentries (.outsideRoot refused)
  · cases hrefused

theorem load_outsideRoot_iff {refused : String} :
    ((load corpus disk text).run s).result = .error (.outsideRoot refused) ↔
      Path.normalize text = none ∧ refused = text := by
  cases hnormal : Path.normalize text with
  | none =>
    rw [load_of_outside hnormal, run_throw]
    simp [eq_comm]
  | some path =>
    have hinside : ((load corpus disk text).run s).result ≠ .error (.outsideRoot refused) := by
      rw [load_of_normalize hnormal]
      split
      · intro h
        cases hread : disk.readText corpus.root path.text with
        | error fault =>
          rw [hread] at h
          cases h
        | ok source =>
          rw [hread] at h
          exact parse_ne_outsideRoot h
      · nofun
    simp [hinside]

/-- Nothing of the disk matters but what is at the normal form of the path. -/
theorem load_congr {disk' : Disk} {path : RelPath} (h : Path.normalize text = some path)
    (hfind : disk.find corpus.root path.text = disk'.find corpus.root path.text) :
    (load corpus disk text : Job σ Definition) = load corpus disk' text := by
  have hfile : disk.isFile corpus.root path.text = disk'.isFile corpus.root path.text := by
    rw [Disk.isFile, Disk.isFile, hfind]
  have hread : disk.readText corpus.root path.text = disk'.readText corpus.root path.text := by
    rw [Disk.readText, Disk.readText, Disk.read, Disk.read, hfind]
  rw [load_of_normalize h, load_of_normalize h, hfile, hread]

/-- If a definition is loaded, it is loaded in the same way by each other spelling of its path. -/
theorem run_load_of_spelling {other : String} {definition : Definition}
    (hsame : Path.normalize other = Path.normalize text)
    (h : ((load corpus disk text).run s).result = .ok definition) :
    (load corpus disk other).run s = (load corpus disk text).run s := by
  obtain ⟨path, hnormal, -⟩ := path_of_load h
  rw [load_of_normalize hnormal] at h ⊢
  rw [load_of_normalize (hsame.trans hnormal)]
  split at h
  · next hfile => rw [if_pos hfile, if_pos hfile]
  · cases h

/-- Loaded definitions share their sheets in the cache if their paths have the same normal form. -/
theorem cacheKey_eq_iff {τ : Type} {disk' : Disk} {other : String} {t : τ}
    {definition definition' : Definition} {view : View}
    (h : ((load corpus disk text).run s).result = .ok definition)
    (h' : ((load corpus disk' other).run t).result = .ok definition') :
    definition.cacheKey corpus view = definition'.cacheKey corpus view ↔
      Path.normalize text = Path.normalize other := by
  obtain ⟨path, hnormal, hpath⟩ := path_of_load h
  obtain ⟨path', hnormal', hpath'⟩ := path_of_load h'
  have hkey : definition.cacheKey corpus view = definition'.cacheKey corpus view ↔
      path.text = path'.text := by
    rw [cacheKey, cacheKey, hpath, hpath']
    simp
  rw [hkey, hnormal, hnormal', Option.some.injEq]
  refine ⟨fun htext => ?_, fun hsame => hsame ▸ rfl⟩
  have hfixed := (Path.isNormalForm_of_normalize hnormal).fixed
  rw [htext, (Path.isNormalForm_of_normalize hnormal').fixed] at hfixed
  exact (Option.some.inj hfixed).symm

end Definition

/-! ## Covers -/

namespace Document

variable {snapshot : Snapshot} {doc : Document} {target : String} {state : Option Content}

/-- A document is read for its content unless that is known. -/
theorem result_content (snapshot : Snapshot) (doc : Document) (state : Option Content) :
    ((doc.content snapshot).run state).result = .ok (state.getD (Content.extract snapshot doc).1) := by
  cases state with
  | none => rw [run_content_none, Option.getD_none]
  | some content => rw [run_content_some, Option.getD_some]

theorem result_cover
    (h : (state.getD (Content.extract snapshot doc).1).properties.lookup coverKey =
      some (.str target)) :
    ((doc.property snapshot true [coverKey]).run state).result =
      (doc.coverPath target).map .str := by
  have hproperty : doc.property snapshot true [coverKey] =
      doc.frontMatterProperty snapshot true coverKey := rfl
  rw [hproperty, frontMatterProperty, run_bind_of_ok (result_content snapshot doc state)]
  simp only [h, beq_self_eq_true, Bool.and_self, if_true]
  cases (doc.coverPath target).map Value.str <;> rfl

theorem coverPath_of_normalize {path : RelPath} (hweb : Index.isWeb target = false)
    (h : Path.normalize (Path.join doc.folder target) = some path) :
    doc.coverPath target = .ok path.text := by
  simp only [coverPath, hweb, h, Bool.false_eq_true, if_false]

theorem coverPath_of_outside (hweb : Index.isWeb target = false)
    (h : Path.normalize (Path.join doc.folder target) = none) :
    doc.coverPath target = .error (.outsideRoot (Path.join doc.folder target)) := by
  simp only [coverPath, hweb, h, Bool.false_eq_true, if_false]

theorem cover_outsideRoot_iff {refused : String} (hweb : Index.isWeb target = false) :
    (doc.coverPath target).map Value.str = .error (.outsideRoot refused) ↔
      Path.normalize (Path.join doc.folder target) = none ∧
        refused = Path.join doc.folder target := by
  cases hnormal : Path.normalize (Path.join doc.folder target) with
  | none =>
    rw [coverPath_of_outside hweb hnormal]
    simp [Except.map, eq_comm]
  | some path =>
    rw [coverPath_of_normalize hweb hnormal]
    simp [Except.map]

end Document

/-! ## Confinement -/

/-- Paths that users write are confined to the root. A path has a normal form unless it is absolute
or climbs above its start. Without one, it is refused as the path of a definition and as that of a
cover. Otherwise what is at the normal form is all that matters for the definition, the cover is the
normal form, and the spellings of one path lead to the same definition with the same sheets. -/
theorem normalize_confines (text : String) :
    (∀ path, Path.normalize text = some path ↔
      Path.isAbsolute text = false ∧ ¬Path.Climbs (Path.components text) ∧
        path = Path.runStack [] (Path.components text)) ∧
    (∀ path, Path.normalize text = some path → Path.IsNormalForm text path) ∧
    (∀ {σ : Type} (corpus : Corpus) (disk : Disk) (s : σ) (refused : String),
      ((Definition.load corpus disk text).run s).result = .error (.outsideRoot refused) ↔
        (Path.isAbsolute text = true ∨ Path.Climbs (Path.components text)) ∧ refused = text) ∧
    (∀ {σ : Type} (corpus : Corpus) (disk disk' : Disk) (path : RelPath),
      Path.normalize text = some path →
      disk.find corpus.root path.text = disk'.find corpus.root path.text →
      (Definition.load corpus disk text : Job σ Definition) =
        Definition.load corpus disk' text) ∧
    (∀ {σ : Type} (corpus : Corpus) (disk : Disk) (s : σ) (definition : Definition),
      ((Definition.load corpus disk text).run s).result = .ok definition →
      (∃ path, Path.normalize text = some path ∧ definition.path = path.text) ∧
      ∀ other, Path.normalize other = Path.normalize text →
        (Definition.load corpus disk other).run s = (Definition.load corpus disk text).run s) ∧
    (∀ {σ τ : Type} (corpus : Corpus) (disk disk' : Disk) (s : σ) (t : τ) (other : String)
      (definition definition' : Definition) (view : View),
      ((Definition.load corpus disk text).run s).result = .ok definition →
      ((Definition.load corpus disk' other).run t).result = .ok definition' →
      (definition.cacheKey corpus view = definition'.cacheKey corpus view ↔
        Path.normalize text = Path.normalize other)) ∧
    ∀ (snapshot : Snapshot) (doc : Document) (target : String) (state : Option Content),
      Path.join doc.folder target = text → Index.isWeb target = false →
      (state.getD (Content.extract snapshot doc).1).properties.lookup coverKey =
        some (.str target) →
      (∀ refused,
        ((doc.property snapshot true [coverKey]).run state).result =
            .error (.outsideRoot refused) ↔
          (Path.isAbsolute text = true ∨ Path.Climbs (Path.components text)) ∧ refused = text) ∧
      ∀ path, Path.normalize text = some path →
        ((doc.property snapshot true [coverKey]).run state).result = .ok (.str path.text) := by
  refine ⟨fun path => Path.normalize_eq_some_iff, fun path => Path.isNormalForm_of_normalize,
    ?refused, fun corpus disk disk' path => Definition.load_congr, ?spellings, ?keys, ?cover⟩
  case refused =>
    intro σ corpus disk s refused
    rw [← Path.normalize_eq_none_iff]
    exact Definition.load_outsideRoot_iff
  case spellings =>
    intro σ corpus disk s definition hload
    exact ⟨Definition.path_of_load hload,
      fun other hsame => Definition.run_load_of_spelling hsame hload⟩
  case keys =>
    intro σ τ corpus disk disk' s t other definition definition' view
    exact Definition.cacheKey_eq_iff
  case cover =>
    rintro snapshot doc target state rfl hweb hcover
    rw [Document.result_cover hcover, ← Path.normalize_eq_none_iff]
    refine ⟨fun refused => Document.cover_outsideRoot_iff hweb, fun path hnormal => ?_⟩
    rw [Document.coverPath_of_normalize hweb hnormal]
    rfl

/-! ## A path in two spellings -/

/-- A disk with an empty definition in the folder `notes`. -/
def oneDefinition : Disk := ⟨[("notes", .folder [("v.base", .file "".toUTF8)])]⟩

/-- The corpus in the folder `notes`. -/
def plainNotes : Corpus := ⟨"notes", ["notes"], {}⟩

theorem find_oneDefinition :
    oneDefinition.find ["notes"] (RelPath.text ["v.base"]) = .ok (.file "".toUTF8) := by
  have hnode : oneDefinition.node? (["notes"] ++ ["v.base"]) = some (.file "".toUTF8) := rfl
  refine Disk.find_of_locate (Disk.locate_of_node? (by simp) ?_ hnode (by simp)) hnode
  decide +kernel

/-- The empty definition is loaded by a path that leaves a folder again. -/
theorem load_oneDefinition :
    ((Definition.load plainNotes oneDefinition "views/../v.base").run ()).result =
      .ok ⟨"v.base", .trivial, [], [], []⟩ := by
  have hnormal : Path.normalize "views/../v.base" = some ["v.base"] := by decide +kernel
  have hfile : oneDefinition.isFile plainNotes.root (RelPath.text ["v.base"]) = true :=
    Disk.isFile_of_find find_oneDefinition
  have hread : oneDefinition.readText plainNotes.root (RelPath.text ["v.base"]) = .ok "" :=
    Disk.readText_of_find find_oneDefinition
  rw [Definition.load_of_normalize hnormal, if_pos hfile, hread]
  rfl

/-- A document in a folder below the root. -/
def noteInFolder : Document := ⟨"/notes/a/n.md", "a/n.md"⟩

/-- A definition is found by another spelling of its path under the same key, a path above the root
is refused, and a cover above the folder of its document is still below the root. -/
theorem normalize_confines_of_spellings :
    (Definition.load plainNotes oneDefinition "./v.base").run () =
      (Definition.load plainNotes oneDefinition "views/../v.base").run () ∧
    (∀ definition view,
      ((Definition.load plainNotes oneDefinition "./v.base").run ()).result = .ok definition →
      Definition.cacheKey ⟨"v.base", .trivial, [], [], []⟩ plainNotes view =
        definition.cacheKey plainNotes view) ∧
    ((Definition.load plainNotes oneDefinition "views/../../v.base").run ()).result =
      .error (.outsideRoot "views/../../v.base") ∧
    ((noteInFolder.property ⟨plainNotes, oneDefinition, ⟨[]⟩⟩ true [coverKey]).run
        (some ⟨[], [], [(coverKey, .str "../pic.png")]⟩)).result =
      .ok (.str "pic.png") := by
  have hsame : Path.normalize "./v.base" = Path.normalize "views/../v.base" := by decide +kernel
  have habove : Path.normalize "views/../../v.base" = none := by decide +kernel
  have hjoin : Path.join noteInFolder.folder "../pic.png" = "a/../pic.png" := by decide +kernel
  have hweb : Index.isWeb "../pic.png" = false := by decide +kernel
  have hcover : Path.normalize "a/../pic.png" = some ["pic.png"] := by decide +kernel
  obtain ⟨-, -, -, -, hspellings, hkeys, -⟩ := normalize_confines "views/../v.base"
  obtain ⟨-, -, hrefused, -⟩ := normalize_confines "views/../../v.base"
  obtain ⟨-, -, -, -, -, -, hcovers⟩ := normalize_confines "a/../pic.png"
  refine ⟨?_, fun definition view hload => ?_, ?_, ?_⟩
  · exact (hspellings plainNotes oneDefinition () _ load_oneDefinition).2 _ hsame
  · exact (hkeys plainNotes oneDefinition oneDefinition () () _ _ definition view
      load_oneDefinition hload).mpr hsame.symm
  · exact (hrefused plainNotes oneDefinition () _).mpr ⟨Path.normalize_eq_none_iff.mp habove, rfl⟩
  · exact (hcovers _ noteInFolder "../pic.png" _ hjoin hweb rfl).2 _ hcover

end CorpusQuery

import CorpusQuery.Proofs.View.Interview
import CorpusQuery.Proofs.View.Messages
import CorpusQuery.Proofs.Corpus.VisibleFiles

/-!
# What is extracted from documents

Extraction always gives a content, and trouble costs only the part that it is in. A document whose
text cannot be read (`Unreadable`) has an empty content, bad front matter (`BadBlock`) has no
properties but leaves the tags and links of the body, and either is told of in one message. Without
such trouble nothing is told (`extraction_degrades_by_parts`).
-/

namespace CorpusQuery

open Job Event

namespace Content

variable {d : Disk} {location : String} {snapshot : Snapshot} {doc : Document}

/-! ## Sets of texts -/

section

variable {a b : String} {texts done : List String}

theorem lt_of_isLE (h : (compare a b).isLE) (hne : a ≠ b) : a < b := by
  rw [← compare_string_eq_lt_iff]
  cases hcompare : compare a b with
  | lt => rfl
  | eq => exact absurd (Std.LawfulEqCmp.eq_of_compare hcompare) hne
  | gt =>
    rw [hcompare] at h
    cases h

/-- Of repeated texts one is kept. -/
theorem mem_eraseReps_loop {t : String} :
    t ∈ List.eraseRepsBy.loop (· == ·) a texts done ↔ t = a ∨ t ∈ texts ∨ t ∈ done := by
  induction texts generalizing a done with
  | nil => simp [List.eraseRepsBy.loop, or_comm]
  | cons b texts ih =>
    rw [List.eraseRepsBy.loop]
    split
    · next h =>
      rw [ih, List.mem_cons, beq_iff_eq.mp h]
      tauto
    · rw [ih, List.mem_cons, List.mem_cons]
      tauto

/-- Where texts are sorted those that are repeated stand together. -/
theorem pairwise_eraseReps_loop (hsorted : (a :: texts).Pairwise fun s t => (compare s t).isLE)
    (hdone : (a :: done).Pairwise fun s t => t < s) :
    (List.eraseRepsBy.loop (· == ·) a texts done).Pairwise (· < ·) := by
  induction texts generalizing a done with
  | nil =>
    rw [List.eraseRepsBy.loop, List.pairwise_reverse]
    exact hdone
  | cons b texts ih =>
    rw [List.pairwise_cons] at hsorted
    rw [List.eraseRepsBy.loop]
    split
    · next h =>
      rw [beq_iff_eq.mp h] at hdone ⊢
      exact ih hsorted.2 hdone
    · next h =>
      have hlt : a < b := lt_of_isLE (hsorted.1 b List.mem_cons_self) (by simpa using h)
      refine ih hsorted.2 (List.pairwise_cons.mpr ⟨fun t ht => ?_, hdone⟩)
      rcases List.mem_cons.mp ht with rfl | ht
      · exact hlt
      · exact String.lt_trans ((List.pairwise_cons.mp hdone).1 t ht) hlt

theorem mem_sortedSet_iff {t : String} : t ∈ sortedSet texts ↔ t ∈ texts := by
  have hmem : (t ∈ texts.mergeSort fun a b => (compare a b).isLE) ↔ t ∈ texts := List.mem_mergeSort
  rw [← hmem]
  unfold sortedSet List.eraseReps List.eraseRepsBy
  split
  · next h => rw [h]
  · next first rest h =>
    rw [h, mem_eraseReps_loop, List.mem_cons]
    simp

theorem pairwise_sortedSet (texts : List String) : (sortedSet texts).Pairwise (· < ·) := by
  have hsorted : (texts.mergeSort fun a b => (compare a b).isLE).Pairwise
      fun s t => (compare s t).isLE := by
    refine List.pairwise_mergeSort (fun _ _ _ => Std.TransCmp.isLE_trans) (fun a b => ?_) texts
    have hswap : compare b a = (compare a b).swap := Std.OrientedCmp.eq_swap
    rw [hswap]
    cases compare a b <;> rfl
  unfold sortedSet List.eraseReps List.eraseRepsBy
  split
  · exact .nil
  · next first rest h =>
    rw [h] at hsorted
    exact pairwise_eraseReps_loop hsorted (List.pairwise_singleton _ _)

end

/-! ## Texts of documents -/

/-- What is at the place of a document that keeps its text from being read: nothing that can be
reached, no file, a file of too many bytes, or bytes that are no UTF-8. -/
inductive Unreadable (d : Disk) (location : String) : ReadProblem → Prop
  | refused {fault : Disk.Fault} (found : d.find [] location = .error fault) :
    Unreadable d location (.refused fault)
  | noFile {node : Disk.Node} (found : d.find [] location = .ok node)
    (other : ∀ bytes, node ≠ .file bytes) : Unreadable d location (.refused .isFolder)
  | tooLarge {bytes : ByteArray} (found : d.find [] location = .ok (.file bytes))
    (size : maxFileSize < bytes.size) : Unreadable d location (.tooLarge bytes.size)
  | notUtf8 {bytes : ByteArray} (found : d.find [] location = .ok (.file bytes))
    (size : bytes.size ≤ maxFileSize) (invalid : ¬bytes.IsValidUTF8) :
    Unreadable d location .notUtf8

/-- The text of a document: it is in a file of not too many bytes. -/
structure HasText (d : Disk) (location text : String) : Prop where
  found : d.find [] location = .ok (.file text.toUTF8)
  size : text.toUTF8.size ≤ maxFileSize

theorem fromUTF8?_eq_some_iff {bytes : ByteArray} {text : String} :
    String.fromUTF8? bytes = some text ↔ bytes = text.toUTF8 := by
  unfold String.fromUTF8?
  constructor
  · intro h
    split at h
    · cases h
      rfl
    · cases h
  · rintro rfl
    exact dif_pos text.isValidUTF8

theorem fromUTF8?_eq_none_iff {bytes : ByteArray} :
    String.fromUTF8? bytes = none ↔ ¬bytes.IsValidUTF8 := by
  unfold String.fromUTF8?
  split
  · next h => simp [h]
  · next h => simp [h]

theorem readText_of_hasText {text : String} (h : HasText d location text) :
    readText d location = .ok text := by
  rw [readText, h.found]
  dsimp only
  rw [if_neg (Nat.not_lt.mpr h.size), fromUTF8?_eq_some_iff.mpr rfl]

theorem readText_of_unreadable {problem : ReadProblem} (h : Unreadable d location problem) :
    readText d location = .error problem := by
  unfold readText
  cases h with
  | refused found => rw [found]
  | @noFile node found other =>
    rw [found]
    cases node with
    | file bytes => exact absurd rfl (other bytes)
    | folder entries => rfl
    | link target => rfl
  | tooLarge found size =>
    rw [found]
    exact if_pos size
  | notUtf8 found size invalid =>
    rw [found]
    dsimp only
    rw [if_neg (Nat.not_lt.mpr size), fromUTF8?_eq_none_iff.mpr invalid]

/-- A document has a text, or something keeps that from being read. -/
theorem hasText_or_unreadable (d : Disk) (location : String) :
    (∃ text, HasText d location text) ∨ ∃ problem, Unreadable d location problem := by
  cases hfound : d.find [] location with
  | error fault => exact .inr ⟨_, .refused hfound⟩
  | ok node =>
    cases node with
    | folder entries => exact .inr ⟨_, .noFile hfound fun _ h => nomatch h⟩
    | link target => exact .inr ⟨_, .noFile hfound fun _ h => nomatch h⟩
    | file bytes =>
      rcases Nat.lt_or_ge maxFileSize bytes.size with hsize | hsize
      · exact .inr ⟨_, .tooLarge hfound hsize⟩
      · cases htext : String.fromUTF8? bytes with
        | none => exact .inr ⟨_, .notUtf8 hfound hsize (fromUTF8?_eq_none_iff.mp htext)⟩
        | some text =>
          obtain rfl := fromUTF8?_eq_some_iff.mp htext
          exact .inl ⟨text, hfound, hsize⟩

/-! ## Blocks of front matter -/

/-- What is wrong with a block of front matter: it is no YAML, or its value is neither null nor a
mapping. A value with a tag of its own is neither. -/
inductive BadBlock (block : String) : PropertiesProblem → Prop
  | malformed {e : Yaml.Error} (read : Yaml.Node.ofText block = .error e) : BadBlock block (.yaml e)
  | notMapping {node : Yaml.Node} (read : Yaml.Node.ofText block = .ok node) (null : node ≠ .null)
    (mapping : ∀ entries, node ≠ .mapping entries) :
    BadBlock block (.notMapping node.toValue.kind)

/-- The properties of a text: those in the mapping that its block of front matter is, if it has a
block and that is not null. -/
inductive HasProperties : Option String → Dictionary Value → Prop
  | noBlock : HasProperties none []
  | null {block : String} (read : Yaml.Node.ofText block = .ok .null) :
    HasProperties (some block) []
  | mapping {block : String} {entries : List (Yaml.Node × Yaml.Node)}
    (read : Yaml.Node.ofText block = .ok (.mapping entries)) :
    HasProperties (some block) (Dictionary.ofList (Yaml.Node.entryValues entries))

theorem readProperties_of_hasProperties {block : String} {properties : Dictionary Value}
    (h : HasProperties (some block) properties) : readProperties block = .ok properties := by
  unfold readProperties
  cases h with
  | null read => rw [read]
  | mapping read =>
    rw [read]
    rfl

theorem readProperties_of_badBlock {block : String} {problem : PropertiesProblem}
    (h : BadBlock block problem) : readProperties block = .error problem := by
  unfold readProperties
  cases h with
  | malformed read => rw [read]
  | @notMapping node read null mapping =>
    rw [read]
    cases node with
    | null => exact absurd rfl null
    | mapping entries => exact absurd rfl (mapping entries)
    | _ => rfl

/-- A block gives properties, or something is wrong with it. -/
theorem hasProperties_or_badBlock (block : String) :
    (∃ properties, HasProperties (some block) properties) ∨ ∃ problem, BadBlock block problem := by
  cases hread : Yaml.Node.ofText block with
  | error e => exact .inr ⟨_, .malformed hread⟩
  | ok node =>
    cases node with
    | null => exact .inl ⟨_, .null hread⟩
    | mapping entries => exact .inl ⟨_, .mapping hread⟩
    | _ => exact .inr ⟨_, .notMapping hread (fun h => nomatch h) fun _ h => nomatch h⟩

theorem readProperties_eq_ok_iff {block : String} {properties : Dictionary Value} :
    readProperties block = .ok properties ↔ HasProperties (some block) properties := by
  refine ⟨fun h => ?_, readProperties_of_hasProperties⟩
  rcases hasProperties_or_badBlock block with ⟨other, hread⟩ | ⟨problem, hbad⟩
  · rw [readProperties_of_hasProperties hread] at h
    cases h
    exact hread
  · rw [readProperties_of_badBlock hbad] at h
    cases h

theorem readProperties_eq_error_iff {block : String} {problem : PropertiesProblem} :
    readProperties block = .error problem ↔ BadBlock block problem := by
  refine ⟨fun h => ?_, readProperties_of_badBlock⟩
  rcases hasProperties_or_badBlock block with ⟨properties, hread⟩ | ⟨other, hbad⟩
  · rw [readProperties_of_hasProperties hread] at h
    cases h
  · rw [readProperties_of_badBlock hbad] at h
    cases h
    exact hbad

/-! ## Contents -/

/-- What a document with the given body and properties says: the tags of the body and those that the
properties declare, and what the links of the body lead to. -/
structure Says (snapshot : Snapshot) (doc : Document) (body : String)
    (properties : Dictionary Value) (content : Content) : Prop where
  properties_eq : content.properties = properties
  mem_tags_iff : ∀ tag, tag ∈ content.tags ↔ tag ∈ Markdown.hashtags body ∨
    ∃ value, properties.lookup "tags" = some value ∧ tag ∈ declaredTags value
  mem_links_iff : ∀ target, target ∈ content.links ↔ ∃ link ∈ Markdown.wikilinks body,
    (snapshot.index.resolve snapshot.disk snapshot.corpus.root link doc.location true).target? =
      some target

theorem says_sortedSet (snapshot : Snapshot) (doc : Document) (body : String)
    (properties : Dictionary Value) :
    Says snapshot doc body properties
      { tags := sortedSet (Markdown.hashtags body ++
          ((properties.lookup "tags").map declaredTags).getD [])
        links := sortedSet (((Markdown.wikilinks body).map fun link =>
          snapshot.index.resolve snapshot.disk snapshot.corpus.root link doc.location
            true).filterMap Resolution.target?)
        properties } := by
  refine ⟨rfl, fun tag => ?_, fun target => ?_⟩
  · rw [mem_sortedSet_iff, List.mem_append]
    cases properties.lookup "tags" <;> simp
  · rw [mem_sortedSet_iff, List.mem_filterMap]
    simp only [List.mem_map, exists_exists_and_eq_and]

theorem ofText_of_hasProperties {text body : String} {block : Option String}
    {properties : Dictionary Value} (hsplit : Markdown.splitFrontMatter text = (block, body))
    (h : HasProperties block properties) :
    Says snapshot doc body properties (ofText snapshot doc text).1 ∧
      messages (ofText snapshot doc text).2 = [] := by
  unfold ofText
  rw [hsplit]
  cases block with
  | none =>
    cases h
    exact ⟨says_sortedSet snapshot doc body [], Document.messages_resolutions _⟩
  | some block =>
    dsimp only [Option.map_some]
    rw [readProperties_of_hasProperties h]
    exact ⟨says_sortedSet snapshot doc body properties, Document.messages_resolutions _⟩

theorem ofText_of_badBlock {text block body : String} {problem : PropertiesProblem}
    (hsplit : Markdown.splitFrontMatter text = (some block, body)) (h : BadBlock block problem) :
    Says snapshot doc body [] (ofText snapshot doc text).1 ∧
      messages (ofText snapshot doc text).2 =
        [snapshot.corpus.message .warning s!"bad properties for file {doc.path}"
          problem.message] := by
  unfold ofText
  rw [hsplit]
  dsimp only [Option.map_some]
  rw [readProperties_of_badBlock h]
  refine ⟨says_sortedSet snapshot doc body [], ?_⟩
  dsimp only
  rw [messages_append, Document.messages_resolutions, messages_events, List.append_nil]

/-! ## Extraction -/

theorem extract_of_other (h : doc.isMarkdown = false) : extract snapshot doc = (empty, []) := by
  rw [extract, h]
  rfl

theorem extract_of_hasText {text : String} (hmarkdown : doc.isMarkdown = true)
    (h : HasText snapshot.disk doc.location text) :
    extract snapshot doc = ofText snapshot doc text := by
  rw [extract, if_pos hmarkdown, readText_of_hasText h]

theorem extract_of_unreadable {problem : ReadProblem} (hmarkdown : doc.isMarkdown = true)
    (h : Unreadable snapshot.disk doc.location problem) :
    (extract snapshot doc).1 = empty ∧
      messages (extract snapshot doc).2 =
        [snapshot.corpus.message .warning s!"could not read metadata from {doc.path}"
          problem.message] := by
  rw [extract, if_pos hmarkdown, readText_of_unreadable h]
  exact ⟨rfl, messages_events _ true⟩

/-- Whatever is reported about the extraction tells of trouble with the text or the front matter. -/
theorem complaints_of_extract (snapshot : Snapshot) (doc : Document) :
    complaints Message.isOfReading (extract snapshot doc).2 =
      messages (extract snapshot doc).2 := by
  rw [complaints, List.filter_eq_self]
  intro m hm
  rcases Document.messages_extract snapshot doc with hnone | ⟨m', hone, hkind⟩
  · rw [hnone] at hm
    cases hm
  · rw [hone, List.mem_singleton] at hm
    subst hm
    cases hkind <;> simp [Message.isOfReading, Message.Begins, Corpus.message, toString]

theorem length_messages_extract (snapshot : Snapshot) (doc : Document) :
    (messages (extract snapshot doc).2).length ≤ 1 := by
  rcases Document.messages_extract snapshot doc with hnone | ⟨m, hone, -⟩
  · rw [hnone]
    exact Nat.zero_le _
  · rw [hone]
    exact Nat.le_refl _

/-- Whatever a document is asked, trouble with it is told once, when it is read. -/
theorem complaints_interview (corpus : Corpus) (doc : Document) (steps : List (Moment × Question)) :
    complaints Message.isOfReading ((Document.interview corpus doc steps).run none).events =
      match Document.lookAt corpus doc steps with
      | some moment => messages (extract (moment.snapshot corpus) doc).2
      | none => [] := by
  have hseen : ∀ moment, Document.lookAt corpus doc steps = some moment →
      (Document.lookAt corpus doc steps).getD .blank = moment := by
    intro moment h
    rw [h]
    rfl
  obtain ⟨events, hcomplaints, hrun⟩ := Document.run_interview_none steps hseen
  rw [hrun steps rfl rfl]
  refine hcomplaints.trans ?_
  cases Document.lookAt corpus doc steps with
  | none => rfl
  | some moment => exact complaints_of_extract _ doc

/-- Extraction always gives a content, and trouble with a document is told at most once, whatever it
is asked. A document whose text cannot be read says nothing. With bad front matter it has no
properties, but the tags and links of its body. Without trouble its tags are those of the body and
those that are declared, and nothing is told. In files other than Markdown nothing is looked for. -/
theorem extraction_degrades_by_parts (corpus : Corpus) (doc : Document) :
    (∀ steps : List (Moment × Question),
      let told := complaints Message.isOfReading
        ((Document.interview corpus doc steps).run none).events
      told.length ≤ 1 ∧
      told =
        match Document.lookAt corpus doc steps with
        | some moment => messages (extract (moment.snapshot corpus) doc).2
        | none => []) ∧
    (doc.isMarkdown = false →
      ∀ moment : Moment, extract (moment.snapshot corpus) doc = (empty, [])) ∧
    (doc.isMarkdown = true → ∀ moment : Moment,
      let snapshot := moment.snapshot corpus
      let content := (extract snapshot doc).1
      let told := messages (extract snapshot doc).2
      ((∃ text, HasText moment.disk doc.location text) ∨
        ∃ problem, Unreadable moment.disk doc.location problem) ∧
      (∀ problem, Unreadable moment.disk doc.location problem →
        content = empty ∧
        told = [corpus.message .warning s!"could not read metadata from {doc.path}"
          problem.message]) ∧
      ∀ text block body, HasText moment.disk doc.location text →
        Markdown.splitFrontMatter text = (block, body) →
        (∀ source problem, block = some source → BadBlock source problem →
          Says snapshot doc body [] content ∧
          told = [corpus.message .warning s!"bad properties for file {doc.path}"
            problem.message]) ∧
        ((∀ source problem, block = some source → ¬BadBlock source problem) →
          ∃ properties, HasProperties block properties ∧
            Says snapshot doc body properties content ∧ told = [])) := by
  refine ⟨fun steps => ?once, fun hother moment => extract_of_other hother,
    fun hmarkdown moment => ⟨hasText_or_unreadable _ _, fun problem => ?unreadable,
      fun text block body htext hsplit => ⟨?bad, ?whole⟩⟩⟩
  case once =>
    intro told
    have htold : told = _ := complaints_interview corpus doc steps
    refine ⟨?_, htold⟩
    rw [htold]
    split
    · exact length_messages_extract _ doc
    · exact Nat.zero_le 1
  case unreadable => exact fun hproblem => extract_of_unreadable hmarkdown hproblem
  case bad =>
    rintro source problem rfl hbad
    rw [extract_of_hasText hmarkdown htext]
    exact ofText_of_badBlock hsplit hbad
  case whole =>
    intro hgood
    have hproperties : ∃ properties, HasProperties block properties := by
      cases block with
      | none => exact ⟨[], .noBlock⟩
      | some source =>
        rcases hasProperties_or_badBlock source with hproperties | ⟨problem, hbad⟩
        · exact hproperties
        · exact absurd hbad (hgood source problem rfl)
    obtain ⟨properties, hproperties⟩ := hproperties
    refine ⟨properties, hproperties, ?_⟩
    rw [extract_of_hasText hmarkdown htext]
    exact ofText_of_hasProperties hsplit hproperties

/-- The corpus in the folder `notes`. -/
def noteFolder : Corpus := ⟨"notes", ["notes"], {}⟩

/-- The moment at which a text is the only note of this corpus. -/
def momentOf (text : String) : Moment :=
  ⟨⟨[("notes", .folder [("b.md", .file text.toUTF8)])]⟩, ⟨[["b.md"]]⟩⟩

theorem hasText_momentOf {text : String} (h : text.toUTF8.size ≤ maxFileSize) :
    HasText (momentOf text).disk (Document.ofPath noteFolder ["b.md"]).location text := by
  have hlocation : (Document.ofPath noteFolder ["b.md"]).location =
      Disk.Place.text ["notes", "b.md"] := by decide +kernel
  have hnames : ∀ name ∈ ["notes", "b.md"], Path.IsName name := by decide +kernel
  have hnode : (momentOf text).disk.node? ["notes", "b.md"] = some (.file text.toUTF8) := rfl
  have hwalk : (momentOf text).disk.walkTo false Disk.maxLinks []
        (["notes", "b.md"].map .enter ++ []) =
      (momentOf text).disk.walkTo false Disk.maxLinks ([] ++ ["notes", "b.md"]) [] :=
    Disk.walkTo_names hnode (by simp) []
  rw [Disk.walkTo_nil] at hwalk
  refine ⟨?_, h⟩
  rw [hlocation]
  exact Disk.find_of_locate ((Disk.locate_place hnames).trans hwalk) hnode

/-- A note whose front matter is a list keeps the tag in its body, and the list is complained of. -/
theorem extraction_degrades_by_parts_of_list :
    let doc := Document.ofPath noteFolder ["b.md"]
    let moment := momentOf "---\n- a\n---\nb #c\n"
    let found := extract (moment.snapshot noteFolder) doc
    doc.isMarkdown = true ∧ HasText moment.disk doc.location "---\n- a\n---\nb #c\n" ∧
      (∃ problem, BadBlock "- a\n" problem) ∧
      found.1.properties = [] ∧ (∀ tag, tag ∈ found.1.tags ↔ tag = "c") ∧
      messages found.2 = [noteFolder.message .warning "bad properties for file b.md"
        "expected a mapping, found list"] := by
  intro doc moment found
  have hmarkdown : doc.isMarkdown = true := by decide +kernel
  have htext : HasText moment.disk doc.location "---\n- a\n---\nb #c\n" :=
    hasText_momentOf (by decide +kernel)
  have hsplit : Markdown.splitFrontMatter "---\n- a\n---\nb #c\n" =
      (some "- a\n", "b #c\n") := by decide +kernel
  have hread : ((readProperties "- a\n").map fun _ => ()).mapError PropertiesProblem.message =
      .error "expected a mapping, found list" := by decide +kernel
  obtain ⟨problem, hbad, hmessage⟩ : ∃ problem, BadBlock "- a\n" problem ∧
      problem.message = "expected a mapping, found list" := by
    cases hresult : readProperties "- a\n" with
    | ok properties =>
      rw [hresult] at hread
      cases hread
    | error problem =>
      rw [hresult] at hread
      exact ⟨problem, readProperties_eq_error_iff.mp hresult, Except.error.inj hread⟩
  have htags : Markdown.hashtags "b #c\n" = ["c"] := by decide +kernel
  obtain ⟨-, -, hparts⟩ := extraction_degrades_by_parts noteFolder doc
  obtain ⟨-, -, hparts⟩ := hparts hmarkdown moment
  obtain ⟨hkept, -⟩ := hparts _ _ _ htext hsplit
  obtain ⟨hcontent, htold⟩ := hkept _ _ rfl hbad
  refine ⟨hmarkdown, htext, ⟨problem, hbad⟩, hcontent.properties_eq, fun tag => ?_, ?_⟩
  · rw [hcontent.mem_tags_iff, htags]
    simp
  · rw [← hmessage]
    exact htold

end Content

end CorpusQuery

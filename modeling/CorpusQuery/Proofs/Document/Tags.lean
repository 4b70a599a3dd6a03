import CorpusQuery.Proofs.Document.Extraction
import CorpusQuery.Proofs.Markdown.Hashtags

/-!
# Tags of documents

A document has the inline tags of its body and those that its front matter declares, without the
white space around them and without the `#` before them (`IsTagOf`). None of these is empty or
starts with `#`. So the tags that are listed are those that are found, whether a tag is asked for
with or without `#` before it (`hasTag_iff_listed`).
-/

namespace CorpusQuery

open Job

namespace Text

variable {p : Char → Bool} {s t : List Char}

/-! ## Starts and ends of texts -/

/-- What is behind all characters of a kind at the start of a text. -/
inductive Behind (p : Char → Bool) (s rest : List Char) : Prop
  | intro (run : List Char) (text : s = run ++ rest) (of_kind : ∀ c ∈ run, p c = true)
    (ended : ∀ c ∈ rest.head?, p c = false)

/-- What is between the white space at the two ends of a text. -/
inductive Trimmed (s rest : List Char) : Prop
  | intro (before after : List Char) (text : s = before ++ (rest ++ after))
    (blank_before : ∀ c ∈ before, isBlank c = true) (blank_after : ∀ c ∈ after, isBlank c = true)
    (starts : ∀ c ∈ rest.head?, isBlank c = false) (ends : ∀ c ∈ rest.getLast?, isBlank c = false)

theorem dropWhile_eq_iff : s.dropWhile p = t ↔ Behind p s t := by
  constructor
  · rintro rfl
    refine ⟨s.takeWhile p, List.takeWhile_append_dropWhile.symm,
      fun c hc => List.mem_takeWhile_imp hc, fun c hc => ?_⟩
    have hhead := List.head?_dropWhile_not p s
    rw [Option.mem_def.mp hc] at hhead
    simpa using hhead
  · rintro ⟨run, rfl, hrun, hended⟩
    rw [List.dropWhile_append_of_pos hrun]
    cases t with
    | nil => rfl
    | cons c t => exact List.dropWhile_cons_of_neg (by simpa using hended c rfl)

theorem trimEnd_eq_iff : trimEnd s = t ↔ Behind isBlank s.reverse t.reverse := by
  rw [← dropWhile_eq_iff, trimEnd, List.reverse_eq_iff]

theorem trim_eq_iff : trim s = t ↔ Trimmed s t := by
  rw [trim, trimEnd_eq_iff]
  constructor
  · rintro ⟨run, htext, hrun, hended⟩
    obtain ⟨before, hbefore, hblank, hstarts⟩ := dropWhile_eq_iff.mp (Eq.refl (s.dropWhile isBlank))
    have hrest : s.dropWhile isBlank = t ++ run.reverse := by
      rw [← List.reverse_inj, htext, List.reverse_append, List.reverse_reverse]
    rw [hrest] at hbefore hstarts
    refine ⟨before, run.reverse, hbefore, hblank, fun c hc => hrun c (List.mem_reverse.mp hc),
      fun c hc => hstarts c (List.mem_head?_append_of_mem_head? hc), fun c hc => hended c ?_⟩
    rwa [List.head?_reverse]
  · rintro ⟨before, after, rfl, hbefore, hafter, hstarts, hends⟩
    -- with nothing between them the white space at the two ends is one run
    rcases t with _ | ⟨c, t⟩
    · have hblank : ∀ c ∈ before ++ ([] ++ after), isBlank c = true := by
        intro c hc
        exact (List.mem_append.mp hc).elim (hbefore c) (hafter c)
      rw [List.dropWhile_eq_nil_iff.mpr hblank]
      exact ⟨[], rfl, by simp, by simp⟩
    · have hrest : (before ++ (c :: t ++ after)).dropWhile isBlank = c :: t ++ after :=
        dropWhile_eq_iff.mpr ⟨before, rfl, hbefore, hstarts⟩
      rw [hrest, List.reverse_append]
      exact ⟨after.reverse, rfl, fun d hd => hafter d (List.mem_reverse.mp hd),
        fun d hd => hends d (List.head?_reverse ▸ hd)⟩

end Text

namespace Content

variable {snapshot : Snapshot} {doc : Document} {tag : String}

/-! ## Declared tags -/

/-- The texts that a value of the property `tags` stands for: those of its items if it is a list,
none if it is null, and else its own. -/
inductive Lists : Value → String → Prop
  | item {items : List Value} {item : Value} (h : item ∈ items) : Lists (.list items) item.text
  | single {value : Value} (null : value ≠ .null) (list : ∀ items, value ≠ .list items) :
    Lists value value.text

/-- A text in front matter declares a tag: what is left of it without the white space around it and
then without the `#` at its start, if that is anything. -/
inductive Declares (written tag : String) : Prop
  | intro (trimmed : List Char) (trim : Text.Trimmed written.toList trimmed)
    (bare : Text.Behind (· == '#') trimmed tag.toList) (ne_empty : tag ≠ "")

theorem declares_iff {written : String} :
    Declares written tag ↔ declaredTag written = tag ∧ tag ≠ "" := by
  have hbare : ∀ trimmed : List Char, Text.trim written.toList = trimmed →
      (declaredTag written = tag ↔ Text.Behind (· == '#') trimmed tag.toList) := by
    rintro trimmed rfl
    rw [declaredTag, ← Text.dropWhile_eq_iff, ← String.toList_inj, String.toList_ofList]
  constructor
  · rintro ⟨trimmed, htrim, htag, hne⟩
    exact ⟨(hbare trimmed (Text.trim_eq_iff.mpr htrim)).mpr htag, hne⟩
  · rintro ⟨htag, hne⟩
    exact ⟨_, Text.trim_eq_iff.mp rfl, (hbare _ rfl).mp htag, hne⟩

theorem declaredTags_eq (value : Value) :
    ∃ written : List String, declaredTags value = (written.map declaredTag).filter (· != "") ∧
      ∀ text, text ∈ written ↔ Lists value text := by
  unfold declaredTags
  refine ⟨_, rfl, fun text => ⟨fun h => ?_, ?_⟩⟩
  · split at h
    · obtain ⟨item, hitem, rfl⟩ := List.mem_map.mp h
      exact .item hitem
    · cases h
    · next hlist hnull =>
      rw [List.mem_singleton.mp h]
      exact .single hnull hlist
  · rintro (hmem | ⟨hnull, hlist⟩)
    · exact List.mem_map_of_mem hmem
    · split
      · exact absurd rfl (hlist _)
      · exact absurd rfl hnull
      · exact List.mem_singleton_self _

theorem mem_declaredTags_iff {value : Value} :
    tag ∈ declaredTags value ↔ ∃ written, Lists value written ∧ Declares written tag := by
  obtain ⟨written, htags, hwritten⟩ := declaredTags_eq value
  rw [htags, List.mem_filter, List.mem_map]
  simp only [hwritten, declares_iff, bne_iff_ne]
  constructor
  · rintro ⟨⟨text, htext, htag⟩, hne⟩
    exact ⟨text, htext, htag, hne⟩
  · rintro ⟨text, htext, htag, hne⟩
    exact ⟨⟨text, htext, htag⟩, hne⟩

/-! ## The tags of a document -/

/-- The tags of a document: the inline tags of its body and those that its front matter declares. -/
inductive IsTagOf (snapshot : Snapshot) (doc : Document) (tag : String) : Prop
  | inline {text body : String} {block : Option String} (markdown : doc.isMarkdown = true)
    (text_eq : HasText snapshot.disk doc.location text)
    (split : Markdown.splitFrontMatter text = (block, body))
    (found : tag ∈ Markdown.hashtags body)
  | declared {text body written : String} {block : Option String}
    {properties : Dictionary Value} {value : Value} (markdown : doc.isMarkdown = true)
    (text_eq : HasText snapshot.disk doc.location text)
    (split : Markdown.splitFrontMatter text = (block, body))
    (read : HasProperties block properties) (found : properties.lookup "tags" = some value)
    (listed : Lists value written) (declares : Declares written tag)

theorem says_ofText (snapshot : Snapshot) (doc : Document) {text body : String}
    {block : Option String} (hsplit : Markdown.splitFrontMatter text = (block, body)) :
    ∃ properties, (HasProperties block properties ∨ properties = []) ∧
      Says snapshot doc body properties (ofText snapshot doc text).1 := by
  cases block with
  | none => exact ⟨[], .inr rfl, (ofText_of_hasProperties hsplit .noBlock).1⟩
  | some source =>
    rcases hasProperties_or_badBlock source with ⟨properties, hread⟩ | ⟨problem, hbad⟩
    · exact ⟨properties, .inl hread, (ofText_of_hasProperties hsplit hread).1⟩
    · exact ⟨[], .inr rfl, (ofText_of_badBlock hsplit hbad).1⟩

theorem mem_tags_extract_iff :
    tag ∈ (extract snapshot doc).1.tags ↔ IsTagOf snapshot doc tag := by
  constructor
  · intro h
    cases hmarkdown : doc.isMarkdown with
    | false =>
      rw [extract_of_other hmarkdown] at h
      cases h
    | true =>
      rcases hasText_or_unreadable snapshot.disk doc.location with
        ⟨text, htext⟩ | ⟨problem, hproblem⟩
      · rcases hsplit : Markdown.splitFrontMatter text with ⟨block, body⟩
        obtain ⟨properties, hread, hcontent⟩ := says_ofText snapshot doc hsplit
        rw [extract_of_hasText hmarkdown htext, hcontent.mem_tags_iff] at h
        rcases h with hinline | ⟨value, hvalue, hdeclared⟩
        · exact .inline hmarkdown htext hsplit hinline
        · rcases hread with hread | rfl
          · obtain ⟨written, hlisted, hdeclares⟩ := mem_declaredTags_iff.mp hdeclared
            exact .declared hmarkdown htext hsplit hread hvalue hlisted hdeclares
          · cases hvalue
      · rw [(extract_of_unreadable hmarkdown hproblem).1] at h
        cases h
  · rintro (⟨hmarkdown, htext, hsplit, hinline⟩ |
      ⟨hmarkdown, htext, hsplit, hread, hvalue, hlisted, hdeclares⟩)
    · obtain ⟨properties, -, hcontent⟩ := says_ofText snapshot doc hsplit
      rw [extract_of_hasText hmarkdown htext, hcontent.mem_tags_iff]
      exact .inl hinline
    · have hdeclared := mem_declaredTags_iff.mpr ⟨_, hlisted, hdeclares⟩
      rw [extract_of_hasText hmarkdown htext,
        (ofText_of_hasProperties hsplit hread).1.mem_tags_iff]
      exact .inr ⟨_, hvalue, hdeclared⟩

theorem pairwise_tags_extract (snapshot : Snapshot) (doc : Document) :
    (extract snapshot doc).1.tags.Pairwise (· < ·) := by
  unfold extract
  split
  · split
    · exact pairwise_sortedSet _
    · exact .nil
  · exact .nil

/-- A tag is not empty and does not start with `#`, wherever it comes from. -/
theorem IsTagOf.bare (h : IsTagOf snapshot doc tag) :
    tag ≠ "" ∧ tag.toList.head? ≠ some '#' := by
  cases h with
  | inline _ _ _ found =>
    obtain ⟨place, ⟨_, _, _, _, _, hne, hrun, _⟩⟩ := Markdown.mem_hashtags_iff.mp found
    refine ⟨fun hempty => hne (hempty ▸ rfl), fun hhead => ?_⟩
    exact absurd (hrun _ (List.mem_of_mem_head? hhead)) (by decide)
  | declared _ _ _ _ _ _ declares =>
    obtain ⟨trimmed, -, ⟨_, _, _, hended⟩, hne⟩ := declares
    exact ⟨hne, fun hhead => absurd (hended _ hhead) (by decide)⟩

end Content

namespace Document

open Content

variable {snapshot : Snapshot} {doc : Document}

/-! ## Asking for tags -/

theorem settled_property (shown : Bool) (path : List String) :
    Settled snapshot doc (doc.property snapshot shown path) :=
  property_composable composable_settled settled_content shown path

theorem settled_argument (arg : Arg) :
    Settled snapshot doc (Expr.Arg.evaluate (doc.scope snapshot) arg) := by
  cases arg with
  | literal value => exact .pure value
  | attr path => exact settled_property false path

theorem settled_method (name : String) (target : Value) (args : List Value) :
    Settled snapshot doc (Expr.applyMethod (doc.scope snapshot) name target args) :=
  @Expr.applyMethod_uniform _ _ _ (fun _ => doc.scope snapshot) composable_settled.uniformly
    (settled_content.bind fun _ => .pure _) name target args

/-- A method with one argument is applied to what it is called on and what the argument is, and it
does not matter what was read before. -/
theorem result_call {receiver : List String} {name : String} {arg : Arg}
    {target value : Value} {state : Option Content} (hstate : IsRead snapshot doc state)
    (htarget : ((doc.property snapshot false receiver).run none).result = .ok target)
    (harg : ((Expr.Arg.evaluate (doc.scope snapshot) arg).run none).result = .ok value) :
    (((Expr.call receiver name [arg]).evaluate (doc.scope snapshot)).run state).result =
      ((Expr.applyMethod (doc.scope snapshot) name target [value]).run none).result.map
        Value.bool := by
  have hcall : (Expr.call receiver name [arg]).evaluate (doc.scope snapshot) =
      doc.property snapshot false receiver >>= fun target =>
        Expr.Arg.evaluate (doc.scope snapshot) arg >>= fun value =>
          Expr.applyMethod (doc.scope snapshot) name target [value] >>= fun result =>
            pure (.bool result) := by
    simp only [Expr.evaluate, List.mapM_cons, List.mapM_nil, bind_assoc, pure_bind]
    rfl
  have happly : ∀ target value, Settled snapshot doc
      (Expr.applyMethod (doc.scope snapshot) name target [value] >>= fun result =>
        (pure (.bool result) : Reading Value)) :=
    fun target value => (settled_method name target [value]).bind fun _ => .pure _
  rw [hcall, (settled_property false receiver).result_bind
    (fun target => (settled_argument arg).bind (happly target)) hstate htarget,
    (settled_argument arg).result_bind (happly target) (.inl rfl) harg, run_bind_pure]

/-- The `#` before a tag that is asked for does not count. -/
theorem result_hasTag {arg : Arg} {s rest : String} {state : Option Content}
    (hstate : IsRead snapshot doc state)
    (harg : ((Expr.Arg.evaluate (doc.scope snapshot) arg).run state).result = .ok (.str s))
    (hrest : Text.Behind (· == '#') s.toList rest.toList) :
    (((Expr.call ["file"] "hasTag" [arg]).evaluate (doc.scope snapshot)).run state).result =
      .ok (.bool (decide (rest ∈ (extract snapshot doc).1.tags))) := by
  have hdrop : Expr.dropHashes s = rest := by
    rw [Expr.dropHashes, Text.dropWhile_eq_iff.mpr hrest, String.ofList_toList]
  have hfile : ((doc.property snapshot false ["file"]).run none).result =
      .ok (.document doc.path) := rfl
  have htag : Expr.applyMethod (doc.scope snapshot) "hasTag" (.document doc.path) [.str s] =
      (doc.content snapshot >>= fun content => pure content.tags) >>= fun tags =>
        pure (tags.contains (Expr.dropHashes s)) := rfl
  rw [(settled_argument arg).result_eq hstate] at harg
  rw [result_call hstate hfile harg, htag, run_bind_pure, run_bind_pure, run_content_none, hdrop,
    ← List.contains_eq_mem]
  rfl

theorem result_tags (snapshot : Snapshot) (doc : Document) (shown : Bool) {state : Option Content}
    (hstate : IsRead snapshot doc state) :
    ((doc.property snapshot shown ["file", "tags"]).run state).result =
      .ok (textList (extract snapshot doc).1.tags) := by
  have htags : doc.property snapshot shown ["file", "tags"] =
      doc.content snapshot >>= fun content => pure (textList content.tags) := rfl
  rw [(settled_property shown ["file", "tags"]).result_eq hstate, htags, run_bind_pure,
    run_content_none]
  rfl

theorem contains_textList (texts : List String) (s : String) :
    (textList texts).contains (.str s) = .ok (decide (s ∈ texts)) := by
  have hany : (texts.any fun text => Value.equal (.str text) (.str s)) = decide (s ∈ texts) := by
    rw [← List.contains_eq_mem, List.contains_eq_any_beq]
    exact List.any_congr rfl fun text => BEq.comm
  rw [textList, Value.contains, List.any_map]
  exact congrArg Except.ok hany

theorem result_contains {s : String} {state : Option Content} (hstate : IsRead snapshot doc state) :
    (((Expr.call ["file", "tags"] "contains" [.literal (.str s)]).evaluate
      (doc.scope snapshot)).run state).result =
        .ok (.bool (decide (s ∈ (extract snapshot doc).1.tags))) := by
  have htags : Expr.applyMethod (doc.scope snapshot) "contains"
      (textList (extract snapshot doc).1.tags) [.str s] =
        liftEval ((textList (extract snapshot doc).1.tags).contains (.str s)) := rfl
  rw [result_call hstate (result_tags snapshot doc false (.inl rfl)) rfl, htags, contains_textList]
  rfl

/-- The tags that are listed are those that the document has, in increasing order, and each is found
under its name, with or without `#` before it. -/
theorem hasTag_iff_listed (snapshot : Snapshot) (doc : Document) :
    ∃ tags : List String, tags.Pairwise (· < ·) ∧
      (∀ tag, tag ∈ tags ↔ IsTagOf snapshot doc tag) ∧
      (∀ tag ∈ tags, tag ≠ "" ∧ tag.toList.head? ≠ some '#') ∧
      ∀ state, IsRead snapshot doc state →
        let result (e : Expr) := ((e.evaluate (doc.scope snapshot)).run state).result
        (∀ shown, ((doc.property snapshot shown ["file", "tags"]).run state).result =
          .ok (textList tags)) ∧
        (∀ (arg : Arg) (s : String),
          ((Expr.Arg.evaluate (doc.scope snapshot) arg).run state).result = .ok (.str s) →
          ∃ rest : String, Text.Behind (· == '#') s.toList rest.toList ∧
            result (.call ["file"] "hasTag" [arg]) = .ok (.bool (decide (rest ∈ tags)))) ∧
        ∀ tag ∈ tags,
          result (.call ["file"] "hasTag" [.literal (.str tag)]) = .ok (.bool true) ∧
          result (.call ["file"] "hasTag" [.literal (.str ("#" ++ tag))]) = .ok (.bool true) ∧
          result (.call ["file", "tags"] "contains" [.literal (.str tag)]) = .ok (.bool true) := by
  refine ⟨(extract snapshot doc).1.tags, pairwise_tags_extract snapshot doc,
    fun tag => mem_tags_extract_iff, fun tag htag => (mem_tags_extract_iff.mp htag).bare,
    fun state hstate => ?_⟩
  intro result
  refine ⟨fun shown => result_tags snapshot doc shown hstate, fun arg s harg => ?any,
    fun tag htag => ?listed⟩
  case any =>
    have hrest : Text.Behind (· == '#') s.toList (Expr.dropHashes s).toList := by
      rw [Expr.dropHashes, String.toList_ofList]
      exact Text.dropWhile_eq_iff.mp rfl
    exact ⟨Expr.dropHashes s, hrest, result_hasTag hstate harg hrest⟩
  case listed =>
    obtain ⟨-, hhead⟩ := (mem_tags_extract_iff.mp htag).bare
    have hended : ∀ c ∈ tag.toList.head?, (c == '#') = false := by
      intro c hc
      rw [beq_eq_false_iff_ne]
      rintro rfl
      exact hhead hc
    have hhashed : ("#" ++ tag).toList = ['#'] ++ tag.toList := by simp
    have hfound : (.ok (.bool (decide (tag ∈ (extract snapshot doc).1.tags))) :
        Except Error Value) = .ok (.bool true) := by rw [decide_eq_true htag]
    refine ⟨?_, ?_, ?_⟩
    · exact (result_hasTag hstate rfl ⟨[], rfl, by simp, hended⟩).trans hfound
    · exact (result_hasTag hstate rfl ⟨['#'], hhashed, by simp, hended⟩).trans hfound
    · exact (result_contains hstate).trans hfound

/-- A tag that is declared with two `#` and a blank behind it is found with one `#`, and `#` alone
is found nowhere. -/
theorem hasTag_iff_listed_of_note :
    let doc := ofPath noteFolder ["b.md"]
    let snapshot := (momentOf "---\ntags: '##b '\n---\nx #a\n").snapshot noteFolder
    let result (e : Expr) := ((e.evaluate (doc.scope snapshot)).run none).result
    IsTagOf snapshot doc "a" ∧ IsTagOf snapshot doc "b" ∧
      result (.call ["file"] "hasTag" [.literal (.str "#b")]) = .ok (.bool true) ∧
      result (.call ["file"] "hasTag" [.literal (.str "#")]) = .ok (.bool false) := by
  intro doc snapshot result
  have hmarkdown : doc.isMarkdown = true := by decide +kernel
  have htext : HasText snapshot.disk doc.location "---\ntags: '##b '\n---\nx #a\n" :=
    hasText_momentOf (by decide +kernel)
  have hsplit : Markdown.splitFrontMatter "---\ntags: '##b '\n---\nx #a\n" =
      (some "tags: '##b '\n", "x #a\n") := by decide +kernel
  have hyaml : ((readProperties "tags: '##b '\n").map fun properties =>
        (properties.lookup "tags").map fun value => (value.kind, value.text)).mapError
          PropertiesProblem.message = .ok (some (.str, "##b ")) := by decide +kernel
  obtain ⟨properties, value, hread, hvalue, hkind, hwritten⟩ : ∃ properties value,
      HasProperties (some "tags: '##b '\n") properties ∧ properties.lookup "tags" = some value ∧
        value.kind = .str ∧ value.text = "##b " := by
    cases hresult : readProperties "tags: '##b '\n" with
    | error problem =>
      rw [hresult] at hyaml
      cases hyaml
    | ok properties =>
      rw [hresult] at hyaml
      obtain ⟨value, hvalue, hfacts⟩ := Option.map_eq_some_iff.mp (Except.ok.inj hyaml)
      obtain ⟨hkind, hwritten⟩ := Prod.ext_iff.mp hfacts
      exact ⟨properties, value, readProperties_eq_ok_iff.mp hresult, hvalue, hkind, hwritten⟩
  have hlists : Lists value "##b " := by
    rw [← hwritten]
    refine .single ?_ ?_
    · rintro rfl
      cases hkind
    · rintro items rfl
      cases hkind
  have ha : IsTagOf snapshot doc "a" :=
    .inline hmarkdown htext hsplit (by decide +kernel)
  have hb : IsTagOf snapshot doc "b" :=
    .declared hmarkdown htext hsplit hread hvalue hlists (declares_iff.mpr (by decide +kernel))
  obtain ⟨tags, -, hmem, hbare, hstate⟩ := hasTag_iff_listed snapshot doc
  obtain ⟨-, hany, hlisted⟩ := hstate none (.inl rfl)
  obtain ⟨rest, hrest, hfound⟩ := hany (.literal (.str "#")) "#" rfl
  have hempty : rest = "" :=
    String.toList_inj.mp (Text.dropWhile_eq_iff.mpr hrest).symm
  have habsent : rest ∉ tags := fun h => (hbare rest h).1 hempty
  refine ⟨ha, hb, (hlisted "b" ((hmem "b").mpr hb)).2.1, ?_⟩
  exact hfound.trans (by rw [decide_eq_false habsent])

end Document

end CorpusQuery

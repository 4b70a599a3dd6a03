import CorpusQuery.Proofs.Corpus.Resolution
import CorpusQuery.Proofs.Corpus.Walk
import Mathlib.Data.List.Infix

/-!
# Anchors of links

A link can go on to an anchor behind a `#`. The blanks around the link are taken away before the
name is cut off, and a name without a `#` and without blanks around it stays whole
(`trim_name_anchor`). An anchor without a `#` makes no difference. Of an anchor with one, only what
comes after the last `#` is dropped, and the rest is taken for a part of the name
(`resolve_cuts_last_anchor`), so a link to a heading below a heading loses its document
(`not_every_anchor_dropped`).
-/

namespace CorpusQuery

open CorpusQuery.Path (IsName)

namespace Text

/-- The white space at the end of a text is behind its last character that is none. -/
theorem trimEnd_append_cons {c : Char} (h : isBlank c = false) (s rest : List Char) :
    trimEnd (s ++ c :: rest) = s ++ c :: trimEnd rest := by
  have hkept : (c :: s.reverse).dropWhile isBlank = c :: s.reverse :=
    List.dropWhile_cons_of_neg (by simp [h])
  have hreverse : (s ++ c :: rest).reverse = rest.reverse ++ c :: s.reverse := by simp
  rw [trimEnd, trimEnd, hreverse, List.dropWhile_append, hkept]
  split
  · next hempty => simp [List.isEmpty_iff.mp hempty]
  · simp

theorem prefix_trimEnd (s : List Char) : trimEnd s <+: s := List.rdropWhile_prefix isBlank s

/-- A trimmed text does not start with white space. -/
theorem dropWhile_eq_self_of_trim {s : List Char} (h : trim s = s) :
    s.dropWhile isBlank = s := by
  refine (List.dropWhile_suffix isBlank).eq_of_length_le ?_
  calc s.length = (trimEnd (s.dropWhile isBlank)).length := by rw [← trim, h]
    _ ≤ (s.dropWhile isBlank).length := (prefix_trimEnd _).length_le

end Text

namespace Index

variable {name : List Char}

/-- Behind a name only the end of the anchor can be trimmed. -/
theorem trim_name_anchor (hne : name ≠ []) (htrim : Text.trim name = name) (anchor : List Char) :
    Text.trim (name ++ '#' :: anchor) = name ++ '#' :: Text.trimEnd anchor := by
  have hstart : (name ++ '#' :: anchor).dropWhile Text.isBlank = name ++ '#' :: anchor := by
    obtain ⟨first, others, rfl⟩ := List.exists_cons_of_ne_nil hne
    have hfirst : ¬Text.isBlank first = true := fun hblank => by
      have hlength := congrArg List.length (Text.dropWhile_eq_self_of_trim htrim)
      rw [List.dropWhile_cons_of_pos hblank, List.length_cons] at hlength
      have hle := (List.dropWhile_suffix (l := others) Text.isBlank).length_le
      omega
    exact List.dropWhile_cons_of_neg hfirst
  rw [Text.trim, hstart, Text.trimEnd_append_cons (by decide)]

/-- A text without a `#` is at the start of a link if it is at the start of the name. -/
theorem prefix_name_anchor_iff {start : List Char} (h : '#' ∉ start) (anchor : List Char) :
    start <+: name ++ '#' :: anchor ↔ start <+: name := by
  refine ⟨fun hstart => ?_, fun hstart => hstart.trans (List.prefix_append _ _)⟩
  rcases Nat.lt_or_ge name.length start.length with hlong | hshort
  · -- the start would go on over the mark
    have hmark : name ++ ['#'] <+: name ++ '#' :: anchor := ⟨anchor, by simp⟩
    have hlength : (name ++ ['#']).length ≤ start.length := by
      rw [List.length_append, List.length_singleton]
      exact hlong
    have hmem : '#' ∈ name ++ ['#'] := by simp
    exact absurd ((List.prefix_of_prefix_length_le hmark hstart hlength).subset hmem) h
  · exact List.prefix_of_prefix_length_le hstart (List.prefix_append _ _) hshort

/-- What comes after a `#` does not make a link an address in the web. -/
theorem isWeb_append_anchor (name anchor : String) :
    isWeb (name ++ "#" ++ anchor) = isWeb name := by
  have htext : (name ++ "#" ++ anchor).toList = name.toList ++ '#' :: anchor.toList := by simp
  have hstart : ∀ scheme : List Char, '#' ∉ scheme →
      scheme.isPrefixOf (name ++ "#" ++ anchor).toList = scheme.isPrefixOf name.toList := by
    intro scheme hscheme
    rw [Bool.eq_iff_iff, List.isPrefixOf_iff_prefix, List.isPrefixOf_iff_prefix, htext]
    exact prefix_name_anchor_iff hscheme _
  rw [isWeb, isWeb, hstart _ (by decide), hstart _ (by decide)]

/-- A link without white space around it whose name holds no `#`, and that is no address in the
web. -/
structure IsPlain (name : String) : Prop where
  ne_empty : name ≠ ""
  unmarked : '#' ∉ name.toList
  trimmed : Text.trim name.toList = name.toList
  not_web : isWeb name = false

theorem IsPlain.trim_anchor {name : String} (h : IsPlain name) (anchor : String) :
    Text.trim (name ++ "#" ++ anchor).toList =
      name.toList ++ '#' :: Text.trimEnd anchor.toList := by
  have hne : name.toList ≠ [] := by simpa using h.ne_empty
  have htext : (name ++ "#" ++ anchor).toList = name.toList ++ '#' :: anchor.toList := by simp
  rw [htext, trim_name_anchor hne h.trimmed]

theorem IsPlain.linkName_eq {name : String} (h : IsPlain name) : linkName name = name := by
  have hunmarked : '#' ∉ Text.trim name.toList := by
    rw [h.trimmed]
    exact h.unmarked
  rw [linkName_of_unmarked hunmarked, h.trimmed, String.ofList_toList]

/-- An anchor without a `#` is cut off. -/
theorem IsPlain.linkName_anchor {name anchor : String} (h : IsPlain name)
    (hanchor : '#' ∉ anchor.toList) : linkName (name ++ "#" ++ anchor) = name := by
  have hlast : '#' ∉ Text.trimEnd anchor.toList :=
    fun hmem => hanchor ((Text.prefix_trimEnd _).subset hmem)
  rw [linkName_of_marked (h.trim_anchor anchor) hlast, String.ofList_toList]

/-- Of an anchor with a `#` the part before the last one stays in the name. -/
theorem IsPlain.linkName_nested {name : String} (h : IsPlain name) (kept : String)
    {dropped : String} (hdropped : '#' ∉ dropped.toList) :
    linkName (name ++ "#" ++ (kept ++ "#" ++ dropped)) = name ++ "#" ++ kept := by
  have hlast : '#' ∉ Text.trimEnd dropped.toList :=
    fun hmem => hdropped ((Text.prefix_trimEnd _).subset hmem)
  have htext : Text.trim (name ++ "#" ++ (kept ++ "#" ++ dropped)).toList =
      (name ++ "#" ++ kept).toList ++ '#' :: Text.trimEnd dropped.toList := by
    have hanchor : (kept ++ "#" ++ dropped).toList = kept.toList ++ '#' :: dropped.toList := by
      simp
    rw [h.trim_anchor, hanchor, Text.trimEnd_append_cons (by decide)]
    simp
  rw [linkName_of_marked htext hlast, String.ofList_toList]

variable {index : Index} {d : Disk} {root : Disk.Place}

/-- Two links of one name lead to the same. -/
theorem resolve_eq_of_linkName {link other : String} (hweb : isWeb link = false)
    (hother : isWeb other = false) (hname : linkName link = linkName other) (document : String)
    (markdown : Bool) :
    index.resolve d root link document markdown = index.resolve d root other document markdown := by
  unfold resolve
  rw [hweb, hother, hname]
  rfl

/-- A link of the given name leads to what the first rule says that has an answer. -/
theorem firstOf_rules_iff {link name : String} (hfiles : ∀ file ∈ index.files, ∀ n ∈ file, IsName n)
    (hroot : ∀ n ∈ root, IsName n) (hweb : isWeb link = false) (hname : linkName link = name)
    (hne : name ≠ "") (document : String) (markdown : Bool) (found : Option RelPath) :
    FirstOf (rules index d root (documentFolder root document) markdown name) found ↔
      (index.resolve d root link document markdown).target?.map Path.components =
        found.map fun file => file.map Path.Component.name := by
  subst hname
  obtain ⟨settled, hsettled, htarget⟩ :=
    settles_resolve (d := d) hfiles hroot hweb hne document markdown
  rw [htarget]
  constructor
  · intro hfound
    rw [hfound.unique rules_unique hsettled]
  · intro heq
    have hinjective : Function.Injective fun file : RelPath => file.map Path.Component.name :=
      List.map_injective_iff.mpr fun _ _ h => Path.Component.name.inj h
    rwa [← Option.map_injective hinjective heq]

/-- The anchor of a plain link makes no difference if there is no `#` in it. Of any other anchor
only what comes after the last `#` is dropped. The rest stays in the name, and the link leads to
what the rules say for that name. -/
theorem resolve_cuts_last_anchor {name : String} (h : IsPlain name) (index : Index) (d : Disk)
    (root : Disk.Place) (document : String) (markdown : Bool) (anchor : String) :
    ('#' ∉ anchor.toList →
      index.resolve d root (name ++ "#" ++ anchor) document markdown =
        index.resolve d root name document markdown) ∧
    ∀ kept dropped, anchor = kept ++ "#" ++ dropped → '#' ∉ dropped.toList →
      (∀ file ∈ index.files, ∀ n ∈ file, IsName n) → (∀ n ∈ root, IsName n) →
      ∀ found, FirstOf (rules index d root (documentFolder root document) markdown
          (name ++ "#" ++ kept)) found ↔
        (index.resolve d root (name ++ "#" ++ anchor) document markdown).target?.map
          Path.components = found.map fun file => file.map Path.Component.name := by
  have hweb : isWeb (name ++ "#" ++ anchor) = false :=
    (isWeb_append_anchor name anchor).trans h.not_web
  constructor
  · intro hanchor
    have hname := (h.linkName_anchor hanchor).trans h.linkName_eq.symm
    exact resolve_eq_of_linkName hweb h.not_web hname document markdown
  · rintro kept dropped rfl hdropped hfiles hroot
    have hne : name ++ "#" ++ kept ≠ "" := fun hempty => by
      simpa using congrArg String.toList hempty
    exact firstOf_rules_iff hfiles hroot hweb (h.linkName_nested kept hdropped) hne document
      markdown

/-! ## A heading below a heading -/

/-- A disk with one note in the folder `notes`. -/
def oneNote : Disk := ⟨[("notes", .folder [("note.md", .file "".toUTF8)])]⟩

theorem ofDisk_oneNote : ofDisk oneNote ["notes"] = .ok ⟨[["note.md"]]⟩ := by
  have hroot : oneNote.node? ["notes"] =
      some (.folder [("note.md", Disk.Node.file "".toUTF8)]) := rfl
  rw [ofDisk_of_folder hroot (by decide +kernel)]
  simp [Disk.filesIn, Disk.filesAt, Disk.isHidden]

theorem isPlain_note : IsPlain "note" :=
  ⟨by decide, by decide, by decide +kernel, by decide +kernel⟩

/-- No other file is beside the note. -/
theorem byPath?_oneNote {name : String} (h : IsName name) (hother : name ≠ "note.md") :
    byPath? oneNote ["notes"] name = none := by
  have hnormalize : Path.normalize name = some [name] := by
    rw [Path.normalize, Path.components_name h]
    rfl
  have hlookup : [("note.md", Disk.Node.file "".toUTF8)].lookup name = none := by
    rw [List.lookup_cons, beq_eq_false_iff_ne.mpr hother]
    rfl
  have hfolder : oneNote.node? ["notes"] =
      some (.folder [("note.md", Disk.Node.file "".toUTF8)]) := rfl
  have hfile : oneNote.isFile ["notes"] (RelPath.text [name]) = false := by
    rw [Disk.isFile, Disk.find, Disk.locate_text (by simp) (by simpa using h), List.map_singleton,
      Disk.walkTo, hfolder]
    simp only [hlookup]
    rfl
  rw [byPath?, hnormalize]
  exact if_neg (by simp [hfile])

theorem resolve_note :
    resolve ⟨[["note.md"]]⟩ oneNote ["notes"] "note" "/notes/a.md" true = .file "note.md" := by
  have hname : byName? ⟨[["note.md"]]⟩ "note" (folderFrom ["notes"] "/notes/a.md") = none := by
    decide +kernel
  have hmarkdown : byName? ⟨[["note.md"]]⟩ "note.md" (folderFrom ["notes"] "/notes/a.md") =
      some "note.md" := by decide +kernel
  unfold resolve
  rw [isPlain_note.not_web, isPlain_note.linkName_eq]
  simp [hname, hmarkdown]

theorem resolve_nested_heading :
    resolve ⟨[["note.md"]]⟩ oneNote ["notes"] "note#top#part" "/notes/a.md" true = .missing := by
  have hweb : isWeb "note#top#part" = false := by decide +kernel
  have hlink : linkName "note#top#part" = "note#top" := by decide +kernel
  have hname : byName? ⟨[["note.md"]]⟩ "note#top" (folderFrom ["notes"] "/notes/a.md") = none := by
    decide +kernel
  have hmarkdown : byName? ⟨[["note.md"]]⟩ "note#top.md" (folderFrom ["notes"] "/notes/a.md") =
      none := by decide +kernel
  have hpath : byPath? oneNote ["notes"] "note#top" = none :=
    byPath?_oneNote (by decide +kernel) (by decide)
  have hpathmarkdown : byPath? oneNote ["notes"] "note#top.md" = none :=
    byPath?_oneNote (by decide +kernel) (by decide)
  unfold resolve
  rw [hweb, hlink]
  simp [hname, hmarkdown, hpath, hpathmarkdown]

/-- The note is found with a heading, and for a heading below that a note of another name is looked
for. -/
theorem resolve_cuts_last_anchor_of_note :
    resolve ⟨[["note.md"]]⟩ oneNote ["notes"] "note#top" "/notes/a.md" true =
      resolve ⟨[["note.md"]]⟩ oneNote ["notes"] "note" "/notes/a.md" true ∧
    FirstOf (rules ⟨[["note.md"]]⟩ oneNote ["notes"] (documentFolder ["notes"] "/notes/a.md") true
      "note#top") none := by
  have hcuts := resolve_cuts_last_anchor isPlain_note ⟨[["note.md"]]⟩ oneNote ["notes"]
    "/notes/a.md" true
  refine ⟨(hcuts "top").1 (by decide), ?_⟩
  have hfiles : ∀ file ∈ [["note.md"]], ∀ n ∈ file, IsName n := by decide +kernel
  have hroot : ∀ n ∈ ["notes"], IsName n := by decide +kernel
  have htext : "note" ++ "#" ++ "top#part" = "note#top#part" := by decide +kernel
  refine ((hcuts "top#part").2 "top" "part" (by decide +kernel) (by decide) hfiles hroot none).mpr ?_
  rw [htext, resolve_nested_heading]
  rfl

/-- A link to a heading below a heading leads nowhere, although there is a note of its name. -/
theorem not_every_anchor_dropped :
    ∃ index, ofDisk oneNote ["notes"] = .ok index ∧
      index.resolve oneNote ["notes"] "note" "/notes/a.md" true = .file "note.md" ∧
      index.resolve oneNote ["notes"] "note#top#part" "/notes/a.md" true = .missing ∧
      ¬∀ name anchor, IsPlain name →
        index.resolve oneNote ["notes"] (name ++ "#" ++ anchor) "/notes/a.md" true =
          index.resolve oneNote ["notes"] name "/notes/a.md" true := by
  refine ⟨_, ofDisk_oneNote, resolve_note, resolve_nested_heading, fun h => ?_⟩
  have htext : "note" ++ "#" ++ "top#part" = "note#top#part" := by decide +kernel
  have hsame := h "note" "top#part" isPlain_note
  rw [htext, resolve_nested_heading, resolve_note] at hsame
  cases hsame

end Index

end CorpusQuery

import CorpusQuery.Corpus.Index
import CorpusQuery.Proofs.Path.Components

/-!
# What links lead to

A link is followed by rules that are tried in order: by its name the nearest file of that name, then
the same with `.md`, then the path below the root, then the same with `.md`. The rules are stated
about the list of files and the disk, and `resolve` answers with the first rule that has an answer
(`resolve_follows_rules`). Answers are compared by their components, since a path can be written in
several ways.
-/

namespace CorpusQuery.Index

open CorpusQuery.Path (Component IsName)

/-! ## The rules -/

/-- The name in a link: what is left of the link without the blanks around it, up to its last `#` if
there is one. -/
inductive IsLinkName (link name : String) : Prop where
  | whole (text : Text.trim link.toList = name.toList) (unmarked : '#' ∉ name.toList)
  | marked (anchor : List Char) (text : Text.trim link.toList = name.toList ++ '#' :: anchor)
      (last : '#' ∉ anchor)

/-- The folder that a document at `document` is in: below the root if the document is there. -/
def documentFolder (root : Disk.Place) (document : String) : List Component :=
  let components := Path.components document
  ((List.isPrefixOf? (.root :: root.map .name) components).getD components).dropLast

/-- A file of the given name that is in the folder `near`, or that is in the first folder in order
if no file of that name is in `near`. -/
structure Nearest (index : Index) (near : List Component) (name : String) (file : RelPath) :
    Prop where
  listed : file ∈ index.files
  named : file.getLast? = some name
  nearest : file.dropLast.map .name = near ∨
    ∀ other ∈ index.files, other.getLast? = some name →
      other.dropLast.map .name ≠ near ∧ RelPath.le file.dropLast other.dropLast = true

/-- The path below the root that a text leads to, if there is a file. -/
structure AtPath (d : Disk) (root : Disk.Place) (text : String) (path : RelPath) : Prop where
  below : Path.normalize text = some path
  isFile : d.isFile root path.text = true

/-- The rules for a link with a name, the first one first. -/
def rules (index : Index) (d : Disk) (root : Disk.Place) (near : List Component) (markdown : Bool)
    (name : String) : List (RelPath → Prop) :=
  if markdown then
    [index.Nearest near name, index.Nearest near (name ++ ".md"), AtPath d root name,
      AtPath d root (name ++ ".md")]
  else [index.Nearest near name, AtPath d root name]

/-- The answer of the first rule that has one. -/
inductive FirstOf {α : Type} : List (α → Prop) → Option α → Prop where
  | nil : FirstOf [] none
  | here {rule : α → Prop} {rules : List (α → Prop)} {a : α} (holds : rule a) :
      FirstOf (rule :: rules) (some a)
  | later {rule : α → Prop} {rules : List (α → Prop)} {found : Option α} (fails : ∀ a, ¬rule a)
      (rest : FirstOf rules found) : FirstOf (rule :: rules) found

/-- Rules with one answer each have one answer together. -/
theorem FirstOf.unique {α : Type} {rules : List (α → Prop)} {found other : Option α}
    (hrules : ∀ rule ∈ rules, ∀ a b, rule a → rule b → a = b) (h : FirstOf rules found)
    (hother : FirstOf rules other) : found = other := by
  induction h with
  | nil =>
    cases hother
    rfl
  | here holds =>
    cases hother with
    | here hb => exact congrArg some (hrules _ List.mem_cons_self _ _ holds hb)
    | later fails _ => exact absurd holds (fails _)
  | later fails _ ih =>
    cases hother with
    | here hb => exact absurd hb (fails _)
    | later _ rest => exact ih (fun rule hrule => hrules rule (List.mem_cons_of_mem _ hrule)) rest

/-! ## The name in a link -/

theorem linkName_of_unmarked {link : String} (h : '#' ∉ Text.trim link.toList) :
    linkName link = String.ofList (Text.trim link.toList) := by
  have hnone : (Text.trim link.toList).reverse.dropWhile (· != '#') = [] := by
    rw [List.dropWhile_eq_nil_iff]
    intro c hc
    rw [bne_iff_ne]
    rintro rfl
    exact h (List.mem_reverse.mp hc)
  unfold linkName
  dsimp only
  rw [hnone]

theorem linkName_of_marked {link : String} {name anchor : List Char}
    (htext : Text.trim link.toList = name ++ '#' :: anchor) (hlast : '#' ∉ anchor) :
    linkName link = String.ofList name := by
  -- the last mark is the first one from the end
  have hanchor : ∀ c ∈ anchor.reverse, (c != '#') = true := by
    intro c hc
    rw [bne_iff_ne]
    rintro rfl
    exact hlast (List.mem_reverse.mp hc)
  have hrest : (name ++ '#' :: anchor).reverse.dropWhile (· != '#') = '#' :: name.reverse := by
    rw [List.reverse_append, List.reverse_cons, List.append_assoc,
      List.dropWhile_append_of_pos hanchor]
    rfl
  unfold linkName
  dsimp only
  rw [htext, hrest]
  dsimp only
  rw [List.reverse_reverse]

/-- A text with a mark has a last one. -/
theorem exists_last_mark {text : List Char} (h : '#' ∈ text) :
    ∃ name anchor, text = name ++ '#' :: anchor ∧ '#' ∉ anchor := by
  obtain ⟨anchor, name, hreverse, hlast⟩ := List.eq_append_cons_of_mem (List.mem_reverse.mpr h)
  refine ⟨name.reverse, anchor.reverse, ?_, fun hmem => hlast (List.mem_reverse.mp hmem)⟩
  rw [← List.reverse_reverse text, hreverse, List.reverse_append, List.reverse_cons,
    List.append_assoc, List.singleton_append]

/-- A link has one name. -/
theorem isLinkName_iff {link name : String} : IsLinkName link name ↔ name = linkName link := by
  constructor
  · rintro (⟨htext, hunmarked⟩ | ⟨anchor, htext, hlast⟩)
    · rw [linkName_of_unmarked (htext ▸ hunmarked), htext, String.ofList_toList]
    · rw [linkName_of_marked htext hlast, String.ofList_toList]
  · rintro rfl
    by_cases hmark : '#' ∈ Text.trim link.toList
    · obtain ⟨name, anchor, htext, hlast⟩ := exists_last_mark hmark
      refine .marked anchor ?_ hlast
      rw [linkName_of_marked htext hlast, String.toList_ofList, htext]
    · have htext : Text.trim link.toList = (linkName link).toList := by
        rw [linkName_of_unmarked hmark, String.toList_ofList]
      exact .whole htext (htext ▸ hmark)

/-! ## The nearest file -/

theorem le_antisymm {p q : RelPath} (h : p.le q = true) (hother : q.le p = true) : p = q :=
  Std.LawfulEqCmp.eq_of_compare (Std.OrientedCmp.isLE_antisymm h hother)

theorem least_le_left (p q : RelPath) : (least p q).le p = true := by
  unfold least
  split
  · exact Std.ReflCmp.isLE_rfl
  · next h =>
    have hgt : compare p q = .gt := by simpa [RelPath.le] using h
    exact Ordering.isLE_of_eq_lt (Std.OrientedCmp.lt_of_gt hgt)

theorem least_le_right (p q : RelPath) : (least p q).le q = true := by
  unfold least
  split
  · next h => exact h
  · exact Std.ReflCmp.isLE_rfl

theorem least_eq_or (p q : RelPath) : least p q = p ∨ least p q = q := by
  unfold least
  split
  · exact .inl rfl
  · exact .inr rfl

theorem foldl_least_mem (folder : RelPath) (folders : List RelPath) :
    folders.foldl least folder ∈ folder :: folders := by
  induction folders generalizing folder with
  | nil => exact List.mem_cons_self
  | cons next folders ih =>
    rw [List.foldl_cons]
    rcases List.mem_cons.mp (ih (least folder next)) with h | h
    · rcases least_eq_or folder next with hleast | hleast
      · exact List.mem_cons.mpr (.inl (h.trans hleast))
      · exact List.mem_cons_of_mem _ (List.mem_cons.mpr (.inl (h.trans hleast)))
    · exact List.mem_cons_of_mem _ (List.mem_cons_of_mem _ h)

/-- The folder that is kept comes before all the others. -/
theorem foldl_least_le (folder : RelPath) (folders : List RelPath) :
    ∀ other ∈ folder :: folders, (folders.foldl least folder).le other = true := by
  induction folders generalizing folder with
  | nil =>
    intro other hother
    rw [List.mem_singleton.mp hother]
    exact Std.ReflCmp.isLE_rfl
  | cons next folders ih =>
    intro other hother
    rw [List.foldl_cons]
    have hfirst := ih (least folder next) _ List.mem_cons_self
    rcases List.mem_cons.mp hother with rfl | hother
    · exact Std.TransOrd.isLE_trans hfirst (least_le_left _ _)
    · rcases List.mem_cons.mp hother with rfl | hother
      · exact Std.TransOrd.isLE_trans hfirst (least_le_right _ _)
      · exact ih _ other (List.mem_cons_of_mem _ hother)

theorem mem_foldersOf {index : Index} {name : String} {folder : RelPath} :
    folder ∈ index.foldersOf name ↔
      ∃ file ∈ index.files, file.getLast? = some name ∧ file.dropLast = folder := by
  simp only [foldersOf, List.mem_map, List.mem_filter, beq_iff_eq, and_assoc]

/-- A path with a last name is its folder and that name. -/
theorem dropLast_append_name {file : RelPath} {name : String} (h : file.getLast? = some name) :
    file.dropLast ++ [name] = file :=
  List.dropLast_append_getLast? name h

/-- Where no folder that has the name is near, the file in the first of these folders is the nearest
of that name. -/
theorem nearest_foldl_least {index : Index} {near : List Component} {name : String}
    {folder : RelPath} {folders : List RelPath}
    (hfolders : index.foldersOf name = folder :: folders)
    (hfar : ∀ other ∈ folder :: folders, other.map Component.name ≠ near) :
    index.Nearest near name (folders.foldl least folder ++ [name]) := by
  have hmem := foldl_least_mem folder folders
  rw [← hfolders] at hmem
  obtain ⟨file, hfile, hname, hfolder⟩ := mem_foldersOf.mp hmem
  rw [← hfolder, dropLast_append_name hname]
  refine ⟨hfile, hname, .inr fun other hother hothername => ?_⟩
  have hotherfolder : other.dropLast ∈ folder :: folders :=
    hfolders ▸ mem_foldersOf.mpr ⟨other, hother, hothername, rfl⟩
  exact ⟨hfar _ hotherfolder, hfolder ▸ foldl_least_le folder folders _ hotherfolder⟩

/-- If there is a file of a name, one of them is the nearest. -/
theorem exists_nearest {index : Index} {name : String} {file : RelPath} (hfile : file ∈ index.files)
    (hname : file.getLast? = some name) (near : List Component) :
    ∃ nearest, index.Nearest near name nearest := by
  have hmem : file.dropLast ∈ index.foldersOf name := mem_foldersOf.mpr ⟨file, hfile, hname, rfl⟩
  obtain ⟨folder, folders, hfolders⟩ := List.exists_cons_of_ne_nil (List.ne_nil_of_mem hmem)
  by_cases hnear : ∃ other ∈ folder :: folders, other.map Component.name = near
  · obtain ⟨other, hother, hnear⟩ := hnear
    obtain ⟨file, hfile, hname, rfl⟩ := mem_foldersOf.mp (hfolders ▸ hother)
    exact ⟨file, hfile, hname, .inl hnear⟩
  · refine ⟨_, nearest_foldl_least hfolders fun other hother heq => hnear ⟨other, hother, heq⟩⟩

/-- At most one file is the nearest of its name. -/
theorem Nearest.unique {index : Index} {near : List Component} {name : String}
    {file other : RelPath} (h : index.Nearest near name file)
    (hother : index.Nearest near name other) : file = other := by
  have hfolder : file.dropLast = other.dropLast := by
    rcases h.nearest with hnear | hfirst
    · rcases hother.nearest with hnear' | hfirst'
      · exact List.map_injective_iff.mpr (fun _ _ h => Component.name.inj h)
          (hnear.trans hnear'.symm)
      · exact absurd hnear (hfirst' file h.listed h.named).1
    · rcases hother.nearest with hnear' | hfirst'
      · exact absurd hnear' (hfirst other hother.listed hother.named).1
      · exact le_antisymm (hfirst other hother.listed hother.named).2
          (hfirst' file h.listed h.named).2
  rw [← dropLast_append_name h.named, ← dropLast_append_name hother.named, hfolder]

theorem AtPath.unique {d : Disk} {root : Disk.Place} {text : String} {path other : RelPath}
    (h : AtPath d root text path) (hother : AtPath d root text other) : path = other :=
  Option.some.inj (h.below.symm.trans hother.below)

/-! ## Following the rules -/

/-- The answer is what the first rule that has one says, in some spelling. -/
def Settles (rules : List (RelPath → Prop)) (answer : Option String) : Prop :=
  ∃ found, FirstOf rules found ∧
    answer.map Path.components = found.map fun file => file.map Component.name

theorem settles_nil : Settles [] none := ⟨none, .nil, rfl⟩

theorem settles_none {rule : RelPath → Prop} (h : ∀ file, ¬rule file) : Settles [rule] none :=
  ⟨none, .later h .nil, rfl⟩

theorem settles_some {rule : RelPath → Prop} {file : RelPath} {text : String} (h : rule file)
    (htext : Path.components text = file.map .name) : Settles [rule] (some text) :=
  ⟨some file, .here h, congrArg some htext⟩

theorem FirstOf.append_of_some {α : Type} {rules others : List (α → Prop)} {a : α}
    (h : FirstOf rules (some a)) : FirstOf (rules ++ others) (some a) := by
  generalize hfound : some a = found at h
  induction h with
  | nil => cases hfound
  | here holds =>
    cases hfound
    exact .here holds
  | later fails _ ih => exact .later fails (ih hfound)

theorem FirstOf.append_of_none {α : Type} {rules others : List (α → Prop)} {found : Option α}
    (h : FirstOf rules none) (hothers : FirstOf others found) :
    FirstOf (rules ++ others) found := by
  generalize hnone : Option.none = answer at h
  induction h with
  | nil => exact hothers
  | here _ => cases hnone
  | later fails _ ih => exact .later fails (ih hnone)

/-- Rules after one another are followed by an answer and, without one, by the next. -/
theorem Settles.orElse {rules others : List (RelPath → Prop)} {answer other : Option String}
    (h : Settles rules answer) (hother : Settles others other) :
    Settles (rules ++ others) (answer <|> other) := by
  obtain ⟨found, hfound, hanswer⟩ := h
  cases answer with
  | none =>
    obtain ⟨found', hfound', hother⟩ := hother
    rw [Option.map_none, eq_comm, Option.map_eq_none_iff] at hanswer
    subst hanswer
    exact ⟨found', hfound.append_of_none hfound', hother⟩
  | some text =>
    rw [Option.map_some, eq_comm, Option.map_eq_some_iff] at hanswer
    obtain ⟨file, rfl, htext⟩ := hanswer
    exact ⟨some file, hfound.append_of_some, congrArg some htext.symm⟩

theorem settles_byName? {index : Index} (hfiles : ∀ file ∈ index.files, ∀ name ∈ file, IsName name)
    (name near : String) :
    Settles [index.Nearest (Path.components near) name] (index.byName? name near) := by
  unfold byName?
  split
  · next hnone =>
    refine settles_none fun file hfile => ?_
    have hmem : file.dropLast ∈ index.foldersOf name :=
      mem_foldersOf.mpr ⟨file, hfile.listed, hfile.named, rfl⟩
    rw [hnone] at hmem
    cases hmem
  · next folder folders hfolders =>
    have hproper : ∀ file ∈ index.files, file.getLast? = some name → IsName name :=
      fun file hfile hname => hfiles file hfile name (List.mem_of_getLast? hname)
    split
    · next hany =>
      obtain ⟨f, hf, hnear⟩ := List.any_eq_true.mp hany
      obtain ⟨file, hfile, hname, rfl⟩ := mem_foldersOf.mp (hfolders ▸ hf)
      refine settles_some ⟨hfile, hname, .inl (beq_iff_eq.mp hnear)⟩ ?_
      -- the answer is written with the folder of the document, which may be spelled otherwise
      rw [Path.components_join (hproper file hfile hname), ← beq_iff_eq.mp hnear,
        ← dropLast_append_name hname, List.map_append]
      simp
    · next hany =>
      have hfar : ∀ other ∈ folder :: folders, other.map Component.name ≠ Path.components near :=
        fun other hother hnear => hany (List.any_eq_true.mpr ⟨other, hother, beq_iff_eq.mpr hnear⟩)
      have hnearest := nearest_foldl_least hfolders hfar
      exact settles_some hnearest (Path.components_text (hfiles _ hnearest.listed))

theorem settles_byPath? (d : Disk) (root : Disk.Place) (text : String) :
    Settles [AtPath d root text] (byPath? d root text) := by
  unfold byPath?
  split
  · next path hpath =>
    split
    · next hfile =>
      exact settles_some ⟨hpath, hfile⟩ (Path.components_text (Path.isName_of_normalize hpath))
    · next hfile =>
      refine settles_none fun other hother => hfile ?_
      cases hpath.symm.trans hother.below
      exact hother.isFile
  · next hnone =>
    refine settles_none fun other hother => ?_
    cases hnone.symm.trans hother.below

theorem components_folderFrom {root : Disk.Place} (hroot : ∀ name ∈ root, IsName name)
    (document : String) :
    Path.components (folderFrom root document) = documentFolder root document := by
  rw [folderFrom, Path.components_folder, documentFolder, ← Path.map_components_below? hroot]
  cases Path.below? root document <;> rfl

theorem rules_unique {index : Index} {d : Disk} {root : Disk.Place} {near : List Component}
    {markdown : Bool} {name : String} :
    ∀ rule ∈ rules index d root near markdown name, ∀ a b, rule a → rule b → a = b := by
  have hnearest : ∀ name a b, index.Nearest near name a → index.Nearest near name b → a = b :=
    fun _ _ _ => Nearest.unique
  have hpath : ∀ name a b, AtPath d root name a → AtPath d root name b → a = b :=
    fun _ _ _ => AtPath.unique
  cases markdown with
  | false => simpa [rules] using ⟨hnearest _, hpath _⟩
  | true => simpa [rules] using ⟨hnearest _, hnearest _, hpath _, hpath _⟩

/-- What is found for the name of a link is what the rules say. -/
theorem settles_resolve {index : Index} {d : Disk} {root : Disk.Place} {link : String}
    (hfiles : ∀ file ∈ index.files, ∀ name ∈ file, IsName name)
    (hroot : ∀ name ∈ root, IsName name) (hweb : isWeb link = false)
    (hname : linkName link ≠ "") (document : String) (markdown : Bool) :
    Settles (rules index d root (documentFolder root document) markdown (linkName link))
      (index.resolve d root link document markdown).target? := by
  have htarget : (index.resolve d root link document markdown).target? =
      (index.byName? (linkName link) (folderFrom root document) <|>
        (if markdown then some (linkName link ++ ".md") else none).bind
          (index.byName? · (folderFrom root document)) <|>
        byPath? d root (linkName link) <|>
        (if markdown then some (linkName link ++ ".md") else none).bind (byPath? d root)) := by
    unfold resolve
    rw [hweb]
    simp only [Bool.false_eq_true, if_false, beq_iff_eq, hname]
    split <;> next hfound => rw [hfound]; rfl
  rw [htarget, ← components_folderFrom hroot]
  have hnearest : ∀ name, Settles
      [index.Nearest (Path.components (folderFrom root document)) name]
      (index.byName? name (folderFrom root document)) :=
    fun name => settles_byName? hfiles name _
  have hpath := settles_byPath? d root
  cases markdown with
  | false =>
    have hall := (hnearest (linkName link)).orElse
      (settles_nil.orElse ((hpath (linkName link)).orElse settles_nil))
    simpa only [rules, Bool.false_eq_true, if_false, Option.bind_none, List.cons_append,
      List.nil_append] using hall
  | true =>
    have hall := (hnearest (linkName link)).orElse ((hnearest (linkName link ++ ".md")).orElse
      ((hpath (linkName link)).orElse (hpath (linkName link ++ ".md"))))
    simpa only [rules, if_true, Option.bind_some, List.cons_append, List.nil_append] using hall

/-- A link that is no address in the web has one name, and leads nowhere if that is empty.
Otherwise the first of the rules that has an answer says what it leads to, and if none has one it
leads nowhere. -/
theorem resolve_follows_rules {index : Index} {d : Disk} {root : Disk.Place} {link : String}
    (hfiles : ∀ file ∈ index.files, ∀ name ∈ file, IsName name)
    (hroot : ∀ name ∈ root, IsName name) (hweb : isWeb link = false) (document : String)
    (markdown : Bool) :
    (∃! name, IsLinkName link name) ∧
    ∀ name, IsLinkName link name →
      (name = "" → (index.resolve d root link document markdown).target? = none) ∧
      (name ≠ "" → ∀ found,
        FirstOf (rules index d root (documentFolder root document) markdown name) found ↔
          (index.resolve d root link document markdown).target?.map Path.components =
            found.map fun file => file.map Component.name) := by
  refine ⟨⟨linkName link, isLinkName_iff.mpr rfl, fun name hname => isLinkName_iff.mp hname⟩, ?_⟩
  intro name hlink
  obtain rfl := isLinkName_iff.mp hlink
  refine ⟨fun hempty => ?_, fun hname found => ?_⟩
  · unfold resolve
    rw [hweb, hempty]
    rfl
  · obtain ⟨settled, hsettled, htarget⟩ :=
      settles_resolve (d := d) hfiles hroot hweb hname document markdown
    rw [htarget]
    -- each rule has one answer at most, so no other answer follows from the rules
    constructor
    · intro hfound
      rw [hfound.unique rules_unique hsettled]
    · intro heq
      have hinjective : Function.Injective fun file : RelPath => file.map Component.name :=
        List.map_injective_iff.mpr fun _ _ h => Component.name.inj h
      rwa [← Option.map_injective hinjective heq]

/-- A note in the folder of the document comes before one in the first folder. -/
theorem resolve_follows_rules_of_notes :
    FirstOf
      (rules ⟨[["a", "note.md"], ["b", "note.md"], ["b", "other.md"]]⟩ Disk.empty ["notes"]
        (documentFolder ["notes"] "/notes/b/other.md") true "note")
      (some ["b", "note.md"]) := by
  have hfiles : ∀ file ∈ [["a", "note.md"], ["b", "note.md"], ["b", "other.md"]],
      ∀ name ∈ file, IsName name := by decide +kernel
  have hroot : ∀ name ∈ ["notes"], IsName name := by decide +kernel
  have hlink : IsLinkName "note#top" "note" :=
    .marked ['t', 'o', 'p'] (by decide +kernel) (by decide)
  have hweb : isWeb "note#top" = false := by decide +kernel
  obtain ⟨-, hrules⟩ := @resolve_follows_rules
    ⟨[["a", "note.md"], ["b", "note.md"], ["b", "other.md"]]⟩ Disk.empty ["notes"] "note#top"
    hfiles hroot hweb "/notes/b/other.md" true
  exact ((hrules "note" hlink).2 (by decide) _).mpr (by decide +kernel)

end CorpusQuery.Index

import CorpusQuery.Proofs.Corpus.Resolution
import CorpusQuery.Proofs.Corpus.Walk

/-!
# Which files a corpus has

A path below the root is in the index if and only if its names lead to a file, or to a link to one,
through folders, and none of them is hidden (`mem_ofDisk_iff`). A link that names a path can lead to
files that the walk leaves out. What a link leads to is a file of the corpus unless a name on the
way is hidden or a folder on the way is a link (`resolved_mem_iff`).
-/

namespace CorpusQuery

open CorpusQuery.Path (IsName)

namespace Disk

variable {d : Disk} {root : Place} {entries : List (String × Node)}

/-- The names in each folder at or below a node are names that a file can have. -/
inductive Node.Named : Node → Prop where
  | file (content : ByteArray) : Named (.file content)
  | link (target : String) : Named (.link target)
  | folder {entries : List (String × Node)} (names : ∀ entry ∈ entries, IsName entry.1)
      (below : ∀ entry ∈ entries, entry.2.Named) : Named (.folder entries)

/-- The names in each folder of a disk are names that a file can have. -/
def Named (d : Disk) : Prop := Node.Named (.folder d.entries)

theorem isName_of_nodeIn? {names : Place} {node below : Node} (hnamed : node.Named)
    (h : nodeIn? names node = some below) : ∀ name ∈ names, IsName name := by
  induction names generalizing node with
  | nil => simp
  | cons first names ih =>
    obtain ⟨entries, next, rfl, hlookup, hnext⟩ := nodeIn?_cons_eq_some h
    obtain ⟨before, after, heq, -⟩ := List.lookup_eq_some_iff.mp hlookup
    have hentry : (first, next) ∈ entries := heq ▸ List.mem_append_right _ List.mem_cons_self
    cases hnamed with
    | folder hnames hbelow =>
      intro name hname
      rcases List.mem_cons.mp hname with rfl | hname
      · exact hnames _ hentry
      · exact ih (hbelow _ hentry) hnext name hname

/-- Among distinct names, the entry of a name is the one that is found for it. -/
theorem lookup_eq_some_iff_mem {name : String} {node : Node} (h : (entries.map Prod.fst).Nodup) :
    entries.lookup name = some node ↔ (name, node) ∈ entries := by
  induction entries with
  | nil => simp
  | cons entry entries ih =>
    obtain ⟨first, next⟩ := entry
    obtain ⟨hnew, hrest⟩ := List.nodup_cons.mp h
    rw [List.lookup_cons, List.mem_cons, Prod.mk.injEq]
    by_cases hname : name = first
    · subst hname
      have habsent : (name, node) ∉ entries := fun hmem => hnew (List.mem_map.mpr ⟨_, hmem, rfl⟩)
      simp [habsent, eq_comm]
    · have hother : (name == first) = false := beq_eq_false_iff_ne.mpr hname
      simpa [hname, hother] using ih hrest

/-! ## The walk -/

/-- A node that the walk lists: a file or a link to one. -/
inductive IsListed (d : Disk) (place : Place) : Node → Prop where
  | file (content : ByteArray) : IsListed d place (.file content)
  | link (target : String) (leads : d.isFile [] (Place.text place) = true) :
      IsListed d place (.link target)

/-- A file is found below the node at a path by names that are not hidden. -/
def FoundBelow (d : Disk) (root : Place) (path : RelPath) (node : Node) (file : RelPath) : Prop :=
  ∃ names below, file = path ++ names ∧ (∀ name ∈ names, isHidden name = false) ∧
    nodeIn? names node = some below ∧ d.IsListed (root ++ file) below

/-- A file is found at a node that is no folder if it is that node. -/
theorem foundBelow_iff_of_leaf {path file : RelPath} {node : Node}
    (h : ∀ entries, node ≠ .folder entries) :
    d.FoundBelow root path node file ↔ file = path ∧ d.IsListed (root ++ path) node := by
  constructor
  · rintro ⟨names, below, rfl, -, hbelow, hlisted⟩
    cases names with
    | nil =>
      cases hbelow
      exact ⟨List.append_nil path, by simpa using hlisted⟩
    | cons name names =>
      obtain ⟨entries, -, rfl, -⟩ := nodeIn?_cons_eq_some hbelow
      exact absurd rfl (h entries)
  · rintro ⟨rfl, hlisted⟩
    exact ⟨[], node, (List.append_nil file).symm, by simp, rfl, hlisted⟩

/-- A file is found below a folder if it is found at one of the entries that are not hidden. -/
theorem foundBelow_folder_iff {path file : RelPath} (h : (entries.map Prod.fst).Nodup) :
    d.FoundBelow root path (.folder entries) file ↔
      ∃ name node, (name, node) ∈ entries ∧ isHidden name = false ∧
        d.FoundBelow root (path ++ [name]) node file := by
  constructor
  · rintro ⟨names, below, rfl, hvisible, hbelow, hlisted⟩
    cases names with
    | nil =>
      cases hbelow
      cases hlisted
    | cons name names =>
      obtain ⟨hname, hnames⟩ := List.forall_mem_cons.mp hvisible
      obtain ⟨_, node, heq, hlookup, hnode⟩ := nodeIn?_cons_eq_some hbelow
      cases heq
      exact ⟨name, node, (lookup_eq_some_iff_mem h).mp hlookup, hname, names, below,
        List.append_cons path name names, hnames, hnode, hlisted⟩
  · rintro ⟨name, node, hentry, hname, names, below, rfl, hnames, hbelow, hlisted⟩
    refine ⟨name :: names, below, (List.append_cons path name names).symm,
      List.forall_mem_cons.mpr ⟨hname, hnames⟩, ?_, hlisted⟩
    rw [nodeIn?, (lookup_eq_some_iff_mem h).mpr hentry, Option.bind_some, hbelow]

/-- The walk lists what is found below a node. -/
theorem mem_files_iff (d : Disk) (root : Place) :
    (∀ path node, node.Distinct → ∀ file,
      file ∈ d.filesAt root path node ↔ d.FoundBelow root path node file) ∧
    (∀ path entries, (∀ entry ∈ entries, entry.2.Distinct) → ∀ file,
      file ∈ d.filesIn root path entries ↔ ∃ name node, (name, node) ∈ entries ∧
        isHidden name = false ∧ d.FoundBelow root (path ++ [name]) node file) := by
  refine filesAt.mutual_induct d root
    (fun path node => node.Distinct → ∀ file,
      file ∈ d.filesAt root path node ↔ d.FoundBelow root path node file)
    (fun path entries => (∀ entry ∈ entries, entry.2.Distinct) → ∀ file,
      file ∈ d.filesIn root path entries ↔ ∃ name node, (name, node) ∈ entries ∧
        isHidden name = false ∧ d.FoundBelow root (path ++ [name]) node file)
    ?file ?folder ?found ?dangling ?nil ?cons
  case file =>
    intro path content _ file
    rw [filesAt, List.mem_singleton, foundBelow_iff_of_leaf (by simp)]
    exact ⟨fun heq => ⟨heq, .file content⟩, And.left⟩
  case folder =>
    intro path entries ih hdistinct file
    cases hdistinct with
    | folder hnames hbelow => rw [filesAt, ih hbelow, foundBelow_folder_iff hnames]
  case found =>
    intro path target hfound _ file
    rw [filesAt, if_pos hfound, List.mem_singleton, foundBelow_iff_of_leaf (by simp)]
    exact ⟨fun heq => ⟨heq, .link target hfound⟩, And.left⟩
  case dangling =>
    -- such a link is no file, and no folder that would be entered
    intro path target hdangling _ file
    rw [filesAt, if_neg hdangling, foundBelow_iff_of_leaf (by simp)]
    constructor
    · intro hmem
      cases hmem
    · rintro ⟨-, hlisted⟩
      cases hlisted with
      | link _ hleads => exact absurd hleads hdangling
  case nil =>
    intro path _ file
    simp [filesIn]
  case cons =>
    intro path name node entries ih ihs hdistinct file
    obtain ⟨hnode, hentries⟩ := List.forall_mem_cons.mp hdistinct
    rw [filesIn, List.mem_append, ihs hentries]
    constructor
    · rintro (hmem | ⟨other, below, hentry, hvisible, hfound⟩)
      · split at hmem
        · cases hmem
        · next hvisible =>
          exact ⟨name, node, List.mem_cons_self, by simpa using hvisible,
            (ih hnode file).mp hmem⟩
      · exact ⟨other, below, List.mem_cons_of_mem _ hentry, hvisible, hfound⟩
    · rintro ⟨other, below, hentry, hvisible, hfound⟩
      rcases List.mem_cons.mp hentry with heq | hentry
      · cases heq
        rw [hvisible]
        exact .inl ((ih hnode file).mpr hfound)
      · exact .inr ⟨other, below, hentry, hvisible, hfound⟩

/-! ## The files of an index -/

/-- What keeps a path out of the walk: a hidden name, or a folder that is a link. -/
inductive LeftOut (d : Disk) (root : Place) (path : RelPath) : Prop where
  | hidden (name : String) (mem : name ∈ path) (hidden : isHidden name = true)
  | linked (folder : RelPath) (target : String) (start : folder <+: path) (short : folder ≠ path)
      (link : d.node? (root ++ folder) = some (.link target))

theorem ne_nil_of_isFile {path : RelPath} (h : d.isFile root path.text = true) : path ≠ [] := by
  rintro rfl
  cases h

section

variable {index : Index} (hdistinct : d.Distinct) (hnamed : d.Named)
  (hroot : d.node? root = some (.folder entries)) (h : Index.ofDisk d root = .ok index)

include hdistinct hnamed hroot h

/-- A path is in the index if its names lead to something that is listed and none is hidden. -/
theorem mem_ofDisk_iff (path : RelPath) :
    path ∈ index.files ↔ (∀ name ∈ path, isHidden name = false) ∧
      ∃ node, d.node? (root ++ path) = some node ∧ d.IsListed (root ++ path) node := by
  have hfolder := distinct_of_nodeIn? hdistinct hroot
  have hwalk := (mem_files_iff d root).1 [] (.folder entries) hfolder path
  rw [filesAt] at hwalk
  rw [Index.ofDisk_of_folder hroot (isName_of_nodeIn? hnamed hroot)] at h
  cases h
  rw [List.mem_mergeSort, hwalk, node?_below hroot]
  constructor
  · rintro ⟨names, below, rfl, hvisible, hbelow, hlisted⟩
    exact ⟨hvisible, below, hbelow, hlisted⟩
  · rintro ⟨hvisible, below, hbelow, hlisted⟩
    exact ⟨path, below, rfl, hvisible, hbelow, hlisted⟩

theorem isName_of_mem_ofDisk {path : RelPath} (hpath : path ∈ index.files) :
    ∀ name ∈ path, IsName name := by
  obtain ⟨-, node, hnode, -⟩ := (mem_ofDisk_iff hdistinct hnamed hroot h path).mp hpath
  intro name hname
  exact isName_of_nodeIn? hnamed hnode name (List.mem_append_right root hname)

/-- The files of an index are files on the disk. -/
theorem isFile_of_mem_ofDisk {path : RelPath} (hpath : path ∈ index.files) :
    d.isFile root path.text = true := by
  obtain ⟨-, node, hnode, hlisted⟩ := (mem_ofDisk_iff hdistinct hnamed hroot h path).mp hpath
  have hne : path ≠ [] := by
    rintro rfl
    rw [List.append_nil, hroot] at hnode
    cases hnode
    cases hlisted
  have hnames := isName_of_mem_ofDisk hdistinct hnamed hroot h hpath
  cases hlisted with
  | file content =>
    have hlocate := locate_of_node? hne hnames hnode (by simp)
    exact isFile_of_find (find_of_locate hlocate hnode)
  | link target hleads => rwa [← isFile_below hroot hne (isName_of_nodeIn? hnamed hroot) hnames]

/-- A file on the disk is in the index if and only if nothing keeps it out. -/
theorem mem_ofDisk_iff_of_isFile {path : RelPath} (hnames : ∀ name ∈ path, IsName name)
    (hfile : d.isFile root path.text = true) :
    path ∈ index.files ↔ ¬d.LeftOut root path := by
  rw [mem_ofDisk_iff hdistinct hnamed hroot h]
  constructor
  · rintro ⟨hvisible, node, hnode, -⟩ hleft
    cases hleft with
    | hidden name hname hhidden =>
      rw [hvisible name hname] at hhidden
      cases hhidden
    | linked folder target hstart hshort hlink =>
      -- there is nothing below a link
      obtain ⟨rest, rfl⟩ := hstart
      rw [← List.append_assoc, node?_append, hlink, Option.bind_some] at hnode
      cases rest with
      | nil => exact hshort (List.append_nil folder).symm
      | cons name names => cases hnode
  · intro hkept
    have hvisible : ∀ name ∈ path, isHidden name = false := by
      intro name hname
      rw [← Bool.not_eq_true]
      exact fun hhidden => hkept (.hidden name hname hhidden)
    have hne := ne_nil_of_isFile hfile
    obtain ⟨reached, content, hlocate, hreached⟩ := exists_of_isFile hfile
    rw [locate_text hne hnames] at hlocate
    -- no folder on the way is a link, so there is a node of these names
    obtain ⟨node, hnode, hend⟩ := exists_node_of_walkTo hroot hne
      (fun folder target hstart hshort hlink => hkept (.linked folder target hstart hshort hlink))
      hlocate
    refine ⟨hvisible, node, hnode, ?_⟩
    rcases hend with ⟨target, rfl⟩ | rfl
    · refine .link target ?_
      rwa [isFile_below hroot hne (isName_of_nodeIn? hnamed hroot) hnames]
    · cases hnode.symm.trans hreached
      exact .file content

end

end Disk

namespace Index

variable {d : Disk} {root : Disk.Place} {entries : List (String × Disk.Node)}

/-- A link of the given name names the path below the root: no file of the corpus has its name. -/
structure NamesPath (index : Index) (markdown : Bool) (name : String) (path : RelPath) : Prop where
  unknown : ∀ file ∈ index.files, file.getLast? ≠ some name
  unknown_markdown : markdown = true → ∀ file ∈ index.files, file.getLast? ≠ some (name ++ ".md")
  below : Path.normalize name = some path ∨
    markdown = true ∧ Path.normalize (name ++ ".md") = some path

theorem ne_of_not_nearest {index : Index} {near : List Path.Component} {name : String}
    (h : ∀ file, ¬index.Nearest near name file) :
    ∀ file ∈ index.files, file.getLast? ≠ some name := by
  intro file hfile hname
  obtain ⟨nearest, hnearest⟩ := exists_nearest hfile hname near
  exact h nearest hnearest

/-- The rules find a file of the corpus by its name, and any file on the disk by its path. -/
theorem FirstOf.mem_or_namesPath {index : Index} {near : List Path.Component} {markdown : Bool}
    {name : String} {path : RelPath}
    (h : FirstOf (rules index d root near markdown name) (some path)) :
    path ∈ index.files ∨ index.NamesPath markdown name path ∧ d.isFile root path.text = true := by
  cases markdown with
  | false =>
    rcases h with _ | hnearest | ⟨hname, _ | hpath | ⟨_, ⟨⟩⟩⟩
    · exact .inl hnearest.listed
    · exact .inr ⟨⟨ne_of_not_nearest hname, by simp, .inl hpath.below⟩, hpath.isFile⟩
  | true =>
    rcases h with _ | hnearest |
      ⟨hname, _ | hnearest | ⟨hmarkdown, _ | hpath | ⟨_, _ | hpath | ⟨_, ⟨⟩⟩⟩⟩⟩
    · exact .inl hnearest.listed
    · exact .inl hnearest.listed
    · exact .inr ⟨⟨ne_of_not_nearest hname, fun _ => ne_of_not_nearest hmarkdown,
        .inl hpath.below⟩, hpath.isFile⟩
    · exact .inr ⟨⟨ne_of_not_nearest hname, fun _ => ne_of_not_nearest hmarkdown,
        .inr ⟨rfl, hpath.below⟩⟩, hpath.isFile⟩

/-! ## Files that the walk leaves out -/

/-- A note, a hidden note, and a link to a folder beside that folder. -/
def hiddenNotesEntries : List (String × Disk.Node) :=
  [("a.md", .file "a".toUTF8), (".secret.md", .file "b".toUTF8),
    ("real", .folder [("n.md", .file "n".toUTF8)]), ("linked", .link "real")]

/-- A disk with these entries in the folder `notes`. -/
def hiddenNotes : Disk where
  entries := [("notes", .folder hiddenNotesEntries)]

theorem not_isFile_linked :
    hiddenNotes.isFile [] (Disk.Place.text ["notes", "linked"]) = false := by
  have hlink : Disk.steps "real" = [.enter "real"] := by decide +kernel
  rw [Disk.isFile, Disk.find, Disk.locate_place (by decide +kernel)]
  simp [Disk.walkTo, Disk.node?, Disk.nodeIn?, Disk.maxLinks, hiddenNotes, hiddenNotesEntries,
    hlink, List.lookup_cons, Bind.bind, Except.bind, Path.isAbsolute]

theorem ofDisk_hiddenNotes :
    ofDisk hiddenNotes ["notes"] = .ok ⟨[["a.md"], ["real", "n.md"]]⟩ := by
  have hroot : hiddenNotes.node? ["notes"] = some (.folder hiddenNotesEntries) := rfl
  have hfiles : hiddenNotes.filesIn ["notes"] [] hiddenNotesEntries =
      [["a.md"], ["real", "n.md"]] := by
    simp [hiddenNotesEntries, Disk.filesIn, Disk.filesAt, Disk.isHidden, not_isFile_linked]
  have hsorted : [["a.md"], ["real", "n.md"]].Pairwise fun p q => RelPath.le p q = true := by
    decide +kernel
  rw [ofDisk_of_folder hroot (by decide +kernel), hfiles, List.mergeSort_of_pairwise hsorted]

theorem isFile_secret : hiddenNotes.isFile ["notes"] (RelPath.text [".secret.md"]) = true := by
  have hnode : hiddenNotes.node? (["notes"] ++ [".secret.md"]) = some (.file "b".toUTF8) := rfl
  have hlocate := Disk.locate_of_node? (by simp) (by decide +kernel) hnode (by simp)
  exact Disk.isFile_of_find (Disk.find_of_locate hlocate hnode)

theorem isFile_linked : hiddenNotes.isFile ["notes"] (RelPath.text ["linked", "n.md"]) = true := by
  have hlink : Disk.steps "real" = [.enter "real"] := by decide +kernel
  rw [Disk.isFile, Disk.find, Disk.locate_text (by simp) (by decide +kernel)]
  simp [Disk.walkTo, Disk.node?, Disk.nodeIn?, Disk.maxLinks, hiddenNotes, hiddenNotesEntries,
    hlink, List.lookup_cons, Bind.bind, Except.bind, Path.isAbsolute]

theorem distinct_hiddenNotes : hiddenNotes.Distinct := by
  refine .folder (by decide) ?_
  simp only [hiddenNotes, List.forall_mem_singleton]
  refine .folder (by decide) ?_
  simp only [hiddenNotesEntries, List.forall_mem_cons]
  refine ⟨.file _, .file _, .folder (by decide) ?_, .link _, by simp⟩
  simp only [List.forall_mem_singleton]
  exact .file _

theorem named_hiddenNotes : hiddenNotes.Named := by
  refine .folder (by decide +kernel) ?_
  simp only [hiddenNotes, List.forall_mem_singleton]
  refine .folder (by decide +kernel) ?_
  simp only [hiddenNotesEntries, List.forall_mem_cons]
  refine ⟨.file _, .file _, .folder (by decide +kernel) ?_, .link _, by simp⟩
  simp only [List.forall_mem_singleton]
  exact .file _

/-- A name that no file of the corpus has leads to the file at its path. -/
theorem resolve_of_path {index : Index} {name document : String} {path : RelPath}
    (hweb : isWeb name = false) (hname : linkName name = name) (hne : name ≠ "")
    (hunknown : index.foldersOf name = []) (hpath : Path.normalize name = some path)
    (hfile : d.isFile root path.text = true) :
    (index.resolve d root name document false) = .file path.text := by
  have hby : index.byName? name (folderFrom root document) = none := by rw [byName?, hunknown]
  have hfound : byPath? d root name = some path.text := by
    rw [byPath?, hpath]
    exact if_pos hfile
  unfold resolve
  rw [hweb, hname]
  simp [hne, hby, hfound]

/-- A link that leads somewhere leads to a file on the disk. It is a file of the corpus if and only
if no name on the way is hidden and no folder on the way is a link. If it is none, the link names
its path, and no file of the corpus has the name of the link. -/
theorem resolved_mem_iff {index : Index} {link document text : String} {markdown : Bool}
    (hdistinct : d.Distinct) (hnamed : d.Named) (hroot : d.node? root = some (.folder entries))
    (hindex : ofDisk d root = .ok index) (hweb : isWeb link = false)
    (h : (index.resolve d root link document markdown).target? = some text) :
    ∃ path : RelPath, Path.components text = path.map .name ∧ d.isFile root path.text = true ∧
      (path ∈ index.files ↔ ¬d.LeftOut root path) ∧
      ∀ name, IsLinkName link name →
        path ∈ index.files ∨ index.NamesPath markdown name path := by
  have hfiles : ∀ file ∈ index.files, ∀ name ∈ file, IsName name :=
    fun file hfile => Disk.isName_of_mem_ofDisk hdistinct hnamed hroot hindex hfile
  have hname : linkName link ≠ "" := by
    intro hempty
    unfold resolve at h
    rw [hweb, hempty] at h
    cases h
  obtain ⟨found, hfound, htarget⟩ := settles_resolve (d := d) hfiles
    (Disk.isName_of_nodeIn? hnamed hroot) hweb hname document markdown
  rw [h, Option.map_some, eq_comm, Option.map_eq_some_iff] at htarget
  obtain ⟨path, rfl, htext⟩ := htarget
  have hkept : (∀ name ∈ path, IsName name) → d.isFile root path.text = true →
      (path ∈ index.files ↔ ¬d.LeftOut root path) :=
    Disk.mem_ofDisk_iff_of_isFile hdistinct hnamed hroot hindex
  rcases hfound.mem_or_namesPath with hmem | ⟨hpath, hfile⟩
  · have hfile := Disk.isFile_of_mem_ofDisk hdistinct hnamed hroot hindex hmem
    exact ⟨path, htext.symm, hfile, hkept (hfiles path hmem) hfile, fun _ _ => .inl hmem⟩
  · have hnames : ∀ name ∈ path, IsName name := by
      rcases hpath.below with hbelow | ⟨-, hbelow⟩
      · exact Path.isName_of_normalize hbelow
      · exact Path.isName_of_normalize hbelow
    refine ⟨path, htext.symm, hfile, hkept hnames hfile, fun name hlink => .inr ?_⟩
    rwa [isLinkName_iff.mp hlink]

/-- The hidden note is kept out of the walk, and a link that names its path leads to it. -/
theorem resolved_mem_iff_of_secret :
    ∃ path : RelPath, Path.components ".secret.md" = path.map .name ∧
      hiddenNotes.isFile ["notes"] path.text = true ∧
      (path ∈ [["a.md"], ["real", "n.md"]] ↔ ¬hiddenNotes.LeftOut ["notes"] path) := by
  have hweb : isWeb ".secret.md" = false := by decide +kernel
  have hresolve : (resolve ⟨[["a.md"], ["real", "n.md"]]⟩ hiddenNotes ["notes"] ".secret.md"
      "/notes/a.md" false) = .file (RelPath.text [".secret.md"]) :=
    resolve_of_path hweb (by decide +kernel) (by decide) (by decide +kernel) (by decide +kernel)
      isFile_secret
  obtain ⟨path, htext, hfile, hmem, -⟩ := resolved_mem_iff distinct_hiddenNotes named_hiddenNotes
    rfl ofDisk_hiddenNotes hweb (congrArg Resolution.target? hresolve)
  exact ⟨path, htext, hfile, hmem⟩

/-- A link that names a path leads to a hidden file, and through a link to a folder, although the
corpus has neither of these files. -/
theorem resolve_finds_files_left_out :
    ∃ index, ofDisk hiddenNotes ["notes"] = .ok index ∧
      ∀ text ∈ [".secret.md", "linked/n.md"],
        (index.resolve hiddenNotes ["notes"] text "/notes/a.md" false).target? = some text ∧
        ∀ file ∈ index.files, RelPath.text file ≠ text := by
  refine ⟨_, ofDisk_hiddenNotes, ?_⟩
  have hsecret : RelPath.text [".secret.md"] = ".secret.md" := by decide +kernel
  have hlinked : RelPath.text ["linked", "n.md"] = "linked/n.md" := by decide +kernel
  simp only [List.forall_mem_cons]
  refine ⟨⟨?_, by decide +kernel⟩, ⟨?_, by decide +kernel⟩, by simp⟩
  · rw [resolve_of_path (by decide +kernel) (by decide +kernel) (by decide) (by decide +kernel)
      (by decide +kernel) isFile_secret, hsecret]
    rfl
  · rw [resolve_of_path (by decide +kernel) (by decide +kernel) (by decide) (by decide +kernel)
      (by decide +kernel) isFile_linked, hlinked]
    rfl

end Index

end CorpusQuery

import CorpusQuery.Proofs.Corpus.Membership

/-!
# The files that are visible

A file is visible below a folder if no name on the way to it starts with a point and every folder on
the way is a folder itself and no link to one (`IsVisible`). The walk of a corpus lists exactly
these files, in increasing order name by name, and there is a list whenever the root leads to a
folder (`visibleFiles_exact`).
-/

namespace CorpusQuery

/-! ## Order -/

theorem compare_string_eq_lt_iff {s t : String} : compare s t = .lt ↔ s < t := by
  change compareOfLessAndEq s t = .lt ↔ s < t
  unfold compareOfLessAndEq
  split
  · next h => simp [h]
  · next h => split <;> simp [h]

/-- Paths are ordered by their first names that differ. -/
theorem RelPath.compare_eq_lt_iff {p q : RelPath} : compare p q = .lt ↔ p < q := by
  induction p generalizing q with
  | nil => cases q <;> simp [compare, List.compareLex]
  | cons name p ih =>
    cases q with
    | nil => simp [compare, List.compareLex]
    | cons other q =>
      have hstep : compare (name :: p) (other :: q) =
          (compare name other).then (compare p q) := List.compareLex_cons_cons
      rw [hstep, Ordering.then_eq_lt, compare_string_eq_lt_iff, ih, List.cons_lt_cons_iff,
        Std.LawfulEqCmp.compare_eq_iff_eq]

theorem RelPath.le_total (p q : RelPath) : (p.le q || q.le p) = true := by
  have hswap : compare q p = (compare p q).swap := Std.OrientedCmp.eq_swap
  rw [le, le, hswap]
  cases compare p q <;> rfl

/-- Different paths are sorted in increasing order. -/
theorem RelPath.pairwise_mergeSort {files : List RelPath} (h : files.Nodup) :
    (files.mergeSort RelPath.le).Pairwise (· < ·) := by
  have hsorted : (files.mergeSort RelPath.le).Pairwise fun p q => p.le q = true :=
    List.pairwise_mergeSort (fun _ _ _ => Std.TransCmp.isLE_trans) le_total files
  have hdistinct : (files.mergeSort RelPath.le).Nodup :=
    (List.mergeSort_perm _ _).nodup_iff.mpr h
  refine (hsorted.and hdistinct).imp fun {p q} ⟨hle, hne⟩ => ?_
  rw [← compare_eq_lt_iff]
  cases hcompare : compare p q with
  | lt => rfl
  | eq => exact absurd (Std.LawfulEqCmp.eq_of_compare hcompare) hne
  | gt =>
    rw [le, hcompare] at hle
    cases hle

namespace Disk

variable {d : Disk} {root place : Place} {entries : List (String × Node)}

/-! ## Visible files -/

/-- A path below a folder that the walk has to list: no name starts with a point, all folders on the
way are there and none is a link, and at the end is a file or a link that leads to one. -/
structure IsVisible (d : Disk) (root : Place) (path : RelPath) : Prop where
  names : ∀ name ∈ path, name.toList.head? ≠ some '.'
  folders : ∀ folder, folder <+: path → folder ≠ path →
    ∃ entries, d.node? (root ++ folder) = some (.folder entries)
  file : (∃ content, d.node? (root ++ path) = some (.file content)) ∨
    (∃ target, d.node? (root ++ path) = some (.link target)) ∧
      d.isFile [] (Place.text (root ++ path)) = true

/-- What is before the end of names that lead somewhere is a folder. -/
theorem folder_of_node?_append {names others : Place} {node : Node}
    (h : d.node? (names ++ others) = some node) (hne : others ≠ []) :
    ∃ entries, d.node? names = some (.folder entries) := by
  obtain ⟨name, others, rfl⟩ := List.exists_cons_of_ne_nil hne
  rw [node?_append, Option.bind_eq_some_iff] at h
  obtain ⟨start, hstart, hnode⟩ := h
  obtain ⟨entries, _, rfl, -⟩ := nodeIn?_cons_eq_some hnode
  exact ⟨entries, hstart⟩

theorem isVisible_iff {path : RelPath} :
    d.IsVisible root path ↔ (∀ name ∈ path, isHidden name = false) ∧
      ∃ node, d.node? (root ++ path) = some node ∧ d.IsListed (root ++ path) node := by
  have hhidden : ∀ name : String, isHidden name = false ↔ name.toList.head? ≠ some '.' :=
    fun name => beq_eq_false_iff_ne
  constructor
  · rintro ⟨hnames, -, hfile⟩
    refine ⟨fun name hname => (hhidden name).mpr (hnames name hname), ?_⟩
    rcases hfile with ⟨content, hnode⟩ | ⟨⟨target, hnode⟩, hleads⟩
    · exact ⟨_, hnode, .file content⟩
    · exact ⟨_, hnode, .link target hleads⟩
  · rintro ⟨hnames, node, hnode, hlisted⟩
    refine ⟨fun name hname => (hhidden name).mp (hnames name hname), ?_, ?_⟩
    · rintro folder ⟨others, rfl⟩ hproper
      rw [← List.append_assoc] at hnode
      exact folder_of_node?_append hnode fun hnil => hproper (by rw [hnil, List.append_nil])
    · cases hlisted with
      | file content => exact .inl ⟨content, hnode⟩
      | link target hleads => exact .inr ⟨⟨target, hnode⟩, hleads⟩

/-- The walk of a folder lists the files that are visible below it. -/
theorem mem_filesIn_iff (hdistinct : d.Distinct) (hplace : d.node? place = some (.folder entries))
    (path : RelPath) : path ∈ d.filesIn place [] entries ↔ d.IsVisible place path := by
  have hfolder := distinct_of_nodeIn? hdistinct hplace
  have hwalk := (mem_files_iff d place).1 [] (.folder entries) hfolder path
  rw [filesAt] at hwalk
  rw [hwalk, isVisible_iff, node?_below hplace]
  constructor
  · rintro ⟨names, below, rfl, hnames, hbelow, hlisted⟩
    exact ⟨hnames, below, hbelow, hlisted⟩
  · rintro ⟨hnames, below, hbelow, hlisted⟩
    exact ⟨path, below, rfl, hnames, hbelow, hlisted⟩

/-- There is a list of files if the root leads to a folder, and it is that of the folder. -/
theorem visibleFiles_eq_ok_iff {files : List RelPath} :
    d.visibleFiles root = .ok files ↔ ∃ place entries, d.locate [] root.text = .ok place ∧
      d.node? place = some (.folder entries) ∧
      files = (d.filesIn place [] entries).mergeSort RelPath.le := by
  unfold visibleFiles
  cases hplace : d.locate [] root.text with
  | error fault => simp [Bind.bind, Except.bind]
  | ok place =>
    cases hnode : d.node? place with
    | none => simp [Bind.bind, Except.bind, hnode]
    | some node => cases node <;> simp [Bind.bind, Except.bind, hnode, eq_comm]

theorem isFolder_iff {cwd : Place} {text : String} :
    d.isFolder cwd text = true ↔ ∃ place entries, d.locate cwd text = .ok place ∧
      d.node? place = some (.folder entries) := by
  unfold isFolder find
  cases hplace : d.locate cwd text with
  | error fault => simp [Bind.bind, Except.bind]
  | ok place =>
    cases hnode : d.node? place with
    | none => simp [Bind.bind, Except.bind, hnode]
    | some node => cases node <;> simp [Bind.bind, Except.bind, hnode]

/-- The files of a corpus can be listed if and only if its root leads to a folder. They are the
visible files below that folder, in increasing order and so each once. -/
theorem visibleFiles_exact (hdistinct : d.Distinct) (root : Place) :
    ((∃ files, d.visibleFiles root = .ok files) ↔ d.isFolder [] root.text = true) ∧
    ∀ files, d.visibleFiles root = .ok files →
      files.Pairwise (· < ·) ∧ files.Nodup ∧
      ∃ place, d.locate [] root.text = .ok place ∧
        ∀ path, path ∈ files ↔ d.IsVisible place path := by
  constructor
  · simp only [visibleFiles_eq_ok_iff, isFolder_iff]
    constructor
    · rintro ⟨files, place, entries, hplace, hnode, -⟩
      exact ⟨place, entries, hplace, hnode⟩
    · rintro ⟨place, entries, hplace, hnode⟩
      exact ⟨_, place, entries, hplace, hnode, rfl⟩
  · intro files hfiles
    have hnodup := nodup_visibleFiles hdistinct hfiles
    obtain ⟨place, entries, hplace, hnode, rfl⟩ := visibleFiles_eq_ok_iff.mp hfiles
    have hwalk := (List.mergeSort_perm _ _).nodup_iff.mp hnodup
    refine ⟨RelPath.pairwise_mergeSort hwalk, hnodup, place, hplace, fun path => ?_⟩
    rw [List.mem_mergeSort, mem_filesIn_iff hdistinct hnode]

theorem visibleFiles_of_ofDisk {index : Index} (h : Index.ofDisk d root = .ok index) :
    d.visibleFiles root = .ok index.files := by
  unfold Index.ofDisk at h
  cases hfiles : d.visibleFiles root with
  | error fault =>
    rw [hfiles] at h
    cases h
  | ok files =>
    rw [hfiles] at h
    cases h
    rfl

/-- Beside the visible files there are a hidden one and a link to a folder. -/
theorem visibleFiles_exact_of_links :
    [["a.md"], ["real", "n.md"]].Pairwise (· < ·) ∧
    ∃ place, Index.hiddenNotes.locate [] (Place.text ["notes"]) = .ok place ∧
      ∀ path, path ∈ [["a.md"], ["real", "n.md"]] ↔ Index.hiddenNotes.IsVisible place path := by
  have hlist := visibleFiles_of_ofDisk Index.ofDisk_hiddenNotes
  obtain ⟨hsorted, -, hplace⟩ :=
    (visibleFiles_exact Index.distinct_hiddenNotes ["notes"]).2 _ hlist
  exact ⟨hsorted, hplace⟩

end Disk

end CorpusQuery

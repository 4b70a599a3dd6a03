import CorpusQuery.Corpus.Index
import CorpusQuery.Proofs.Disk.Following
import Mathlib.Data.List.Nodup

/-!
# The walk of a corpus

The names in a folder are distinct, so the walk lists no path twice: what is listed below an entry
starts with the name of that entry. A corpus whose root is a folder is walked from that folder
(`ofDisk_of_folder`).
-/

namespace CorpusQuery.Disk

variable {d : Disk} {root : Place}

/-- The names in each folder at or below a node are distinct. -/
inductive Node.Distinct : Node → Prop where
  | file (content : ByteArray) : Distinct (.file content)
  | link (target : String) : Distinct (.link target)
  | folder {entries : List (String × Node)} (names : (entries.map Prod.fst).Nodup)
      (below : ∀ entry ∈ entries, entry.2.Distinct) : Distinct (.folder entries)

/-- The names in each folder of a disk are distinct. -/
def Distinct (d : Disk) : Prop := Node.Distinct (.folder d.entries)

/-- What is below a node with distinct names has distinct names. -/
theorem distinct_of_nodeIn? {place : Place} {node below : Node} (hnode : node.Distinct)
    (h : nodeIn? place node = some below) : below.Distinct := by
  induction place generalizing node with
  | nil =>
    cases h
    exact hnode
  | cons name names ih =>
    cases hnode with
    | file content => cases h
    | link target => cases h
    | @folder entries hnames hbelow =>
      obtain ⟨next, hlookup, hnext⟩ := Option.bind_eq_some_iff.mp h
      obtain ⟨before, after, heq, -⟩ := List.lookup_eq_some_iff.mp hlookup
      exact ih (hbelow (name, next) (heq ▸ List.mem_append_right _ List.mem_cons_self)) hnext

/-- What is listed at a node starts with the path of the node. What is listed in a folder starts
with the path of the folder and the name of an entry. -/
theorem prefix_of_mem_files (d : Disk) (root : Place) :
    (∀ path node, ∀ file ∈ d.filesAt root path node, path <+: file) ∧
    (∀ path entries, ∀ file ∈ d.filesIn root path entries,
      ∃ name ∈ entries.map Prod.fst, path ++ [name] <+: file) := by
  refine filesAt.mutual_induct d root
    (fun path node => ∀ file ∈ d.filesAt root path node, path <+: file)
    (fun path entries => ∀ file ∈ d.filesIn root path entries,
      ∃ name ∈ entries.map Prod.fst, path ++ [name] <+: file)
    ?file ?folder ?found ?dangling ?nil ?cons
  case file =>
    intro path content file hfile
    rw [filesAt, List.mem_singleton] at hfile
    exact hfile ▸ List.prefix_refl path
  case folder =>
    intro path entries ih file hfile
    obtain ⟨name, -, hprefix⟩ := ih file hfile
    exact (List.prefix_append path [name]).trans hprefix
  case found =>
    intro path target hfound file hfile
    rw [filesAt, if_pos hfound, List.mem_singleton] at hfile
    exact hfile ▸ List.prefix_refl path
  case dangling =>
    intro path target hdangling file hfile
    rw [filesAt, if_neg hdangling] at hfile
    cases hfile
  case nil =>
    intro path file hfile
    cases hfile
  case cons =>
    intro path name node entries ih ihs file hfile
    rw [filesIn, List.mem_append] at hfile
    rcases hfile with hfile | hfile
    · split at hfile
      · cases hfile
      · exact ⟨name, List.mem_cons_self, ih file hfile⟩
    · obtain ⟨other, hother, hprefix⟩ := ihs file hfile
      exact ⟨other, List.mem_cons_of_mem _ hother, hprefix⟩

/-- A path that starts with two names below a folder starts with one name. -/
theorem name_unique {path : RelPath} {name other : String} {file : RelPath}
    (h : path ++ [name] <+: file) (hother : path ++ [other] <+: file) : name = other := by
  have hlength : (path ++ [name]).length = (path ++ [other]).length := by
    rw [List.length_append, List.length_append, List.length_singleton, List.length_singleton]
  have heq := (List.prefix_of_prefix_length_le h hother (Nat.le_of_eq hlength)).eq_of_length hlength
  exact List.singleton_inj.mp (List.append_cancel_left heq)

/-- No path is listed twice. -/
theorem nodup_files (d : Disk) (root : Place) :
    (∀ path node, node.Distinct → (d.filesAt root path node).Nodup) ∧
    (∀ path entries, (entries.map Prod.fst).Nodup →
      (∀ entry ∈ entries, entry.2.Distinct) → (d.filesIn root path entries).Nodup) := by
  refine filesAt.mutual_induct d root
    (fun path node => node.Distinct → (d.filesAt root path node).Nodup)
    (fun path entries => (entries.map Prod.fst).Nodup →
      (∀ entry ∈ entries, entry.2.Distinct) → (d.filesIn root path entries).Nodup)
    ?file ?folder ?found ?dangling ?nil ?cons
  case file => exact fun path content _ => List.nodup_singleton path
  case folder =>
    intro path entries ih hdistinct
    cases hdistinct with
    | folder hnames hbelow => exact ih hnames hbelow
  case found =>
    intro path target hfound _
    rw [filesAt, if_pos hfound]
    exact List.nodup_singleton path
  case dangling =>
    intro path target hdangling _
    rw [filesAt, if_neg hdangling]
    exact List.nodup_nil
  case nil => exact fun path _ _ => List.nodup_nil
  case cons =>
    intro path name node entries ih ihs hnames hbelow
    obtain ⟨hnew, hrest⟩ := List.nodup_cons.mp hnames
    have htail := ihs hrest fun entry hentry => hbelow entry (List.mem_cons_of_mem _ hentry)
    rw [filesIn]
    split
    · exact htail
    · refine List.nodup_append.mpr
        ⟨ih (hbelow (name, node) List.mem_cons_self), htail, fun file hfile other hother heq => ?_⟩
      subst heq
      have hname := (prefix_of_mem_files d root).1 _ _ file hfile
      obtain ⟨second, hsecond, hprefix⟩ := (prefix_of_mem_files d root).2 _ _ file hother
      exact hnew (name_unique hname hprefix ▸ hsecond)

/-- The files of a corpus are listed once each. -/
theorem nodup_visibleFiles {files : List RelPath} (hdistinct : d.Distinct)
    (h : d.visibleFiles root = .ok files) : files.Nodup := by
  unfold visibleFiles at h
  cases hplace : d.locate [] root.text with
  | error fault =>
    rw [hplace] at h
    cases h
  | ok place =>
    rw [hplace] at h
    cases hnode : d.node? place with
    | none => simp only [bind, Except.bind, hnode, reduceCtorEq] at h
    | some node =>
      cases node with
      | file content => simp only [bind, Except.bind, hnode, reduceCtorEq] at h
      | link target => simp only [bind, Except.bind, hnode, reduceCtorEq] at h
      | folder entries =>
        simp only [bind, Except.bind, hnode, Except.ok.injEq] at h
        subst h
        have hfolder := distinct_of_nodeIn? hdistinct hnode
        cases hfolder with
        | folder hnames hbelow =>
          exact (List.mergeSort_perm _ _).nodup_iff.mpr
            ((nodup_files d place).2 [] entries hnames hbelow)

end CorpusQuery.Disk

namespace CorpusQuery

/-- The files of a corpus are those that the walk lists, in order. -/
theorem Index.ofDisk_of_folder {d : Disk} {root : Disk.Place}
    {entries : List (String × Disk.Node)} (hroot : d.node? root = some (.folder entries))
    (hnames : ∀ name ∈ root, Path.IsName name) :
    ofDisk d root = .ok ⟨(d.filesIn root [] entries).mergeSort RelPath.le⟩ := by
  rw [ofDisk, Disk.visibleFiles, Disk.locate_folder hroot hnames]
  simp only [Bind.bind, Except.bind, hroot]
  rfl

theorem Index.nodup_ofDisk {d : Disk} {root : Disk.Place} {index : Index}
    (hdistinct : d.Distinct) (h : ofDisk d root = .ok index) : index.files.Nodup := by
  unfold ofDisk at h
  cases hfiles : d.visibleFiles root with
  | error fault =>
    rw [hfiles] at h
    cases h
  | ok files =>
    rw [hfiles] at h
    cases h
    exact Disk.nodup_visibleFiles hdistinct hfiles

end CorpusQuery

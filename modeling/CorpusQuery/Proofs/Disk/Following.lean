import CorpusQuery.Disk
import CorpusQuery.Proofs.Path.Components

/-!
# Following names

A path of names is followed folder by folder. It leads to the node of these names unless that is a
link (`walkTo_names`), from the folder as from the top (`isFile_below`). Where it leads somewhere
and no folder on the way is a link, there is a node of these names (`exists_node_of_walkTo`).
-/

namespace CorpusQuery.Disk

open CorpusQuery.Path (IsName)

variable {d : Disk} {orNew : Bool} {links : Nat} {place : Place} {entries : List (String × Node)}

/-! ## Nodes -/

theorem nodeIn?_append (names others : Place) (node : Node) :
    nodeIn? (names ++ others) node = (nodeIn? names node).bind (nodeIn? others) := by
  induction names generalizing node with
  | nil => rfl
  | cons name names ih =>
    cases node with
    | folder entries =>
      rw [List.cons_append, nodeIn?, nodeIn?, Option.bind_assoc]
      congr 1
      funext below
      exact ih below
    | file content => rfl
    | link target => rfl

theorem node?_append (place names : Place) :
    d.node? (place ++ names) = (d.node? place).bind (nodeIn? names) :=
  nodeIn?_append place names _

theorem node?_below (hplace : d.node? place = some (.folder entries)) (names : Place) :
    d.node? (place ++ names) = nodeIn? names (.folder entries) := by
  rw [node?_append, hplace, Option.bind_some]

theorem node?_entry (hplace : d.node? place = some (.folder entries)) (name : String) :
    d.node? (place ++ [name]) = entries.lookup name := by
  rw [node?_below hplace, nodeIn?]
  cases entries.lookup name <;> rfl

/-- Below a node there is something only if it is a folder. -/
theorem nodeIn?_cons_eq_some {name : String} {names : Place} {node below : Node}
    (h : nodeIn? (name :: names) node = some below) :
    ∃ entries next, node = .folder entries ∧ entries.lookup name = some next ∧
      nodeIn? names next = some below := by
  cases node with
  | folder entries =>
    obtain ⟨next, hlookup, hbelow⟩ := Option.bind_eq_some_iff.mp h
    exact ⟨entries, next, rfl, hlookup, hbelow⟩
  | file content => cases h
  | link target => cases h

/-! ## Steps -/

theorem stepOf_name {name : String} (h : IsName name) : stepOf name = .enter name := by
  simp [stepOf, h.proper, h.ne_up]

theorem map_stepOf {names : List String} (h : ∀ name ∈ names, IsName name) :
    names.map stepOf = names.map .enter :=
  List.map_congr_left fun name hname => stepOf_name (h name hname)

theorem steps_text {path : RelPath} (hne : path ≠ []) (h : ∀ name ∈ path, IsName name) :
    steps path.text = path.map .enter := by
  rw [steps, Path.pieces_text hne fun name hname => (h name hname).no_slash, map_stepOf h]

theorem walkTo_nil : d.walkTo orNew links place [] = .ok place := by rw [walkTo]

theorem walkTo_stay (hplace : d.node? place = some (.folder entries)) (rest : List Step) :
    d.walkTo orNew links place (.stay :: rest) = d.walkTo orNew links place rest := by
  rw [walkTo, hplace]

theorem walkTo_enter {name : String} {node : Node} (hplace : d.node? place = some (.folder entries))
    (hlookup : entries.lookup name = some node) (hnode : ∀ target, node ≠ .link target)
    (rest : List Step) :
    d.walkTo orNew links place (.enter name :: rest) =
      d.walkTo orNew links (place ++ [name]) rest := by
  rw [walkTo, hplace]
  cases node with
  | file content => simp only [hlookup]
  | folder below => simp only [hlookup]
  | link target => exact absurd rfl (hnode target)

/-- Names lead to the node of these names, unless it is a link. -/
theorem walkTo_names {names : Place} {node : Node} (h : d.node? (place ++ names) = some node)
    (hnode : ∀ target, node ≠ .link target) (rest : List Step) :
    d.walkTo orNew links place (names.map .enter ++ rest) =
      d.walkTo orNew links (place ++ names) rest := by
  induction names generalizing place with
  | nil => rw [List.map_nil, List.nil_append, List.append_nil]
  | cons name names ih =>
    have hsplit : place ++ name :: names = place ++ [name] ++ names := List.append_cons ..
    obtain ⟨start, hstart, hbelow⟩ := Option.bind_eq_some_iff.mp (node?_append place _ ▸ h)
    obtain ⟨around, next, rfl, hlookup, hnext⟩ := nodeIn?_cons_eq_some hbelow
    have hfolder : ∀ target, next ≠ .link target := by
      rintro target rfl
      cases names with
      | nil => exact hnode target (Option.some.inj hnext).symm
      | cons second others => cases hnext
    rw [List.map_cons, List.cons_append, walkTo_enter hstart hlookup hfolder, hsplit]
    exact ih (hsplit ▸ h)

/-! ## Written paths -/

theorem find_of_locate {cwd place : Place} {text : String} {node : Node}
    (hlocate : d.locate cwd text = .ok place) (hnode : d.node? place = some node) :
    d.find cwd text = .ok node := by
  rw [find, hlocate]
  simp only [Bind.bind, Except.bind, hnode]

theorem isFile_of_find {cwd : Place} {text : String} {content : ByteArray}
    (h : d.find cwd text = .ok (.file content)) : d.isFile cwd text = true := by
  rw [isFile, h]

theorem isFolder_of_find {cwd : Place} {text : String} {entries : List (String × Node)}
    (h : d.find cwd text = .ok (.folder entries)) : d.isFolder cwd text = true := by
  rw [isFolder, h]

theorem readText_of_find {cwd : Place} {text content : String}
    (h : d.find cwd text = .ok (.file content.toUTF8)) : d.readText cwd text = .ok content := by
  have hutf8 : String.fromUTF8? content.toUTF8 = some content := by
    simp only [String.fromUTF8?, String.toUTF8_eq_toByteArray, dif_pos content.isValidUTF8]
    rfl
  rw [readText, read, h]
  simp only [Bind.bind, Except.bind, hutf8]

theorem locate_text {path : RelPath} (hne : path ≠ []) (h : ∀ name ∈ path, IsName name) :
    d.locate place path.text = d.walkTo false maxLinks place (path.map .enter) := by
  obtain ⟨first, others, rfl⟩ := List.exists_cons_of_ne_nil hne
  have hpieces := Path.pieces_text hne fun name hname => (h name hname).no_slash
  have hfirst := (h first List.mem_cons_self).proper
  have hwritten : RelPath.text (first :: others) ≠ "" := by
    intro hempty
    rw [hempty] at hpieces
    cases hpieces
    exact absurd hfirst (by decide)
  have hrelative : Path.isAbsolute (RelPath.text (first :: others)) = false := by
    rw [Bool.eq_false_iff, ne_eq, Path.isAbsolute_iff, hpieces]
    rintro ⟨hslash, -⟩
    cases hslash
    exact absurd hfirst (by decide)
  rw [locate, if_neg (by simpa using hwritten), hrelative, steps_text hne h]
  rfl

/-- The written form of a place is followed from the top. -/
theorem locate_place {place cwd : Place} (h : ∀ name ∈ place, IsName name) :
    d.locate cwd (Place.text place) = d.walkTo false maxLinks [] (place.map .enter) := by
  have htop : d.node? [] = some (.folder d.entries) := rfl
  have habsolute : Path.isAbsolute (Place.text place) = true := by
    simp [Place.text, Path.isAbsolute]
  have hwritten : Place.text place ≠ "" := by simp [Place.text]
  have hpieces : Path.pieces (Place.text place) = "" :: Path.pieces (RelPath.text place) :=
    Path.pieces_append_slash "" (RelPath.text place)
  have hstay : stepOf "" = .stay := by decide
  rw [locate, if_neg (by simpa using hwritten), if_pos habsolute, steps, hpieces, List.map_cons,
    hstay, walkTo_stay htop]
  by_cases hne : place = []
  · subst hne
    exact walkTo_stay htop []
  · rw [← steps, steps_text hne h]

theorem locate_folder {root cwd : Place} (hroot : d.node? root = some (.folder entries))
    (h : ∀ name ∈ root, IsName name) : d.locate cwd (Place.text root) = .ok root := by
  have hwalk : d.walkTo false maxLinks [] (root.map .enter ++ []) =
      d.walkTo false maxLinks ([] ++ root) [] := walkTo_names hroot (by simp) []
  rw [List.append_nil, List.nil_append, walkTo_nil] at hwalk
  rw [locate_place h, hwalk]

/-- Names lead to the place of these names, unless there is a link. -/
theorem locate_of_node? {names : RelPath} {node : Node} (hne : names ≠ [])
    (h : ∀ name ∈ names, IsName name) (hnode : d.node? (place ++ names) = some node)
    (hlink : ∀ target, node ≠ .link target) :
    d.locate place names.text = .ok (place ++ names) := by
  have hwalk : d.walkTo false maxLinks place (names.map .enter ++ []) =
      d.walkTo false maxLinks (place ++ names) [] := walkTo_names hnode hlink []
  rw [List.append_nil, walkTo_nil] at hwalk
  rw [locate_text hne h, hwalk]

theorem exists_of_isFile {cwd : Place} {text : String} (h : d.isFile cwd text = true) :
    ∃ reached content, d.locate cwd text = .ok reached ∧
      d.node? reached = some (.file content) := by
  unfold isFile find at h
  cases hlocate : d.locate cwd text with
  | error fault => simp [hlocate, Bind.bind, Except.bind] at h
  | ok reached =>
    cases hnode : d.node? reached with
    | none => simp [hlocate, hnode, Bind.bind, Except.bind] at h
    | some node =>
      cases node with
      | file content => exact ⟨reached, content, rfl, hnode⟩
      | folder below => simp [hlocate, hnode, Bind.bind, Except.bind] at h
      | link target => simp [hlocate, hnode, Bind.bind, Except.bind] at h

/-- A path below a folder leads to the same file when it is written from the top. -/
theorem isFile_below {root : Place} {path : RelPath} (hroot : d.node? root = some (.folder entries))
    (hne : path ≠ []) (hrootnames : ∀ name ∈ root, IsName name)
    (hnames : ∀ name ∈ path, IsName name) :
    d.isFile [] (Place.text (root ++ path)) = d.isFile root path.text := by
  have hboth : ∀ name ∈ root ++ path, IsName name := by
    intro name hname
    rcases List.mem_append.mp hname with hname | hname
    · exact hrootnames name hname
    · exact hnames name hname
  have hwalk : d.walkTo false maxLinks [] (root.map .enter ++ path.map .enter) =
      d.walkTo false maxLinks ([] ++ root) (path.map .enter) := walkTo_names hroot (by simp) _
  rw [List.nil_append] at hwalk
  have hlocate : d.locate [] (Place.text (root ++ path)) = d.locate root path.text := by
    rw [locate_place hboth, locate_text hne hnames, List.map_append, hwalk]
  rw [isFile, find, hlocate]
  rfl

/-- Where names lead without a link among the folders on the way, there is a node of these names. It
is what the names lead to unless it is a link itself. -/
theorem exists_node_of_walkTo {names reached : Place}
    (hplace : d.node? place = some (.folder entries)) (hne : names ≠ [])
    (hfolders : ∀ folder target, folder <+: names → folder ≠ names →
      d.node? (place ++ folder) ≠ some (.link target))
    (h : d.walkTo false links place (names.map .enter) = .ok reached) :
    ∃ node, d.node? (place ++ names) = some node ∧
      ((∃ target, node = .link target) ∨ reached = place ++ names) := by
  induction names generalizing place entries with
  | nil => exact absurd rfl hne
  | cons name names ih =>
    have hentry := node?_entry hplace name
    cases hlookup : entries.lookup name with
    | none =>
      rw [List.map_cons, walkTo, hplace] at h
      simp only [hlookup, Bool.false_and, Bool.false_eq_true, if_false, reduceCtorEq] at h
    | some next =>
      rw [hlookup] at hentry
      by_cases hnames : names = []
      · subst hnames
        refine ⟨next, hentry, ?_⟩
        cases next with
        | link target => exact .inl ⟨target, rfl⟩
        | file content =>
          rw [List.map_singleton, walkTo_enter hplace hlookup (by simp), walkTo_nil] at h
          exact .inr (Except.ok.inj h).symm
        | folder below =>
          rw [List.map_singleton, walkTo_enter hplace hlookup (by simp), walkTo_nil] at h
          exact .inr (Except.ok.inj h).symm
      · have hfirst : [name] <+: name :: names := ⟨names, rfl⟩
        have hproper : [name] ≠ name :: names := by simpa using Ne.symm hnames
        cases next with
        | link target => exact absurd hentry (hfolders [name] target hfirst hproper)
        | file content =>
          -- nothing is below a file
          obtain ⟨second, others, rfl⟩ := List.exists_cons_of_ne_nil hnames
          rw [List.map_cons, walkTo_enter hplace hlookup (by simp), List.map_cons, walkTo,
            hentry] at h
          cases h
        | folder below =>
          rw [List.map_cons, walkTo_enter hplace hlookup (by simp)] at h
          rw [List.append_cons]
          refine ih hentry hnames (fun folder target hstart hshort => ?_) h
          rw [List.append_assoc]
          exact hfolders (name :: folder) target (List.cons_prefix_cons.mpr ⟨rfl, hstart⟩)
            (by simpa using hshort)

end CorpusQuery.Disk

import CorpusQuery.Path
import CorpusQuery.Proofs.Text.Pieces
import Mathlib.Data.List.DropRight

/-!
# Components of paths

What a written path means is in its components, and two spellings of one path have the same ones.
The operations on written paths are operations on components: the folder of a path is the path
without its last component (`components_folder`), a name is put behind the others
(`components_join`), what is below a root comes after the names of that root (`below?_eq_some`), and
the path that `normalize` gives is a list of names (`isName_of_normalize`), which can be written and
taken apart again (`components_text`).
-/

namespace CorpusQuery.Path

/-! ## Pieces -/

/-- A text that stands for itself between two slashes: a name that a file can have. -/
structure IsName (s : String) : Prop where
  proper : isTrivial s = false
  ne_up : s ≠ ".."
  no_slash : '/' ∉ s.toList

theorem isName_iff {s : String} : IsName s ↔ isTrivial s = false ∧ s ≠ ".." ∧ '/' ∉ s.toList :=
  ⟨fun ⟨hproper, hup, hslash⟩ => ⟨hproper, hup, hslash⟩,
    fun ⟨hproper, hup, hslash⟩ => ⟨hproper, hup, hslash⟩⟩

instance (s : String) : Decidable (IsName s) := decidable_of_iff' _ isName_iff

theorem pieces_ne_nil (text : String) : pieces text ≠ [] := Text.splitString_ne_nil '/' text

theorem text_pieces (text : String) : RelPath.text (pieces text) = text :=
  Text.intercalate_splitString '/' text

theorem pieces_eq_singleton {text : String} (h : pieces text = [""]) : text = "" := by
  rw [← text_pieces text, h]
  rfl

theorem pieces_of_no_slash {s : String} (h : '/' ∉ s.toList) : pieces s = [s] := by
  rw [pieces, Text.splitString, Text.splitOn_eq, List.splitOn_eq_singleton h, List.map_singleton,
    String.ofList_toList]

theorem pieces_append_slash (s rest : String) :
    pieces (s ++ "/" ++ rest) = pieces s ++ pieces rest := by
  have htext : (s ++ "/" ++ rest).toList = s.toList ++ '/' :: rest.toList := by
    simp only [String.toList_append, List.append_assoc]
    rfl
  rw [pieces, Text.splitString, htext, Text.splitOn_append, List.map_append]
  rfl

/-- Pieces without slashes are those of the path that they are written as. -/
theorem pieces_text {names : List String} (hne : names ≠ [])
    (h : ∀ name ∈ names, '/' ∉ name.toList) : pieces (RelPath.text names) = names := by
  rw [pieces, Text.splitString, RelPath.text, String.toList_intercalate, Text.splitOn_eq]
  have hslash : "/".toList = ['/'] := rfl
  rw [hslash, List.splitOn_intercalate '/' (by simpa using h) (by simpa using hne), List.map_map]
  have hsame : String.ofList ∘ String.toList = id := funext fun _ => String.ofList_toList
  rw [hsame, List.map_id]

theorem no_slash_of_mem_pieces {text piece : String} (h : piece ∈ pieces text) :
    '/' ∉ piece.toList :=
  Text.not_mem_of_mem_splitString h

/-- A path is absolute if its first piece is empty, but for the empty path. -/
theorem isAbsolute_iff {text : String} :
    isAbsolute text = true ↔ (pieces text).head? = some "" ∧ pieces text ≠ [""] := by
  unfold isAbsolute pieces Text.splitString
  rw [Text.splitOn_eq]
  cases text.toList with
  | nil => simp
  | cons c s =>
    obtain ⟨first, others, hs⟩ := List.exists_cons_of_ne_nil (List.splitOn_ne_nil '/' s)
    rw [List.splitOn_cons_eq_if_modifyHead, hs]
    by_cases hc : c = '/'
    · simp [hc]
    · simp [hc]

/-- The components that pieces stand for, but for a first one. -/
def inner (pieces : List String) : List Component :=
  (pieces.filter fun piece => !isTrivial piece).map pieceComponent

/-- The component at the start of a path with the given pieces that has no name. -/
def leading (pieces : List String) : List Component :=
  if pieces.head? = some "" ∧ pieces ≠ [""] then [.root]
  else if pieces.head? = some "." then [.here]
  else []

theorem components_eq (text : String) :
    components text = leading (pieces text) ++ inner (pieces text) := by
  unfold components leading
  simp only [← isAbsolute_iff, beq_iff_eq]
  split_ifs <;> rfl

@[simp] theorem inner_append (ps qs : List String) : inner (ps ++ qs) = inner ps ++ inner qs := by
  simp only [inner, List.filter_append, List.map_append]

@[simp] theorem inner_nil : inner [] = [] := rfl

theorem inner_cons_of_trivial {piece : String} (h : isTrivial piece = true) (ps : List String) :
    inner (piece :: ps) = inner ps := by
  simp only [inner, List.filter_cons, h, Bool.not_true, Bool.false_eq_true, if_false]

theorem inner_cons_of_proper {piece : String} (h : isTrivial piece = false) (ps : List String) :
    inner (piece :: ps) = pieceComponent piece :: inner ps := by
  simp only [inner, List.filter_cons, h, Bool.not_false, if_true, List.map_cons]

theorem inner_of_trivial {ps : List String} (h : ∀ piece ∈ ps, isTrivial piece = true) :
    inner ps = [] := by
  induction ps with
  | nil => rfl
  | cons piece ps ih =>
    rw [inner_cons_of_trivial (h piece List.mem_cons_self)]
    exact ih fun piece hpiece => h piece (List.mem_cons_of_mem _ hpiece)

theorem IsName.component_eq {s : String} (h : IsName s) : pieceComponent s = .name s :=
  if_neg (by simpa using h.ne_up)

/-- Names stand for themselves. -/
theorem inner_names {names : List String} (h : ∀ name ∈ names, IsName name) :
    inner names = names.map .name := by
  induction names with
  | nil => rfl
  | cons name names ih =>
    have hname := h name List.mem_cons_self
    rw [inner_cons_of_proper hname.proper, hname.component_eq, List.map_cons,
      ih fun name hname => h name (List.mem_cons_of_mem _ hname)]

/-- What follows the first piece does not matter for the start of a path, as long as there is
something. -/
theorem leading_concat {ps qs : List String} (hps : ps ≠ []) (hqs : qs ≠ []) (last : String) :
    leading (ps ++ qs) = leading (ps ++ [last]) := by
  obtain ⟨first, others, rfl⟩ := List.exists_cons_of_ne_nil hps
  obtain ⟨next, others', rfl⟩ := List.exists_cons_of_ne_nil hqs
  simp [leading]

theorem leading_append {ps : List String} (hne : ps ≠ []) (hnonempty : ps ≠ [""])
    (qs : List String) : leading (ps ++ qs) = leading ps := by
  obtain ⟨first, others, rfl⟩ := List.exists_cons_of_ne_nil hne
  unfold leading
  by_cases hfirst : first = ""
  · subst hfirst
    cases others with
    | nil => exact absurd rfl hnonempty
    | cons second others => simp
  · simp [hfirst]

theorem leading_of_proper {first : String} (h : isTrivial first = false) (others : List String) :
    leading (first :: others) = [] := by
  simp only [isTrivial, Bool.or_eq_false_iff, beq_eq_false_iff_ne] at h
  simp [leading, h]

/-! ## Names -/

theorem components_name {name : String} (h : IsName name) : components name = [.name name] := by
  rw [components_eq, pieces_of_no_slash h.no_slash, leading_of_proper h.proper,
    inner_cons_of_proper h.proper, h.component_eq]
  rfl

/-- A list of names is got back from its written form. -/
theorem components_text {path : RelPath} (h : ∀ name ∈ path, IsName name) :
    components path.text = path.map .name := by
  cases path with
  | nil => rfl
  | cons first others =>
    have hpieces : pieces (RelPath.text (first :: others)) = first :: others :=
      pieces_text (List.cons_ne_nil _ _) fun name hname => (h name hname).no_slash
    rw [components_eq, hpieces, leading_of_proper (h first List.mem_cons_self).proper,
      inner_names h, List.nil_append]

/-- The names among the components of a path are names that a file can have. -/
theorem isName_of_mem_components {text name : String} (h : .name name ∈ components text) :
    IsName name := by
  rw [components_eq, List.mem_append] at h
  rcases h with h | h
  · unfold leading at h
    split_ifs at h <;> simp at h
  · obtain ⟨piece, hpiece, hcomponent⟩ := List.mem_map.mp h
    obtain ⟨hmem, hproper⟩ := List.mem_filter.mp hpiece
    unfold pieceComponent at hcomponent
    split at hcomponent
    · cases hcomponent
    · next hup =>
      cases hcomponent
      exact ⟨by simpa using hproper, by simpa using hup, no_slash_of_mem_pieces hmem⟩

/-- Only names are put on a stack of names. -/
theorem mem_of_foldlM {cs : List Component} {stack names : List String}
    (h : cs.foldlM pushComponent stack = some names) :
    ∀ name ∈ names, name ∈ stack ∨ .name name ∈ cs := by
  induction cs generalizing stack with
  | nil =>
    cases h
    exact fun name hname => .inl hname
  | cons c cs ih =>
    rw [List.foldlM_cons, Option.bind_eq_bind, Option.bind_eq_some_iff] at h
    obtain ⟨next, hnext, hrest⟩ := h
    intro name hname
    rcases ih hrest name hname with hmem | hmem
    · cases c with
      | root => cases hnext
      | here =>
        cases hnext
        exact .inl hmem
      | up =>
        cases stack with
        | nil => cases hnext
        | cons top stack =>
          cases hnext
          exact .inl (List.mem_cons_of_mem _ hmem)
      | name s =>
        cases hnext
        rcases List.mem_cons.mp hmem with rfl | hmem
        · exact .inr List.mem_cons_self
        · exact .inl hmem
    · exact .inr (List.mem_cons_of_mem _ hmem)

/-- A normalized path is a list of names. -/
theorem isName_of_normalize {text : String} {path : RelPath} (h : normalize text = some path) :
    ∀ name ∈ path, IsName name := by
  obtain ⟨stack, hstack, rfl⟩ := Option.map_eq_some_iff.mp h
  intro name hname
  rcases mem_of_foldlM hstack name (List.mem_reverse.mp hname) with hmem | hmem
  · cases hmem
  · exact isName_of_mem_components hmem

/-! ## Paths after one another -/

theorem IsName.not_absolute {name : String} (h : IsName name) : isAbsolute name = false := by
  rw [Bool.eq_false_iff, ne_eq, isAbsolute_iff, pieces_of_no_slash h.no_slash]
  rintro ⟨hfirst, hnonempty⟩
  exact hnonempty (by simpa using hfirst)

/-- A path with a slash at its end is the path before that slash, and the slash. -/
theorem exists_of_endsWith {text : String} (h : text.endsWith "/" = true) :
    ∃ front, text = front ++ "/" := by
  rw [String.endsWith, String.Slice.endsWith_string_iff] at h
  obtain ⟨front, hfront⟩ := h
  refine ⟨String.ofList front, String.toList_inj.mp ?_⟩
  rw [String.toList_append, String.toList_ofList, hfront, String.copy_toSlice]

/-- What is written behind a path comes after its components. -/
theorem components_join_relative {base rest : String} (hbase : base ≠ "")
    (hrest : isAbsolute rest = false) :
    components (join base rest) = components base ++ inner (pieces rest) := by
  by_cases hslash : base.endsWith "/" = true
  · have hjoin : join base rest = base ++ rest := by simp [join, hbase, hslash, hrest]
    obtain ⟨front, rfl⟩ := exists_of_endsWith hslash
    have hfront : pieces (front ++ "/") = pieces front ++ [""] := by
      have hpieces := pieces_append_slash front ""
      rwa [String.append_empty] at hpieces
    rw [hjoin, components_eq, components_eq (front ++ "/"), pieces_append_slash, hfront,
      inner_append, inner_append, leading_concat (pieces_ne_nil front) (pieces_ne_nil rest) "",
      inner_cons_of_trivial (by decide), inner_nil]
    simp
  · have hjoin : join base rest = base ++ "/" ++ rest := by simp [join, hbase, hslash, hrest]
    rw [hjoin, components_eq, components_eq base, pieces_append_slash, inner_append,
      leading_append (pieces_ne_nil base) (mt pieces_eq_singleton hbase), List.append_assoc]

/-- A name written behind a path is one component more. -/
theorem components_join {base name : String} (h : IsName name) :
    components (join base name) = components base ++ [.name name] := by
  by_cases hbase : base = ""
  · have hjoin : join base name = name := by simp [join, hbase]
    rw [hjoin, hbase, components_name h]
    rfl
  · rw [components_join_relative hbase h.not_absolute, pieces_of_no_slash h.no_slash,
      inner_cons_of_proper h.proper, h.component_eq, inner_nil]

/-! ## Folders -/

theorem prefix_trimPieces (ps : List String) : trimPieces ps <+: ps :=
  List.rdropWhile_prefix isTrivial ps

/-- What is trimmed off stands for nothing. -/
theorem inner_trimPieces (ps : List String) : inner (trimPieces ps) = inner ps := by
  induction ps using List.reverseRecOn with
  | nil => rfl
  | append_singleton ps piece ih =>
    unfold trimPieces at ih ⊢
    rw [List.reverse_concat]
    cases hpiece : isTrivial piece with
    | true =>
      rw [List.dropWhile_cons_of_pos hpiece, ih, inner_append, inner_cons_of_trivial hpiece,
        inner_nil, List.append_nil]
    | false =>
      rw [List.dropWhile_cons_of_neg (by simp [hpiece]), List.reverse_cons, List.reverse_reverse]

/-- Trimmed pieces end in one that stands for something. -/
theorem trimPieces_eq_concat {ps : List String} (h : trimPieces ps ≠ []) :
    ∃ front last, trimPieces ps = front ++ [last] ∧ isTrivial last = false := by
  refine ⟨_, _, (List.dropLast_append_getLast h).symm, ?_⟩
  rw [← Bool.not_eq_true]
  exact List.rdropWhile_last_not isTrivial ps h

/-- Pieces behind a slash are an absolute path. -/
theorem components_slash_text {names : List String} (h : ∀ name ∈ names, '/' ∉ name.toList) :
    components ("/" ++ RelPath.text names) = .root :: inner names := by
  have hpieces : pieces ("/" ++ RelPath.text names) = "" :: pieces (RelPath.text names) :=
    pieces_append_slash "" (RelPath.text names)
  have hinner : inner (pieces (RelPath.text names)) = inner names := by
    by_cases hnames : names = []
    · subst hnames
      rfl
    · rw [pieces_text hnames h]
  rw [components_eq, hpieces, inner_cons_of_trivial (by decide), hinner, leading]
  simp [pieces_ne_nil]

/-- The first pieces of a relative path are a relative path with the same start. -/
theorem components_text_of_start {text : String} {names : List String}
    (habsolute : isAbsolute text = false) (hne : names ≠ []) (h : names <+: pieces text) :
    components (RelPath.text names) = leading (pieces text) ++ inner names := by
  rw [components_eq, pieces_text hne fun name hname => no_slash_of_mem_pieces (h.subset hname)]
  congr 1
  obtain ⟨others, hothers⟩ := h
  by_cases hempty : names = [""]
  · -- the path is relative, so an empty first piece is its only one
    subst hempty
    rw [Bool.eq_false_iff, ne_eq, isAbsolute_iff, ← hothers] at habsolute
    cases others with
    | nil => rw [← hothers, List.append_nil]
    | cons other others => simp at habsolute
  · rw [← hothers, leading_append hne hempty]

/-- The point at the start of a relative path, if there is one there. -/
def point (pieces : List String) : List String := (pieces.takeWhile (· == ".")).take 1

theorem point_append_drop (ps : List String) : point ps ++ ps.drop (point ps).length = ps := by
  have hstart : point ps <+: ps :=
    (List.take_prefix 1 _).trans (List.takeWhile_prefix _)
  exact List.prefix_iff_eq_append.mp hstart

theorem inner_point (ps : List String) : inner (point ps) = [] := by
  refine inner_of_trivial fun piece hpiece => ?_
  have hpoint := List.mem_takeWhile_imp (List.mem_of_mem_take hpiece)
  rw [isTrivial, hpoint, Bool.or_true]

/-- A relative path starts with its point or with nothing. -/
theorem leading_of_relative {text : String} (h : isAbsolute text = false) :
    leading (pieces text) = (point (pieces text)).map fun _ => .here := by
  rw [Bool.eq_false_iff, ne_eq, isAbsolute_iff] at h
  rw [leading, if_neg h, point]
  cases pieces text with
  | nil => rfl
  | cons first others => by_cases hfirst : first = "." <;> simp [hfirst]

theorem folder_of_absolute {text : String} {others : List String} (h : isAbsolute text = true)
    (hpieces : pieces text = "" :: others) :
    folder text = if trimPieces others = [] then ""
      else "/" ++ RelPath.text (trimPieces (trimPieces others).dropLast) := by
  have hslash : ("/" == "") = false := by decide
  unfold folder parent?
  simp only [h, hpieces, hslash, if_true, Bool.false_eq_true, if_false, List.drop_one,
    List.tail_cons, List.length_nil, List.drop_zero, List.isEmpty_nil, List.nil_append]
  cases trimPieces others <;> rfl

theorem folder_of_relative {text : String} (h : isAbsolute text = false) :
    folder text =
      if trimPieces ((pieces text).drop (point (pieces text)).length) = [] then ""
      else RelPath.text (point (pieces text) ++
        trimPieces (trimPieces ((pieces text).drop (point (pieces text)).length)).dropLast) := by
  unfold folder parent?
  simp only [h, Bool.false_eq_true, if_false, beq_self_eq_true, if_true, String.empty_append]
  rw [← point]
  cases trimPieces ((pieces text).drop (point (pieces text)).length) with
  | nil =>
    dsimp only
    split <;> rfl
  | cons first others => rfl

/-- The folder of a path has the components of the path without the last one. -/
theorem components_folder (text : String) :
    components (folder text) = (components text).dropLast := by
  cases habsolute : isAbsolute text with
  | true =>
    obtain ⟨hfirst, hnonempty⟩ := isAbsolute_iff.mp habsolute
    obtain ⟨others, hpieces⟩ := List.head?_eq_some_iff.mp hfirst
    have hcomponents : components text = .root :: inner (trimPieces others) := by
      rw [components_eq, leading, if_pos ⟨hfirst, hnonempty⟩, hpieces,
        inner_cons_of_trivial (by decide), inner_trimPieces, List.singleton_append]
    rw [hcomponents, folder_of_absolute habsolute hpieces]
    split
    · next hnone =>
      rw [hnone]
      rfl
    · next hsome =>
      obtain ⟨front, last, hrest, hlast⟩ := trimPieces_eq_concat hsome
      have hslash : ∀ piece ∈ trimPieces front, '/' ∉ piece.toList := by
        intro piece hpiece
        have hmem : piece ∈ trimPieces others :=
          hrest ▸ List.mem_append_left _ ((prefix_trimPieces front).subset hpiece)
        exact no_slash_of_mem_pieces
          (hpieces ▸ List.mem_cons_of_mem _ ((prefix_trimPieces others).subset hmem))
      rw [hrest, List.dropLast_concat, components_slash_text hslash, inner_trimPieces, inner_append,
        inner_cons_of_proper hlast, inner_nil, ← List.cons_append, List.dropLast_concat]
  | false =>
    have hsplit := point_append_drop (pieces text)
    have hcomponents : components text = leading (pieces text) ++
        inner (trimPieces ((pieces text).drop (point (pieces text)).length)) := by
      rw [components_eq, inner_trimPieces]
      nth_rewrite 2 [← hsplit]
      rw [inner_append, inner_point, List.nil_append]
    rw [hcomponents, folder_of_relative habsolute]
    generalize hbehind : (pieces text).drop (point (pieces text)).length = behind at hsplit ⊢
    have hleading := leading_of_relative habsolute
    split
    · next hnone =>
      have hstart : (leading (pieces text)).dropLast = [] := by
        have hlength : (point (pieces text)).length ≤ 1 := List.length_take_le 1 _
        rw [hleading, ← List.length_eq_zero_iff, List.length_dropLast, List.length_map]
        omega
      rw [hnone, inner_nil, List.append_nil, hstart]
      rfl
    · next hsome =>
      obtain ⟨front, last, hrest, hlast⟩ := trimPieces_eq_concat hsome
      rw [hrest, List.dropLast_concat, inner_append, inner_cons_of_proper hlast, inner_nil,
        ← List.append_assoc, List.dropLast_concat]
      by_cases hempty : point (pieces text) ++ trimPieces front = []
      · obtain ⟨hpoint, hfront⟩ := List.append_eq_nil_iff.mp hempty
        rw [hempty, hleading, hpoint, ← inner_trimPieces, hfront]
        rfl
      · have hstart : point (pieces text) ++ trimPieces front <+: pieces text := by
          have hfront : front <+: behind :=
            (hrest ▸ List.prefix_append front [last]).trans (prefix_trimPieces behind)
          have hboth := (List.prefix_append_right_inj (point (pieces text))).mpr
            ((prefix_trimPieces front).trans hfront)
          rwa [hsplit] at hboth
        rw [components_text_of_start habsolute hempty hstart, inner_append, inner_point,
          List.nil_append, inner_trimPieces]

/-! ## Below a root -/

theorem afterRoot?_of_trivial {piece : String} (h : isTrivial piece = true)
    (root ps : List String) :
    afterRoot? root (piece :: ps) = afterRoot? root ps := by
  cases root <;> simp [afterRoot?, h]

theorem afterRoot?_of_proper {piece : String} (h : isTrivial piece = false)
    (root ps : List String) :
    afterRoot? root (piece :: ps) = match root with
      | [] => some (piece :: ps)
      | name :: names => if name == piece then afterRoot? names ps else none := by
  cases root <;> simp [afterRoot?, h]

/-- What comes after the names of a root is the rest of the pieces, from one that stands for
something on. -/
theorem afterRoot?_eq_some {root ps rest : List String} (h : afterRoot? root ps = some rest) :
    rest <:+ ps ∧ ∀ first ∈ rest.head?, isTrivial first = false := by
  induction ps generalizing root with
  | nil =>
    cases root with
    | nil =>
      cases h
      exact ⟨List.suffix_refl _, by simp⟩
    | cons name names => cases h
  | cons piece ps ih =>
    cases hpiece : isTrivial piece with
    | true =>
      rw [afterRoot?_of_trivial hpiece] at h
      exact ⟨(ih h).1.trans (List.suffix_cons _ _), (ih h).2⟩
    | false =>
      rw [afterRoot?_of_proper hpiece] at h
      cases root with
      | nil =>
        cases h
        exact ⟨List.suffix_refl _, by simp [hpiece]⟩
      | cons name names =>
        dsimp only at h
        split at h
        · exact ⟨(ih h).1.trans (List.suffix_cons _ _), (ih h).2⟩
        · cases h

/-- The names of a root are looked for among the components. -/
theorem map_inner_afterRoot? {root : List String} (hroot : ∀ name ∈ root, IsName name)
    (ps : List String) :
    (afterRoot? root ps).map inner = (root.map Component.name).isPrefixOf? (inner ps) := by
  induction ps generalizing root with
  | nil => cases root <;> rfl
  | cons piece ps ih =>
    cases hpiece : isTrivial piece with
    | true => rw [afterRoot?_of_trivial hpiece, ih hroot, inner_cons_of_trivial hpiece]
    | false =>
      rw [afterRoot?_of_proper hpiece]
      cases root with
      | nil => rfl
      | cons name names =>
        have hname := hroot name List.mem_cons_self
        have hnames : ∀ name ∈ names, IsName name :=
          fun name hname => hroot name (List.mem_cons_of_mem _ hname)
        rw [inner_cons_of_proper hpiece, List.map_cons, List.isPrefixOf?]
        by_cases hsame : name = piece
        · subst hsame
          simp [hname.component_eq, ih hnames]
        · have hother : (Component.name name == pieceComponent piece) = false := by
            unfold pieceComponent
            split <;> simp [hsame]
          simp [hsame, hother]

theorem root_not_mem_components {text : String} (h : isAbsolute text = false) :
    .root ∉ components text := by
  rw [components_eq, leading_of_relative h, List.mem_append, not_or]
  constructor
  · simp
  · intro hroot
    obtain ⟨piece, -, hpiece⟩ := List.mem_map.mp hroot
    unfold pieceComponent at hpiece
    split at hpiece <;> cases hpiece

/-- What is below a root comes after the names of the root. -/
theorem map_components_below? {root : List String} (hroot : ∀ name ∈ root, IsName name)
    (text : String) :
    (below? root text).map components =
      List.isPrefixOf? (.root :: root.map .name) (components text) := by
  unfold below?
  split
  · next habsolute =>
    have hcomponents : components text = .root :: inner (pieces text) := by
      rw [components_eq, leading, if_pos (isAbsolute_iff.mp habsolute), List.singleton_append]
    have hrest : ∀ rest, afterRoot? root (pieces text) = some rest →
        components (RelPath.text (trimPieces rest)) = inner rest := by
      intro rest hafter
      obtain ⟨hsuffix, hfirst⟩ := afterRoot?_eq_some hafter
      have hstart := prefix_trimPieces rest
      rw [← inner_trimPieces rest]
      cases htrimmed : trimPieces rest with
      | nil => rfl
      | cons first others =>
        rw [htrimmed] at hstart
        have hslash : ∀ piece ∈ first :: others, '/' ∉ piece.toList := fun piece hpiece =>
          no_slash_of_mem_pieces (hsuffix.subset (hstart.subset hpiece))
        have hproper : isTrivial first = false := by
          obtain ⟨more, hmore⟩ := hstart
          exact hfirst first (by simp [← hmore])
        rw [components_eq, pieces_text (List.cons_ne_nil _ _) hslash, leading_of_proper hproper,
          List.nil_append]
    rw [hcomponents, List.isPrefixOf?, beq_self_eq_true, if_pos rfl, ← map_inner_afterRoot? hroot,
      Option.map_map]
    cases hafter : afterRoot? root (pieces text) with
    | none => rfl
    | some rest => exact congrArg some (hrest rest hafter)
  · next habsolute =>
    cases hstart : List.isPrefixOf? (.root :: root.map .name) (components text) with
    | none => rfl
    | some rest =>
      rw [List.isPrefixOf?_eq_some_iff_append_eq] at hstart
      have hmem : .root ∈ components text := hstart ▸ List.mem_cons_self
      exact absurd hmem (root_not_mem_components (by simpa using habsolute))

end CorpusQuery.Path

import CorpusQuery.Proofs.Path.Components

/-!
# Normalized paths

The components of a path are run on a stack of names: a name is put on it, and `..` takes the last
one off. A path is normalized if it is relative and on no part of the way there were more `..` than
names before, and what is left on the stack is the path that it leads to (`normalize_eq_some_iff`).
Such a path is its own normal form, and it can take the place of the path that it was made of in
front of any other (`isNormalForm_of_normalize`).
-/

namespace CorpusQuery.Path

/-! ## The stack -/

/-- Whether a component is a name. -/
def Component.isName : Component → Bool
  | .name _ => true
  | _ => false

/-- What components make of a stack of names, the last name of which is on top. -/
def runStack (stack : RelPath) : List Component → RelPath
  | [] => stack
  | .name s :: cs => runStack (stack ++ [s]) cs
  | .up :: cs => runStack stack.dropLast cs
  | .here :: cs | .root :: cs => runStack stack cs

/-- Whether components that start so many names below some place lead above it: up to some component
there are more `..` than names. -/
def ClimbsFrom (height : Nat) (cs : List Component) : Prop :=
  ∃ start, start <+: cs ∧ height + start.countP Component.isName < start.count .up

/-- Whether components lead above the place where they start. -/
def Climbs (cs : List Component) : Prop :=
  ∃ start, start <+: cs ∧ start.countP Component.isName < start.count .up

theorem climbs_iff {cs : List Component} : Climbs cs ↔ ClimbsFrom 0 cs := by
  simp only [Climbs, ClimbsFrom, Nat.zero_add]

variable {height : Nat} {cs : List Component}

theorem not_climbsFrom_nil : ¬ClimbsFrom height [] := by
  rintro ⟨start, hstart, hclimbs⟩
  rw [List.prefix_nil.mp hstart] at hclimbs
  exact absurd hclimbs (Nat.not_lt_zero _)

/-- A component counts for all parts of the way that go on over it. -/
theorem climbsFrom_cons_iff {c : Component} :
    ClimbsFrom height (c :: cs) ↔ ∃ start, start <+: cs ∧
      height + (c :: start).countP Component.isName < (c :: start).count .up := by
  constructor
  · rintro ⟨start, hstart, hclimbs⟩
    rcases List.prefix_cons_iff.mp hstart with rfl | ⟨rest, rfl, hrest⟩
    · exact absurd hclimbs (Nat.not_lt_zero _)
    · exact ⟨rest, hrest, hclimbs⟩
  · rintro ⟨start, hstart, hclimbs⟩
    exact ⟨c :: start, List.cons_prefix_cons.mpr ⟨rfl, hstart⟩, hclimbs⟩

theorem climbsFrom_up_zero : ClimbsFrom 0 (.up :: cs) :=
  ⟨[.up], ⟨cs, rfl⟩, by decide⟩

theorem climbsFrom_up_succ : ClimbsFrom (height + 1) (.up :: cs) ↔ ClimbsFrom height cs := by
  rw [climbsFrom_cons_iff]
  refine exists_congr fun start => and_congr_right fun _ => ?_
  rw [List.countP_cons_of_neg (by decide), List.count_cons_self]
  omega

theorem climbsFrom_name {s : String} :
    ClimbsFrom height (.name s :: cs) ↔ ClimbsFrom (height + 1) cs := by
  rw [climbsFrom_cons_iff]
  refine exists_congr fun start => and_congr_right fun _ => ?_
  have hup : Component.name s ≠ .up := nofun
  rw [List.countP_cons_of_pos rfl, List.count_cons_of_ne hup]
  omega

theorem climbsFrom_here : ClimbsFrom height (.here :: cs) ↔ ClimbsFrom height cs := by
  rw [climbsFrom_cons_iff]
  refine exists_congr fun start => and_congr_right fun _ => ?_
  have hup : Component.here ≠ .up := nofun
  rw [List.countP_cons_of_neg (by decide), List.count_cons_of_ne hup]

/-- Components can be run on a stack of names unless they start at the root of the file system or
climb above the start of the stack. -/
theorem foldlM_pushComponent_iff {stack names : List String} :
    cs.foldlM pushComponent stack = some names ↔
      .root ∉ cs ∧ ¬ClimbsFrom stack.length cs ∧ names.reverse = runStack stack.reverse cs := by
  induction cs generalizing stack with
  | nil =>
    have hnames : some stack = some names ↔ names.reverse = stack.reverse := by
      rw [Option.some.injEq, List.reverse_inj, eq_comm]
    simpa [runStack, not_climbsFrom_nil] using hnames
  | cons c cs ih =>
    rw [List.foldlM_cons, Option.bind_eq_bind]
    cases c with
    | root => simp [pushComponent]
    | here =>
      rw [pushComponent, Option.bind_some, ih, climbsFrom_here, runStack]
      simp
    | name s =>
      rw [pushComponent, Option.bind_some, ih, climbsFrom_name, runStack, List.reverse_cons,
        List.length_cons]
      simp
    | up =>
      cases stack with
      | nil => simp [pushComponent, climbsFrom_up_zero]
      | cons top stack =>
        rw [pushComponent, Option.bind_some, ih, List.length_cons, climbsFrom_up_succ, runStack,
          List.reverse_cons, List.dropLast_concat]
        simp

/-! ## Normal forms -/

theorem isAbsolute_iff_root_mem {text : String} :
    isAbsolute text = true ↔ .root ∈ components text := by
  refine ⟨fun habsolute => ?_, fun hroot => ?_⟩
  · rw [components_eq, leading, if_pos (isAbsolute_iff.mp habsolute)]
    exact List.mem_cons_self
  · rw [← Bool.not_eq_false]
    exact fun hrelative => root_not_mem_components hrelative hroot

/-- A path is normalized if it is relative and does not climb above its start. It leads to what its
components leave on the stack. -/
theorem normalize_eq_some_iff {text : String} {path : RelPath} :
    normalize text = some path ↔
      isAbsolute text = false ∧ ¬Climbs (components text) ∧ path = runStack [] (components text) := by
  have hrelative : isAbsolute text = false ↔ .root ∉ components text := by
    rw [← isAbsolute_iff_root_mem, Bool.not_eq_true]
  rw [hrelative, climbs_iff, normalize, normalizeComponents, Option.map_eq_some_iff]
  constructor
  · rintro ⟨stack, hstack, rfl⟩
    exact foldlM_pushComponent_iff.mp hstack
  · rintro ⟨hroot, hclimbs, rfl⟩
    refine ⟨(runStack [] (components text)).reverse, ?_, List.reverse_reverse _⟩
    exact foldlM_pushComponent_iff.mpr ⟨hroot, hclimbs, List.reverse_reverse _⟩

/-- Names behind it do not make up for a `..` above the start. -/
example : normalize "a/../../b/c" = none := by decide +kernel

theorem normalize_eq_none_iff {text : String} :
    normalize text = none ↔ isAbsolute text = true ∨ Climbs (components text) := by
  rw [Option.eq_none_iff_forall_ne_some]
  simp only [ne_eq, normalize_eq_some_iff]
  constructor
  · intro h
    by_contra hstays
    obtain ⟨habsolute, hclimbs⟩ := not_or.mp hstays
    exact h _ ⟨by simpa using habsolute, hclimbs, rfl⟩
  · rintro (habsolute | hclimbs) path ⟨hrelative, hstays, -⟩
    · exact Bool.false_ne_true (hrelative.symm.trans habsolute)
    · exact hstays hclimbs

/-- Names are put on the stack one after another. -/
theorem foldlM_pushComponent_names (names stack : List String) :
    (names.map Component.name).foldlM pushComponent stack = some (names.reverse ++ stack) := by
  induction names generalizing stack with
  | nil => rfl
  | cons name names ih =>
    rw [List.map_cons, List.foldlM_cons, pushComponent, Option.bind_eq_bind, Option.bind_some, ih,
      List.reverse_cons, List.append_assoc, List.singleton_append]

/-- What comes after components is run on the names that they lead to. -/
theorem normalizeComponents_append (cs rest : List Component) :
    normalizeComponents (cs ++ rest) = (normalizeComponents cs).bind fun path =>
      normalizeComponents (path.map .name ++ rest) := by
  unfold normalizeComponents
  rw [List.foldlM_append]
  cases cs.foldlM pushComponent [] with
  | none => rfl
  | some stack =>
    rw [Option.map_some, Option.bind_some, List.foldlM_append, foldlM_pushComponent_names,
      List.reverse_reverse, List.append_nil]

/-- A list of names is its own normal form. -/
theorem normalize_names {path : RelPath} (h : ∀ name ∈ path, IsName name) :
    normalize path.text = some path := by
  rw [normalize, components_text h, normalizeComponents, foldlM_pushComponent_names,
    Option.map_some, List.append_nil, List.reverse_reverse]

/-- A `.` in front of a path changes nothing. -/
theorem normalizeComponents_point (ps : List String) (rest : List Component) :
    normalizeComponents ((point ps).map (fun _ => .here) ++ rest) = normalizeComponents rest := by
  cases ps with
  | nil => rfl
  | cons p ps => by_cases hp : p = "." <;> simp [point, hp, normalizeComponents, pushComponent]

/-- A relative path behind another one is run on the names that the other one leads to. -/
theorem normalize_join_relative (text : String) {rest : String} (hrest : isAbsolute rest = false) :
    normalize (join text rest) = (normalize text).bind fun path =>
      normalizeComponents (path.map .name ++ inner (pieces rest)) := by
  by_cases htext : text = ""
  · have hjoin : join text rest = rest := by simp [join, htext]
    rw [hjoin, htext, normalize, components_eq, leading_of_relative hrest,
      normalizeComponents_point]
    rfl
  · rw [normalize, components_join_relative htext hrest, normalizeComponents_append]
    rfl

/-- What is known of the normal form of a written path. -/
structure IsNormalForm (text : String) (path : RelPath) : Prop where
  /-- It is what the components of the written path leave on the stack. -/
  on_stack : path = runStack [] (components text)
  /-- It consists of names. -/
  names : components path.text = path.map .name
  /-- It is its own normal form. -/
  fixed : normalize path.text = some path
  /-- It can take the place of the written path in front of any other one. -/
  in_front : ∀ rest, normalize (join text rest) = normalize (join path.text rest)

theorem isNormalForm_of_normalize {text : String} {path : RelPath}
    (h : normalize text = some path) : IsNormalForm text path := by
  have hnames := isName_of_normalize h
  refine ⟨(normalize_eq_some_iff.mp h).2.2, components_text hnames, normalize_names hnames, ?_⟩
  intro rest
  cases hrest : isAbsolute rest with
  | true => simp [join, hrest]
  | false =>
    rw [normalize_join_relative text hrest, normalize_join_relative path.text hrest, h,
      normalize_names hnames]

end CorpusQuery.Path

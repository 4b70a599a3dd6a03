import CorpusQuery.Yaml.Token

/-!
# The tree of a YAML document

`Document.ofText` reads a text that is one YAML document into a `Tree` of scalars, sequences and
mappings.

As in the expression language, only the reader of nodes leads back to itself, and it takes a token
before it does: it recurses on a bound for the number of tokens, and the readers of collections are
given the reader of the nodes in them.

Every tag is kept with its node. Other readers of YAML drop the tag `!` on a scalar; here it stays,
as it does on a collection, for so the program is seen to read it. Values and names look through
it, so that `! "a"` is the text `a`. Filters and keys do not: to `filters: ! "a == 1"` the program
answers with an unsupported filter, and to the entry `! name: v` that the view has no name.

Anchors and aliases are bound in a second pass. The anchor table has numbered slots. An anchor takes
the slot whose number is how many names were given before, its own not counted twice; what takes a
slot later replaces what was there, and an alias stands for what is in its slot in the end.
-/

namespace CorpusQuery.Yaml

/-- A node of a document; `ρ` is what anchors and aliases are known by. -/
inductive Tree (ρ : Type) where
  | scalar (tag : Option Tag) (style : Style) (text : String)
  | sequence (tag : Option Tag) (items : List (Tree ρ))
  | mapping (tag : Option Tag) (entries : List (Tree ρ × Tree ρ))
  | alias (ref : ρ)
  | anchored (ref : ρ) (node : Tree ρ)

namespace Tree

/-! ## Reading nodes -/

/-- The scalar that stands for a node that is left out. -/
def empty {ρ : Type} : Tree ρ := .scalar none .plain ""

/-- An error at the first of the tokens. -/
def fail {α : Type} (tokens : List Token) (problem : Problem) : Except Error α :=
  .error ⟨tokens.head?.map (·.line + 1), problem⟩

/-- Reads a node from the start of a list of tokens and gives the tokens after it. -/
abbrev Reader := List Token → Except Error (Tree String × List Token)

/-- The kind of the first token. -/
def headKind? (tokens : List Token) : Option Token.Kind := tokens.head?.map (·.kind)

/-- A node, or an empty one if the first token is one of `ends` or there is none. -/
def orEmpty (node : Reader) (ends : List Token.Kind) : Reader := fun tokens =>
  match headKind? tokens with
  | none => node tokens
  | some kind => if ends.contains kind then .ok (empty, tokens) else node tokens

/-- The entries of a block sequence, after the token that starts it, and the token that ends it. -/
def blockItems (node : Reader) (bound : Nat) (tokens : List Token) :
    Except Error (List (Tree String) × List Token) :=
  match bound, tokens with
  | bound + 1, ⟨.blockEntry, _⟩ :: rest => do
    let (item, rest) ← orEmpty node [.blockEntry, .blockEnd] rest
    let (items, rest) ← blockItems node bound rest
    .ok (item :: items, rest)
  | _ + 1, ⟨.blockEnd, _⟩ :: rest => .ok ([], rest)
  | _, _ => fail tokens .noEntry

/-- The entries of a block sequence that is not indented more than the mapping around it. -/
def flushItems (node : Reader) (bound : Nat) (tokens : List Token) :
    Except Error (List (Tree String) × List Token) :=
  match bound, tokens with
  | bound + 1, ⟨.blockEntry, _⟩ :: rest => do
    let (item, rest) ← orEmpty node [.blockEntry, .key, .value, .blockEnd] rest
    let (items, rest) ← flushItems node bound rest
    .ok (item :: items, rest)
  | _, _ => .ok ([], tokens)

/-- The value of an entry of a block mapping. -/
def blockValue (node : Reader) : Reader
  | ⟨.value, _⟩ :: rest => orEmpty node [.key, .value, .blockEnd] rest
  | tokens => .ok (empty, tokens)

/-- The entries of a block mapping, after the token that starts it, and the token that ends it. -/
def blockEntries (node : Reader) (bound : Nat) (tokens : List Token) :
    Except Error (List (Tree String × Tree String) × List Token) :=
  match bound, tokens with
  | bound + 1, ⟨.key, _⟩ :: rest => do
    let (key, rest) ← orEmpty node [.key, .value, .blockEnd] rest
    let (value, rest) ← blockValue node rest
    let (entries, rest) ← blockEntries node bound rest
    .ok ((key, value) :: entries, rest)
  | _ + 1, ⟨.blockEnd, _⟩ :: rest => .ok ([], rest)
  | _, _ => fail tokens .noKey

/-- The value of an entry of a flow collection that `closing` ends. -/
def flowValue (node : Reader) (closing : Token.Kind) : Reader
  | ⟨.value, _⟩ :: rest => orEmpty node [.flowEntry, closing] rest
  | tokens => .ok (empty, tokens)

/-- The key of an entry of a flow sequence that is a mapping of one entry. If the key is left out,
the token in its place is passed over. -/
def pairKey (node : Reader) : Reader
  | ⟨.value, _⟩ :: rest => .ok (empty, rest)
  | ⟨.flowEntry, _⟩ :: rest => .ok (empty, rest)
  | ⟨.flowSequenceEnd, _⟩ :: rest => .ok (empty, rest)
  | tokens => node tokens

/-- One entry of a flow sequence: a node, or a mapping of one entry. -/
def flowItem (node : Reader) : Reader
  | ⟨.key, _⟩ :: rest => do
    let (key, rest) ← pairKey node rest
    let (value, rest) ← flowValue node .flowSequenceEnd rest
    .ok (.mapping none [(key, value)], rest)
  | tokens => node tokens

/-- The entries of a flow sequence and the token that ends it; `first` tells that no comma comes
before the next entry. -/
def flowItems (node : Reader) (bound : Nat) (first : Bool) (tokens : List Token) :
    Except Error (List (Tree String) × List Token) :=
  match bound, first, tokens with
  | _ + 1, _, ⟨.flowSequenceEnd, _⟩ :: rest => .ok ([], rest)
  | bound + 1, true, tokens => do
    let (item, rest) ← flowItem node tokens
    let (items, rest) ← flowItems node bound false rest
    .ok (item :: items, rest)
  | _ + 1, false, ⟨.flowEntry, _⟩ :: ⟨.flowSequenceEnd, _⟩ :: rest => .ok ([], rest)
  | bound + 1, false, ⟨.flowEntry, _⟩ :: rest => do
    let (item, rest) ← flowItem node rest
    let (items, rest) ← flowItems node bound false rest
    .ok (item :: items, rest)
  | _, _, tokens => fail tokens .noCommaOrClosing

/-- One entry of a flow mapping: a key with its value, or a node without value. -/
def flowPair (node : Reader) (tokens : List Token) :
    Except Error ((Tree String × Tree String) × List Token) :=
  match tokens with
  | ⟨.key, _⟩ :: rest => do
    let (key, rest) ← orEmpty node [.value, .flowEntry, .flowMappingEnd] rest
    let (value, rest) ← flowValue node .flowMappingEnd rest
    .ok ((key, value), rest)
  | tokens => do
    let (key, rest) ← node tokens
    .ok ((key, empty), rest)

/-- The entries of a flow mapping and the token that ends it; `first` tells that no comma comes
before the next entry. -/
def flowPairs (node : Reader) (bound : Nat) (first : Bool) (tokens : List Token) :
    Except Error (List (Tree String × Tree String) × List Token) :=
  match bound, first, tokens with
  | _ + 1, _, ⟨.flowMappingEnd, _⟩ :: rest => .ok ([], rest)
  | bound + 1, true, tokens => do
    let (pair, rest) ← flowPair node tokens
    let (pairs, rest) ← flowPairs node bound false rest
    .ok (pair :: pairs, rest)
  | _ + 1, false, ⟨.flowEntry, _⟩ :: ⟨.flowMappingEnd, _⟩ :: rest => .ok ([], rest)
  | bound + 1, false, ⟨.flowEntry, _⟩ :: rest => do
    let (pair, rest) ← flowPair node rest
    let (pairs, rest) ← flowPairs node bound false rest
    .ok (pair :: pairs, rest)
  | _, _, tokens => fail tokens .noCommaOrClosing

/-! ## Tags -/

/-- The handles that stand for the starts of tags, in the order in which they are looked up. -/
abbrev TagHandles := List (String × Tag)

/-- The handles that need no directive. -/
def defaultHandles : TagHandles := [("!", .ofString "!"), ("!!", .coreStem)]

/-- The tag that a handle and a suffix stand for. -/
def fullTag (handles : TagHandles) (handle : String) (suffix : Tag) (line : Nat) :
    Except Error Tag :=
  if handle.isEmpty then .ok suffix
  else
    match handles.lookup handle with
    | some stem => .ok (stem.append suffix)
    | none => .error ⟨some (line + 1), .undefinedTagHandle⟩

/-- What may come before the content of a node. -/
structure Properties where
  anchor : Option String
  tag : Option Tag

/-- Reads an anchor and a tag, in either order; both may be missing. -/
def properties (handles : TagHandles) : List Token → Except Error (Properties × List Token)
  | ⟨.anchor name, _⟩ :: ⟨.tag handle suffix, line⟩ :: rest =>
    (fullTag handles handle suffix line).map fun tag => (⟨some name, some tag⟩, rest)
  | ⟨.anchor name, _⟩ :: rest => .ok (⟨some name, none⟩, rest)
  | ⟨.tag handle suffix, line⟩ :: ⟨.anchor name, _⟩ :: rest =>
    (fullTag handles handle suffix line).map fun tag => (⟨some name, some tag⟩, rest)
  | ⟨.tag handle suffix, line⟩ :: rest =>
    (fullTag handles handle suffix line).map fun tag => (⟨none, some tag⟩, rest)
  | rest => .ok (⟨none, none⟩, rest)

/-- The node under its anchor, if it has one. -/
def Properties.attach (p : Properties) (node : Tree String) : Tree String :=
  match p.anchor with
  | some name => .anchored name node
  | none => node

/-- Reads a node. `flush` tells that it is a key or a value of a block mapping, so that the entries
of a sequence need not be indented; `bound` is at least the number of tokens. -/
def node (handles : TagHandles) (bound : Nat) (flush : Bool) : Reader := fun tokens =>
  match bound, tokens with
  | _, ⟨.alias name, _⟩ :: rest => .ok (.alias name, rest)
  | 0, tokens => fail tokens .noContent
  | bound + 1, tokens => do
    let (p, rest) ← properties handles tokens
    match rest with
    | ⟨.scalar text style, _⟩ :: rest => .ok (p.attach (.scalar p.tag style text), rest)
    | ⟨.blockEntry, _⟩ :: _ =>
      if flush then do
        let (items, rest) ← flushItems (node handles bound false) rest.length rest
        .ok (p.attach (.sequence p.tag items), rest)
      else if p.anchor.isSome || p.tag.isSome then .ok (p.attach (.scalar p.tag .plain ""), rest)
      else fail rest .noContent
    | ⟨.blockSequenceStart, _⟩ :: rest => do
      let (items, rest) ← blockItems (node handles bound false) rest.length rest
      .ok (p.attach (.sequence p.tag items), rest)
    | ⟨.blockMappingStart, _⟩ :: rest => do
      let (entries, rest) ← blockEntries (node handles bound true) rest.length rest
      .ok (p.attach (.mapping p.tag entries), rest)
    | ⟨.flowSequenceStart, _⟩ :: rest => do
      let (items, rest) ← flowItems (node handles bound false) rest.length true rest
      .ok (p.attach (.sequence p.tag items), rest)
    | ⟨.flowMappingStart, _⟩ :: rest => do
      let (entries, rest) ← flowPairs (node handles bound false) rest.length true rest
      .ok (p.attach (.mapping p.tag entries), rest)
    | rest =>
      if p.anchor.isSome || p.tag.isSome then .ok (p.attach (.scalar p.tag .plain ""), rest)
      else fail rest .noContent

/-! ## Anchors -/

/-- The anchors met so far: the slots of the names, the numbers of the nodes in the slots, and the
number of anchored nodes. -/
structure Anchors where
  names : List (String × Nat)
  slots : List (Nat × Nat)
  count : Nat

/-- The anchors with one more node under `name`. -/
def Anchors.add (a : Anchors) (name : String) : Anchors :=
  let slot := a.names.length
  ⟨(name, slot) :: a.names.filter (·.1 != name), (slot, a.count) :: a.slots, a.count + 1⟩

/-- Goes over a document and keeps track of its anchors. -/
abbrev Binding := StateT Anchors (Except Error)

mutual

/-- The node with numbered anchors, and aliases that hold the number of a slot. -/
def bind : Tree String → Binding (Tree Nat)
  | .scalar tag style text => pure (.scalar tag style text)
  | .sequence tag items => return .sequence tag (← bindItems items)
  | .mapping tag entries => return .mapping tag (← bindEntries entries)
  | .alias name => do
    match (← get).names.lookup name with
    | some slot => pure (.alias slot)
    | none => throw ⟨none, .unknownAnchor⟩
  | .anchored name node => do
    let anchors ← get
    set (anchors.add name)
    return .anchored anchors.count (← bind node)
termination_by structural node => node

/-- The items of a sequence, bound. -/
def bindItems : List (Tree String) → Binding (List (Tree Nat))
  | [] => pure []
  | item :: items => do
    let item ← bind item
    return item :: (← bindItems items)
termination_by structural items => items

/-- The entries of a mapping, bound. -/
def bindEntries : List (Tree String × Tree String) → Binding (List (Tree Nat × Tree Nat))
  | [] => pure []
  | (key, value) :: entries => do
    let key ← bind key
    let value ← bind value
    return (key, value) :: (← bindEntries entries)
termination_by structural entries => entries

end

mutual

/-- The anchored nodes in a node, with their numbers. -/
def anchoredNodes : Tree Nat → List (Nat × Tree Nat)
  | .sequence _ items => anchoredInItems items
  | .mapping _ entries => anchoredInEntries entries
  | .anchored number node => (number, node) :: anchoredNodes node
  | _ => []
termination_by structural node => node

/-- The anchored nodes in the items of a sequence. -/
def anchoredInItems : List (Tree Nat) → List (Nat × Tree Nat)
  | [] => []
  | item :: items => anchoredNodes item ++ anchoredInItems items
termination_by structural items => items

/-- The anchored nodes in the entries of a mapping. -/
def anchoredInEntries : List (Tree Nat × Tree Nat) → List (Nat × Tree Nat)
  | [] => []
  | (key, value) :: entries => anchoredNodes key ++ anchoredNodes value ++ anchoredInEntries entries
termination_by structural entries => entries

end

mutual

/-- The size of a node: one for a scalar or an alias, two and the sizes of its parts for a
collection. -/
def weight {ρ : Type} : Tree ρ → Nat
  | .sequence _ items => 2 + itemsWeight items
  | .mapping _ entries => 2 + entriesWeight entries
  | .anchored _ node => weight node
  | _ => 1
termination_by structural node => node

/-- The sizes of the items of a sequence. -/
def itemsWeight {ρ : Type} : List (Tree ρ) → Nat
  | [] => 0
  | item :: items => weight item + itemsWeight items
termination_by structural items => items

/-- The sizes of the entries of a mapping. -/
def entriesWeight {ρ : Type} : List (Tree ρ × Tree ρ) → Nat
  | [] => 0
  | (key, value) :: entries => weight key + weight value + entriesWeight entries
termination_by structural entries => entries

end

end Tree

/-- A document: its root, if the text has any content, and the nodes in the slots of its anchor
table. -/
structure Document where
  root : Option (Tree Nat)
  slots : List (Nat × Tree Nat)

namespace Document

/-- Reads the directives before a document: at most one version, and the tag handles. -/
def directives (version : Bool) (handles : Tree.TagHandles) :
    List Token → Except Error (Tree.TagHandles × List Token)
  | ⟨.version major minor, line⟩ :: rest =>
    if version then .error ⟨some (line + 1), .badDirective⟩
    else if major = 1 ∧ (minor = 1 ∨ minor = 2) then directives true handles rest
    else .error ⟨some (line + 1), .badVersion⟩
  | ⟨.tagDirective handle stem, line⟩ :: rest =>
    if (handles.lookup handle).isSome then .error ⟨some (line + 1), .badDirective⟩
    else directives version ((handle, stem) :: handles) rest
  | rest => .ok (handles, rest)

/-- Whether a token ends a document without content. -/
def endsEmpty : Option Token.Kind → Bool
  | none | some (.version ..) | some (.tagDirective ..) | some .documentStart | some .documentEnd =>
    true
  | _ => false

/-- Whether a token starts a document that is marked by `---`. -/
def startsMarked : Option Token.Kind → Bool
  | some (.version ..) | some (.tagDirective ..) | some .documentStart => true
  | _ => false

/-- The root of the first document, and the tokens after it. -/
def rootOf (tokens : List Token) : Except Error (Tree String × List Token) :=
  if startsMarked (Tree.headKind? tokens) then do
    let (handles, rest) ← directives false [] tokens
    match rest with
    | ⟨.documentStart, _⟩ :: rest =>
      if endsEmpty (Tree.headKind? rest) then .ok (.empty, rest)
      else Tree.node (handles ++ Tree.defaultHandles) rest.length false rest
    | _ => Tree.fail rest .noDocumentStart
  else Tree.node Tree.defaultHandles tokens.length false tokens

/-- The document that a list of tokens is. After it only marks of its end may come. -/
def ofTokens (tokens : List Token) : Except Error Document :=
  match tokens with
  | [] => .ok ⟨none, []⟩
  | tokens => do
    let (root, rest) ← rootOf tokens
    if rest.all fun token => token.kind == .documentEnd then
      let (root, anchors) ← (Tree.bind root).run ⟨[], [], 0⟩
      let nodes := root.anchoredNodes
      let slots := anchors.slots.filterMap fun (slot, number) =>
        (nodes.lookup number).map fun node => (slot, node)
      .ok ⟨some root, slots⟩
    else Tree.fail (rest.dropWhile fun token => token.kind == .documentEnd) .severalDocuments

/-- The document that a text is. -/
def ofText (source : String) : Except Error Document :=
  match tokenize source with
  | .ok tokens => ofTokens tokens
  | .error e => .error e

/-- What the aliases to a slot stand for. -/
def target? (d : Document) (slot : Nat) : Option (Tree Nat) := d.slots.lookup slot

/-- How many times aliases may be followed: a hundred times the size of the document. -/
def aliasLimit (d : Document) : Nat := 100 * (d.root.map Tree.weight).getD 1

end Document

end CorpusQuery.Yaml

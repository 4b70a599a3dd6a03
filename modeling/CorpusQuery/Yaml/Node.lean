import CorpusQuery.Value.Arithmetic
import CorpusQuery.Value.Text
import CorpusQuery.Yaml.Plain
import CorpusQuery.Yaml.Tree

/-!
# YAML values

`Node.ofText` reads a text as a YAML value: scalars get their meaning from their style and tag,
aliases are replaced by what they stand for, and no mapping has a key twice. `Node.toValue` is the
value for expressions; it forgets tags and turns keys into text.

`Node.ofText` and all that is below it stand for a YAML library from outside of the program, which
hands it a text and takes a node or an error. No theorem opens the reader: each holds for any
function from texts to nodes or errors in its place, and only runs on fixed texts evaluate it.
-/

namespace CorpusQuery.Yaml

/-- A YAML value. Local tags are kept; an integer is between `-2 ^ 63` and `2 ^ 64 - 1`. -/
inductive Node where
  | null
  | bool (b : Bool)
  | int (n : Int)
  | float (x : Float)
  | str (s : String)
  | sequence (items : List Node)
  | mapping (entries : List (Node × Node))
  | tagged (tag : String) (node : Node)
  deriving Inhabited

namespace Node

/-- What a plain scalar stands for, as a node. -/
def ofPlain : Plain → Node
  | .null => .null
  | .bool b => .bool b
  | .int n => .int n
  | .float x => .float x
  | .str s => .str s

/-- The node with a tag, if that is local and has a name. -/
def withTag (tag : Option Tag) (node : Node) : Node :=
  match tag.bind Tag.name? with
  | some name => .tagged name node
  | none => node

/-! ## Sameness of keys -/

mutual

/-- Whether two nodes are the same as keys. Integers and doubles differ; entries may come in any
order. -/
def same : Node → Node → Bool
  | .null, .null => true
  | .bool a, .bool b => a == b
  | .int a, .int b => a == b
  | .float x, .float y => x == y || (x.isNaN && y.isNaN)
  | .str a, .str b => a == b
  | .sequence xs, .sequence ys => sameItems xs ys
  | .mapping xs, .mapping ys => xs.length == ys.length && sameEntries xs ys
  | .tagged a x, .tagged b y => a == b && same x y
  | _, _ => false
termination_by structural a => a

/-- Whether two sequences are the same. -/
def sameItems : List Node → List Node → Bool
  | [], [] => true
  | x :: xs, y :: ys => same x y && sameItems xs ys
  | _, _ => false
termination_by structural xs => xs

/-- Whether each of the entries is among those of the other mapping. -/
def sameEntries : List (Node × Node) → List (Node × Node) → Bool
  | [], _ => true
  | (k, x) :: xs, ys => (ys.any fun (l, y) => same k l && same x y) && sameEntries xs ys
termination_by structural xs => xs

end

/-! ## Reading -/

/-- Reads a document; counts how many times aliases were followed. -/
abbrev Reading := StateT Nat (Except Error)

/-- A problem without a place. -/
def refuse {α : Type} (problem : Problem) : Except Error α := .error ⟨none, problem⟩

/-- A node, if there is one for the text of a scalar. -/
def orRefuse : Option Node → Except Error Node
  | some node => .ok node
  | none => refuse .badScalar

/-- A scalar whose tag is local or missing: only a plain one can be anything but a string. -/
def ofUntagged (style : Style) (text : String) : Except Error Node :=
  if style = .plain then orRefuse ((Plain.ofText? text).map ofPlain) else .ok (.str text)

/-- The integer that a text stands for, if it fits in 64 bits. -/
def int? (text : String) : Option Node :=
  match Plain.readInteger text with
  | .fits n => some (.int n)
  | _ => none

/-- The content of a scalar. The four tags for types without quotes force that type; any other tag
that is not local makes a string. -/
def ofScalar (tag : Option Tag) (style : Style) (text : String) : Except Error Node :=
  match tag with
  | none => ofUntagged style text
  | some tag =>
    if tag.isLocal then ofUntagged style text
    else if tag = .bool then orRefuse ((Plain.bool? text).map .bool)
    else if tag = .int then orRefuse (int? text)
    else if tag = .float then orRefuse ((Plain.float? text).map .float)
    else if tag = .null then orRefuse (if Plain.isNull text then some .null else none)
    else .ok (.str text)

/-- The entries as a mapping, unless a key comes twice. -/
def ofEntries (entries : List (Node × Node)) : Except Error Node :=
  if entries.map (·.1) |>.Pairwise (fun k l => !same k l) then .ok (.mapping entries)
  else refuse .duplicateKey

/-- How deeply collections may be nested. -/
def maxDepth : Nat := 128

end Node

/-- What an alias stands for; a node that is no alias is left as it is, and an anchor is dropped. -/
def Document.follow (d : Document) : Tree Nat → Node.Reading (Tree Nat)
  | .alias slot => do
    let count := (← get) + 1
    set count
    if d.aliasLimit < count then throw ⟨none, .tooManyAliases⟩
    else
      match d.target? slot with
      | some node => pure node
      | none => throw ⟨none, .unknownAnchor⟩
  | .anchored _ node => pure node
  | node => pure node

namespace Node

/-- The value of a tree whose collections are nested at most `depth` deep. -/
def ofTree (d : Document) (depth : Nat) (tree : Tree Nat) : Reading Node := do
  match ← d.follow tree with
  | .scalar tag style text => return withTag tag (← ofScalar tag style text)
  | .sequence tag items =>
    match depth with
    | 0 => throw ⟨none, .tooDeep⟩
    | depth + 1 =>
      let items ← items.mapM (ofTree d depth)
      return withTag tag (.sequence items)
  | .mapping tag entries =>
    match depth with
    | 0 => throw ⟨none, .tooDeep⟩
    | depth + 1 =>
      let entries ← entries.mapM fun (key, value) => do
        let key ← ofTree d depth key
        let value ← ofTree d depth value
        return (key, value)
      return withTag tag (← ofEntries entries)
  | _ => throw ⟨none, .unknownAnchor⟩

/-- The value of a document; a document without content has none. -/
def ofDocument (d : Document) : Except Error Node :=
  match d.root with
  | none => .ok .null
  | some tree => (ofTree d maxDepth tree).run' 0

/-- The YAML value that a text is. -/
def ofText (source : String) : Except Error Node :=
  match Document.ofText source with
  | .ok d => ofDocument d
  | .error e => .error e

/-! ## Values for expressions -/

/-- An integer as a value; above `2 ^ 63 - 1` it becomes a double. -/
def intValue (n : Int) : Value :=
  match Value.int64? n with
  | some i => .int i
  | none => .float (Float.ofInt n)

mutual

/-- The value of a node. -/
def toValue : Node → Value
  | .null => .null
  | .bool b => .bool b
  | .int n => intValue n
  | .float x => .float x
  | .str s => .str s
  | .sequence items => .list (itemValues items)
  | .mapping entries => Value.ofEntries (entryValues entries)
  | .tagged _ node => toValue node
termination_by structural node => node

/-- The values of the items of a sequence. -/
def itemValues : List Node → List Value
  | [] => []
  | item :: items => toValue item :: itemValues items
termination_by structural items => items

/-- The values of the entries of a mapping under the texts of their keys. -/
def entryValues : List (Node × Node) → List (String × Value)
  | [] => []
  | (key, value) :: entries => ((toValue key).text, toValue value) :: entryValues entries
termination_by structural entries => entries

end

/-- The text of a node: a string as it is, anything else as the text of its value. -/
def describe (node : Node) : String := node.toValue.text

/-- The node without its tags. -/
def untagged : Node → Node
  | .tagged _ node => untagged node
  | node => node

/-- The text of a node that is a string below its tags. -/
def string? (node : Node) : Option String :=
  match node.untagged with
  | .str s => some s
  | _ => none

/-- The value under a key that is the given string. -/
def lookup? (key : String) (entries : List (Node × Node)) : Option Node :=
  (entries.find? fun entry => match entry.1 with
    | .str s => s == key
    | _ => false).map (·.2)

end Node

end CorpusQuery.Yaml

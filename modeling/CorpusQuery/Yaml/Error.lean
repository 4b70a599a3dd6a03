/-!
# YAML errors

Why a text is not one YAML document, or not one of the expected form.

The words of `Problem.message` and `Error.message` are chosen here. Those of the YAML library that
the program works with are not part of it, and no theorem depends on either.
-/

namespace CorpusQuery.Yaml

/-- What is wrong with a YAML text. -/
inductive Problem where
  | characterNotAllowed
  | tabIndentation
  | noTokenHere
  | keyWithoutColon
  | entryNotAllowed
  | keyNotAllowed
  | valueNotAllowed
  | badDirective
  | badVersion
  | badAnchor
  | badTag
  | undefinedTagHandle
  | badEscape
  | documentMarkInScalar
  | unclosedScalar
  | badBlockScalarHeader
  | noDocumentStart
  | noContent
  | noEntry
  | noKey
  | noCommaOrClosing
  | unknownAnchor
  | severalDocuments
  | tooDeep
  | tooManyAliases
  | duplicateKey
  | badScalar
  | wrongType (expected : String)
  deriving Repr, DecidableEq

/-- The wording of a problem. -/
def Problem.message : Problem → String
  | .characterNotAllowed => "control characters are not allowed"
  | .tabIndentation => "a tab stands where indentation is expected"
  | .noTokenHere => "a character cannot start any token"
  | .keyWithoutColon => "a key is not followed by a colon"
  | .entryNotAllowed => "a block sequence entry is not allowed here"
  | .keyNotAllowed => "a mapping key is not allowed here"
  | .valueNotAllowed => "a mapping value is not allowed here"
  | .badDirective => "a directive is malformed"
  | .badVersion => "the document is for an incompatible version of YAML"
  | .badAnchor => "the name of an anchor or an alias is malformed"
  | .badTag => "a tag is malformed"
  | .undefinedTagHandle => "a tag handle is not defined"
  | .badEscape => "a quoted scalar holds an unknown escape"
  | .documentMarkInScalar => "a document ends inside a quoted scalar"
  | .unclosedScalar => "a quoted scalar is not closed"
  | .badBlockScalarHeader => "the first line of a block scalar is malformed"
  | .noDocumentStart => "a document does not start where one is expected"
  | .noContent => "a node has no content"
  | .noEntry => "a sequence goes on with something that is no entry"
  | .noKey => "a mapping goes on with something that is no key"
  | .noCommaOrClosing => "a comma or a closing bracket is missing"
  | .unknownAnchor => "an alias names an unknown anchor"
  | .severalDocuments => "there is more than one document"
  | .tooDeep => "collections are nested too deeply"
  | .tooManyAliases => "aliases repeat their anchors too often"
  | .duplicateKey => "a mapping has a key twice"
  | .badScalar => "a scalar does not fit its tag"
  | .wrongType expected => s!"a value is not {expected}"

/-- A problem and the number of the line it was found on, counted from one, if it has a place. -/
structure Error where
  line : Option Nat
  problem : Problem
  deriving Repr, DecidableEq

/-- The wording of an error. -/
def Error.message (e : Error) : String :=
  match e.line with
  | some line => s!"{e.problem.message} at line {line}"
  | none => e.problem.message

end CorpusQuery.Yaml

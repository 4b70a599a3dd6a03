import CorpusQuery.Cache
import CorpusQuery.Cli.Arguments
import CorpusQuery.Cli.Command
import CorpusQuery.Cli.Run
import CorpusQuery.Cli.Text
import CorpusQuery.Corpus
import CorpusQuery.Corpus.Index
import CorpusQuery.Corpus.Walk
import CorpusQuery.Decimal.Layout
import CorpusQuery.Decimal.Read
import CorpusQuery.Decimal.Shortest
import CorpusQuery.Definition
import CorpusQuery.Definition.Columns
import CorpusQuery.Definition.Formulas
import CorpusQuery.Definition.Parse
import CorpusQuery.Definition.Problem
import CorpusQuery.Definition.Shape
import CorpusQuery.Definition.Views
import CorpusQuery.Dictionary
import CorpusQuery.Disk
import CorpusQuery.Disk.Edit
import CorpusQuery.Document
import CorpusQuery.Document.Content
import CorpusQuery.Document.Property
import CorpusQuery.Error
import CorpusQuery.Error.Detailed
import CorpusQuery.Expr.Basic
import CorpusQuery.Expr.Error
import CorpusQuery.Expr.Eval
import CorpusQuery.Expr.Parser
import CorpusQuery.Expr.Token
import CorpusQuery.Filter
import CorpusQuery.Job
import CorpusQuery.Json
import CorpusQuery.Main
import CorpusQuery.Markdown
import CorpusQuery.Message
import CorpusQuery.Path
import CorpusQuery.Settings
import CorpusQuery.Settings.Read
import CorpusQuery.Text.Alphanumeric
import CorpusQuery.Text.Pieces
import CorpusQuery.Text.Quoted
import CorpusQuery.Value.Arithmetic
import CorpusQuery.Value.Basic
import CorpusQuery.Value.Error
import CorpusQuery.Value.Json
import CorpusQuery.Value.Relations
import CorpusQuery.Value.Text
import CorpusQuery.View.Basic
import CorpusQuery.View.Cells
import CorpusQuery.View.Layout
import CorpusQuery.View.Materialize
import CorpusQuery.View.Order
import CorpusQuery.View.Row
import CorpusQuery.View.Sorting
import CorpusQuery.Workspace
import CorpusQuery.Yaml.Cursor
import CorpusQuery.Yaml.Error
import CorpusQuery.Yaml.Node
import CorpusQuery.Yaml.Plain
import CorpusQuery.Yaml.Scalar
import CorpusQuery.Yaml.Tag
import CorpusQuery.Yaml.Token
import CorpusQuery.Yaml.Tree
import CorpusQuery.Proofs.Job.Paired
import CorpusQuery.Proofs.Definition.Strictness
import CorpusQuery.Proofs.View.Strictness
import CorpusQuery.Proofs.View.Cells
import CorpusQuery.Proofs.View.Rows
import CorpusQuery.Proofs.Corpus.Walk
import CorpusQuery.Proofs.Document.Filtering
import CorpusQuery.Proofs.View.Correspondence
import CorpusQuery.Proofs.Expr.Grammar
import CorpusQuery.Proofs.Expr.Completeness
import CorpusQuery.Proofs.Expr.Parsing
import CorpusQuery.Proofs.Expr.Lexing
import CorpusQuery.Proofs.Expr.RoundTrip
import CorpusQuery.Proofs.View.Failure
import CorpusQuery.Proofs.Workspace.Transparency
import CorpusQuery.Proofs.Cache.History
import CorpusQuery.Proofs.Job.Reports
import CorpusQuery.Proofs.View.Messages
import CorpusQuery.Proofs.Cli.Checking
import CorpusQuery.Proofs.Document.Looking
import CorpusQuery.Proofs.Document.FileFacts
import CorpusQuery.Proofs.View.Interview
import CorpusQuery.Proofs.View.ReadOnce
import CorpusQuery.Proofs.Job.SideBySide
import CorpusQuery.Proofs.View.Orders
import CorpusQuery.Proofs.Expr.Lookahead
import CorpusQuery.Proofs.Expr.Predictive
import CorpusQuery.Proofs.Expr.Offence
import CorpusQuery.Proofs.View.StableSort
import CorpusQuery.Proofs.View.SortableColumns
import CorpusQuery.Proofs.Value.Doubles
import CorpusQuery.Proofs.Value.Integers
import CorpusQuery.Proofs.View.Headings
import CorpusQuery.Proofs.Document.FailOpen
import CorpusQuery.Proofs.View.MissingValues
import CorpusQuery.Proofs.Value.Places
import CorpusQuery.Proofs.View.IntegerColumns
import CorpusQuery.Proofs.Text.Pieces
import CorpusQuery.Proofs.Document.NameLink
import CorpusQuery.Proofs.Markdown.Wikilinks
import CorpusQuery.Proofs.Path.Components
import CorpusQuery.Proofs.Corpus.Resolution
import CorpusQuery.Proofs.Corpus.Membership
import CorpusQuery.Proofs.Corpus.Anchors
import CorpusQuery.Proofs.Corpus.VisibleFiles
import CorpusQuery.Proofs.Markdown.Hashtags
import CorpusQuery.Proofs.Path.Normalization
import CorpusQuery.Proofs.Corpus.Confinement
import CorpusQuery.Proofs.Text.Lines
import CorpusQuery.Proofs.Markdown.FrontMatter
import CorpusQuery.Proofs.Value.Equality
import CorpusQuery.Proofs.Document.Extraction
import CorpusQuery.Proofs.Document.Tags
import CorpusQuery.Proofs.Value.Ordering
import CorpusQuery.Proofs.Value.ListOrder
import CorpusQuery.Proofs.Cli.PlainText
import CorpusQuery.Proofs.Expr.Mentioned
import CorpusQuery.Proofs.Expr.Subject
import CorpusQuery.Proofs.Expr.Regrouping
import CorpusQuery.Proofs.Expr.IntegerTrees
import CorpusQuery.Proofs.Expr.Membership
import CorpusQuery.Proofs.Expr.Parentheses
import CorpusQuery.Proofs.Document.PageAddress
import CorpusQuery.Proofs.View.InsertionOrder
import CorpusQuery.Proofs.View.Projection
import CorpusQuery.Proofs.Workspace.Scalars
import CorpusQuery.Proofs.Expr.Runs
import CorpusQuery.Proofs.Expr.Suffixes
import CorpusQuery.Proofs.Value.Repetition
import CorpusQuery.Proofs.Markdown.Escaping
import CorpusQuery.Proofs.Value.Truths

import GrammarTable.Bnf.Lexicon
import GrammarTable.Bnf.Phrase
import GrammarTable.Bnf.Reader
import GrammarTable.Calendar
import GrammarTable.CommandLine.Arguments
import GrammarTable.CommandLine.Execute
import GrammarTable.Disk.Basic
import GrammarTable.Disk.Edit
import GrammarTable.Disk.Replace
import GrammarTable.Disk.Walk
import GrammarTable.Files.Access
import GrammarTable.Files.Fault
import GrammarTable.Grammar.Complaint
import GrammarTable.Grammar.Read
import GrammarTable.Grammar.Rejection
import GrammarTable.Iso.Lexicon
import GrammarTable.Iso.Phrase
import GrammarTable.Iso.Reader
import GrammarTable.Main
import GrammarTable.Path
import GrammarTable.Proofs.Bnf.Completeness
import GrammarTable.Proofs.Bnf.Derivation
import GrammarTable.Proofs.Bnf.Foresight
import GrammarTable.Proofs.Bnf.Leaves
import GrammarTable.Proofs.Bnf.Moved
import GrammarTable.Proofs.Bnf.NormalForm
import GrammarTable.Proofs.Bnf.Plain
import GrammarTable.Proofs.Bnf.Script
import GrammarTable.Proofs.Bnf.Translation
import GrammarTable.Proofs.Calendar
import GrammarTable.Proofs.CommandLine.Stages
import GrammarTable.Proofs.Disk.Entries
import GrammarTable.Proofs.Disk.Paths
import GrammarTable.Proofs.Disk.Replacement
import GrammarTable.Proofs.Grammar.Collected
import GrammarTable.Proofs.Grammar.Depth
import GrammarTable.Proofs.Grammar.Duplicate
import GrammarTable.Proofs.Grammar.Excerpt
import GrammarTable.Proofs.Grammar.Expressible
import GrammarTable.Proofs.Grammar.Extent
import GrammarTable.Proofs.Grammar.Foresight
import GrammarTable.Proofs.Grammar.Joined
import GrammarTable.Proofs.Grammar.Leaves
import GrammarTable.Proofs.Grammar.Located
import GrammarTable.Proofs.Grammar.Marks
import GrammarTable.Proofs.Grammar.Nesting
import GrammarTable.Proofs.Grammar.NormalForm
import GrammarTable.Proofs.Grammar.Origin
import GrammarTable.Proofs.Grammar.Partition
import GrammarTable.Proofs.Grammar.Respelled
import GrammarTable.Proofs.Grammar.Scheme
import GrammarTable.Proofs.Grammar.Script
import GrammarTable.Proofs.Grammar.Verdict
import GrammarTable.Proofs.Iso.Completeness
import GrammarTable.Proofs.Iso.Depth
import GrammarTable.Proofs.Iso.Derivation
import GrammarTable.Proofs.Iso.Foresight
import GrammarTable.Proofs.Iso.Leaves
import GrammarTable.Proofs.Iso.Limit
import GrammarTable.Proofs.Iso.Moved
import GrammarTable.Proofs.Iso.NormalForm
import GrammarTable.Proofs.Iso.Phrased
import GrammarTable.Proofs.Iso.Plain
import GrammarTable.Proofs.Iso.Script
import GrammarTable.Proofs.Iso.Spelling
import GrammarTable.Proofs.Iso.Translation
import GrammarTable.Proofs.Json.Document
import GrammarTable.Proofs.Json.Reader
import GrammarTable.Proofs.Plain.Agreement
import GrammarTable.Proofs.Plain.Phrasing
import GrammarTable.Proofs.Plain.Production
import GrammarTable.Proofs.Plain.Writing
import GrammarTable.Proofs.Rule.Composite
import GrammarTable.Proofs.Rule.Depth
import GrammarTable.Proofs.Rule.Filled
import GrammarTable.Proofs.Rule.Insertion
import GrammarTable.Proofs.Rule.Language
import GrammarTable.Proofs.Rule.Marks
import GrammarTable.Proofs.Rule.Measure
import GrammarTable.Proofs.Rule.Moved
import GrammarTable.Proofs.Rule.NormalForm
import GrammarTable.Proofs.Rule.Projection
import GrammarTable.Proofs.Run.Compile
import GrammarTable.Proofs.Run.Embedding
import GrammarTable.Proofs.Run.Layout
import GrammarTable.Proofs.Run.Recovery
import GrammarTable.Proofs.Settings.Resolve
import GrammarTable.Proofs.Settings.Verbosity
import GrammarTable.Proofs.Table.Array
import GrammarTable.Proofs.Table.Indentation
import GrammarTable.Proofs.Table.Parts
import GrammarTable.Proofs.Table.RoundTrip
import GrammarTable.Proofs.Table.Separation
import GrammarTable.Proofs.Text.Boundary
import GrammarTable.Proofs.Text.Folded
import GrammarTable.Proofs.Text.Line
import GrammarTable.Proofs.Text.Position
import GrammarTable.Proofs.Text.Relined
import GrammarTable.Proofs.Text.Run
import GrammarTable.Proofs.Text.Trimmed
import GrammarTable.Proofs.Token.Derived
import GrammarTable.Proofs.Token.Excerpt
import GrammarTable.Proofs.Token.Foresight
import GrammarTable.Proofs.Token.Layout
import GrammarTable.Proofs.Token.Lexing
import GrammarTable.Proofs.Token.Limit
import GrammarTable.Proofs.Token.Moved
import GrammarTable.Proofs.Token.Partition
import GrammarTable.Proofs.Token.Relined
import GrammarTable.Proofs.Token.Run
import GrammarTable.Proofs.Token.Scheme
import GrammarTable.Proofs.Token.Shape
import GrammarTable.Proofs.Token.Word
import GrammarTable.Proofs.Tree.Fold
import GrammarTable.Proofs.Tree.Forest
import GrammarTable.Proofs.Tree.Leaves
import GrammarTable.Proofs.Tree.Relabel
import GrammarTable.Proofs.Tree.Throughout
import GrammarTable.Proofs.Tree.Within
import GrammarTable.Proofs.W3c.Ahead
import GrammarTable.Proofs.W3c.Completeness
import GrammarTable.Proofs.W3c.Depth
import GrammarTable.Proofs.W3c.Derivation
import GrammarTable.Proofs.W3c.Foresight
import GrammarTable.Proofs.W3c.Labels
import GrammarTable.Proofs.W3c.Leaves
import GrammarTable.Proofs.W3c.Limit
import GrammarTable.Proofs.W3c.Moved
import GrammarTable.Proofs.W3c.NormalForm
import GrammarTable.Proofs.W3c.Numbers
import GrammarTable.Proofs.W3c.Plain
import GrammarTable.Proofs.W3c.Script
import GrammarTable.Proofs.W3c.Translation
import GrammarTable.Rule.Composite
import GrammarTable.Rule.Draft
import GrammarTable.Rule.Kind
import GrammarTable.Rule.Operator
import GrammarTable.Rule.RuleSet
import GrammarTable.Run.Basic
import GrammarTable.Run.Compile
import GrammarTable.Run.Event
import GrammarTable.Run.Failure
import GrammarTable.Settings.Basic
import GrammarTable.Settings.Dialect
import GrammarTable.Settings.Export
import GrammarTable.Settings.Fault
import GrammarTable.Settings.Symbol
import GrammarTable.Settings.Verbosity
import GrammarTable.Table.Layout
import GrammarTable.Table.Listing
import GrammarTable.Table.Module
import GrammarTable.Table.Provenance
import GrammarTable.Table.Quoted
import GrammarTable.Text.Alphanumeric
import GrammarTable.Text.Blank
import GrammarTable.Text.Escape
import GrammarTable.Text.Line
import GrammarTable.Text.Position
import GrammarTable.Text.Span
import GrammarTable.Text.Unprintable
import GrammarTable.Text.Word
import GrammarTable.Token.Lexeme
import GrammarTable.Token.Lexicon
import GrammarTable.Token.Reader
import GrammarTable.Token.Shape
import GrammarTable.Tree.Basic
import GrammarTable.Tree.Map
import GrammarTable.Tree.Measure
import GrammarTable.Tree.Outline
import GrammarTable.W3c.Lexicon
import GrammarTable.W3c.Phrase
import GrammarTable.W3c.Reader

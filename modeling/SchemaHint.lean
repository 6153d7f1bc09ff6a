import SchemaHint.Candidate.Basic
import SchemaHint.Candidate.Fragment
import SchemaHint.Candidate.Generate
import SchemaHint.Chain.Basic
import SchemaHint.Chain.Kind
import SchemaHint.Chain.State
import SchemaHint.Command.Arguments
import SchemaHint.Command.Files
import SchemaHint.Command.Layout
import SchemaHint.Command.Options
import SchemaHint.Command.Run
import SchemaHint.Command.SchemaFiles
import SchemaHint.Completion.Hint
import SchemaHint.Completion.Result
import SchemaHint.Completion.Token
import SchemaHint.Context.Basic
import SchemaHint.Context.MetaField
import SchemaHint.Decimal.Binary64
import SchemaHint.Decimal.Reader
import SchemaHint.Decimal.Shortest
import SchemaHint.Fuzzy.Distance
import SchemaHint.Fuzzy.Normalize
import SchemaHint.Fuzzy.Rank
import SchemaHint.Json.Basic
import SchemaHint.Json.Chain
import SchemaHint.Json.Completion
import SchemaHint.Json.Type
import SchemaHint.Keyed
import SchemaHint.Location
import SchemaHint.Main
import SchemaHint.Proofs.Candidate.Fragments
import SchemaHint.Proofs.Candidate.Names
import SchemaHint.Proofs.Candidate.TypeText
import SchemaHint.Proofs.Chain.Grammar
import SchemaHint.Proofs.Chain.RoundTrip
import SchemaHint.Proofs.Chain.StateText
import SchemaHint.Proofs.Context.Neutral
import SchemaHint.Proofs.Context.SelectionPath
import SchemaHint.Proofs.Context.Steps
import SchemaHint.Proofs.Context.Typing
import SchemaHint.Proofs.Context.ValuePath
import SchemaHint.Proofs.Fuzzy.Alignment
import SchemaHint.Proofs.Fuzzy.Metric
import SchemaHint.Proofs.Fuzzy.Proximity
import SchemaHint.Proofs.Fuzzy.Ranking
import SchemaHint.Proofs.Fuzzy.Table
import SchemaHint.Proofs.Fuzzy.Threshold
import SchemaHint.Proofs.Json.Reordering
import SchemaHint.Proofs.Json.Representation
import SchemaHint.Proofs.Json.RoundTrip
import SchemaHint.Proofs.Keyed
import SchemaHint.Proofs.Schema.Acceptance
import SchemaHint.Proofs.Schema.Arguments
import SchemaHint.Proofs.Schema.ClosedForm
import SchemaHint.Proofs.Schema.Contribution
import SchemaHint.Proofs.Schema.Loading
import SchemaHint.Proofs.Schema.Merging
import SchemaHint.Proofs.Schema.PossibleTypes
import SchemaHint.Proofs.Schema.ReferencePlaces
import SchemaHint.Proofs.Schema.ReferenceReport
import SchemaHint.Proofs.Schema.References
import SchemaHint.Proofs.Schema.Reordering
import SchemaHint.Proofs.Schema.Validity
import SchemaHint.Proofs.Schema.WellFormed
import SchemaHint.Proofs.Sdl.Defaults
import SchemaHint.Proofs.Sdl.Lexing
import SchemaHint.Proofs.Sdl.ReadValues
import SchemaHint.Proofs.Sdl.TypeText
import SchemaHint.Proofs.Sdl.ValueText
import SchemaHint.Proofs.Text
import SchemaHint.Schema.Basic
import SchemaHint.Schema.Diagnostic
import SchemaHint.Schema.Draft
import SchemaHint.Schema.Error
import SchemaHint.Schema.Reference
import SchemaHint.Sdl.Document
import SchemaHint.Sdl.Lexer
import SchemaHint.Sdl.Number
import SchemaHint.Sdl.Parser
import SchemaHint.Sdl.StringText
import SchemaHint.Sdl.Token
import SchemaHint.Sdl.TypeExpr
import SchemaHint.Sdl.Value
import SchemaHint.Text.Blank
import SchemaHint.Text.CodeRange
import SchemaHint.Text.Extending
import SchemaHint.Text.Numeral
import SchemaHint.Text.Quoted
import SchemaHint.Text.Split
import SchemaHint.Text.Unassigned
import SchemaHint.Text.Visible
import SchemaHint.Type.Annotated
import SchemaHint.Type.Directive
import SchemaHint.Type.Kind
import SchemaHint.Type.Member
import SchemaHint.Type.Named

import GraphqlBuild.Adapter
import GraphqlBuild.Check
import GraphqlBuild.CommandLine.Outcome
import GraphqlBuild.CommandLine.Report
import GraphqlBuild.CommandLine.Request
import GraphqlBuild.CommandLine.Run
import GraphqlBuild.Config.Error
import GraphqlBuild.Config.File
import GraphqlBuild.Config.JsonForm
import GraphqlBuild.Config.Options
import GraphqlBuild.Config.Preset
import GraphqlBuild.Config.PresetForm
import GraphqlBuild.Config.TagConfig
import GraphqlBuild.Config.YamlForm
import GraphqlBuild.Decimal.Binary64
import GraphqlBuild.Decimal.Shortest
import GraphqlBuild.Document.Description
import GraphqlBuild.Document.Node
import GraphqlBuild.Document.Parsed
import GraphqlBuild.Document.Pending
import GraphqlBuild.Document.QueryType
import GraphqlBuild.EsModule
import GraphqlBuild.FileTree.Basic
import GraphqlBuild.FileTree.Failure
import GraphqlBuild.FileTree.Glob
import GraphqlBuild.FileTree.Walk
import GraphqlBuild.Graphql.Ast
import GraphqlBuild.Graphql.Complaint
import GraphqlBuild.Graphql.Parser.Basic
import GraphqlBuild.Graphql.Parser.Document
import GraphqlBuild.Graphql.Parser.Executable
import GraphqlBuild.Graphql.Parser.TypeSystem
import GraphqlBuild.Graphql.Parser.Value
import GraphqlBuild.Graphql.Printer
import GraphqlBuild.Graphql.StringValue
import GraphqlBuild.Graphql.Token
import GraphqlBuild.Graphql.Validate
import GraphqlBuild.Graphql.Word
import GraphqlBuild.Json.Fault
import GraphqlBuild.Json.Quoted
import GraphqlBuild.Json.Reader
import GraphqlBuild.Json.Value
import GraphqlBuild.Literal
import GraphqlBuild.Main
import GraphqlBuild.Normalize
import GraphqlBuild.Path
import GraphqlBuild.Pipeline
import GraphqlBuild.Proofs.Text.Cut
import GraphqlBuild.Proofs.Text.Lines
import GraphqlBuild.Route
import GraphqlBuild.Text.Basic
import GraphqlBuild.Text.Blank
import GraphqlBuild.Text.CaseData
import GraphqlBuild.Text.CaseMap
import GraphqlBuild.Text.Edit
import GraphqlBuild.Text.EditDistance
import GraphqlBuild.Text.Hidden
import GraphqlBuild.Text.Lines
import GraphqlBuild.Text.Shown
import GraphqlBuild.Yaml.Node
import GraphqlBuild.Yaml.Reading
import GraphqlBuild.Yaml.Scalar
import GraphqlBuild.Yaml.Tag
import GraphqlBuild.Yaml.Token
import GraphqlBuild.Proofs.Literal.Walk
import GraphqlBuild.Proofs.Literal.Extraction
import GraphqlBuild.Proofs.Literal.NewBodies
import GraphqlBuild.Proofs.Normalize
import GraphqlBuild.Proofs.Pipeline.Literals
import GraphqlBuild.Proofs.Literal.Numbering
import GraphqlBuild.Proofs.Pipeline.Boundaries
import GraphqlBuild.Proofs.Pipeline.ErrorPlace
import GraphqlBuild.Proofs.Pipeline.Idempotence
import GraphqlBuild.Proofs.Pipeline.Meaning
import GraphqlBuild.Proofs.Pipeline.Stripping
import GraphqlBuild.Proofs.Pipeline.FileModule
import GraphqlBuild.Proofs.Pipeline.LineEndings
import GraphqlBuild.Proofs.Renormalization
import GraphqlBuild.Proofs.Adapter
import GraphqlBuild.Proofs.Graphql.Parser.Accumulates
import GraphqlBuild.Proofs.Graphql.Spelling
import GraphqlBuild.Proofs.Document.QueryType
import GraphqlBuild.Proofs.Graphql.Parser.FirstDefinition
import GraphqlBuild.Proofs.Pipeline.QueryType
import GraphqlBuild.Proofs.Path
import GraphqlBuild.Proofs.Check.Verdict
import GraphqlBuild.Proofs.Config.Options
import GraphqlBuild.Proofs.Config.JsonForm
import GraphqlBuild.Proofs.FileTree.Walk
import GraphqlBuild.Proofs.Check.Files
import GraphqlBuild.Proofs.Edit.Merge
import GraphqlBuild.Proofs.Edit.AnyOrder
import GraphqlBuild.Proofs.Edit.Unfit
import GraphqlBuild.Proofs.Pipeline.CarriageReturn
import GraphqlBuild.Proofs.Segments
import GraphqlBuild.Proofs.Text.Offset
import GraphqlBuild.Proofs.Graphql.ErrorOrder
import GraphqlBuild.Proofs.Text.Position
import GraphqlBuild.Proofs.Pipeline.WholeIdentifier
import GraphqlBuild.Proofs.Route
import GraphqlBuild.Proofs.Path.Ancestors
import GraphqlBuild.Proofs.Path.Moves
import GraphqlBuild.Proofs.FileTree.Place
import GraphqlBuild.Proofs.FileTree.Full
import GraphqlBuild.Proofs.FileTree.Glob
import GraphqlBuild.Proofs.FileTree.Pattern
import GraphqlBuild.Proofs.FileTree.Accepted
import GraphqlBuild.Proofs.Config.Search
import GraphqlBuild.Proofs.Check.Patterns
import GraphqlBuild.Proofs.Check.Spellings
import GraphqlBuild.Proofs.Text.EditDistance
import GraphqlBuild.Proofs.Config.Preset
import GraphqlBuild.Proofs.Document.Template

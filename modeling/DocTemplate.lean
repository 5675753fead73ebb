import DocTemplate.Command
import DocTemplate.Command.Arguments
import DocTemplate.Command.Run
import DocTemplate.Config
import DocTemplate.Config.Address
import DocTemplate.Config.Environment
import DocTemplate.Config.OfYaml
import DocTemplate.Config.Tree
import DocTemplate.Construct
import DocTemplate.Document
import DocTemplate.Engine
import DocTemplate.Entries
import DocTemplate.Expression
import DocTemplate.Fence
import DocTemplate.FilePath
import DocTemplate.FileTree
import DocTemplate.Filter
import DocTemplate.Json.Basic
import DocTemplate.Json.Numeral
import DocTemplate.Json.Read
import DocTemplate.Json.Token
import DocTemplate.Layout
import DocTemplate.Location
import DocTemplate.Main
import DocTemplate.Node
import DocTemplate.Node.Build
import DocTemplate.Node.Render
import DocTemplate.Number
import DocTemplate.Number.Binary64
import DocTemplate.Number.Decimal
import DocTemplate.Number.Shortest
import DocTemplate.Path
import DocTemplate.Pipeline
import DocTemplate.Problem
import DocTemplate.Proofs.Command.Check
import DocTemplate.Proofs.Engine.Append
import DocTemplate.Proofs.Engine.Block
import DocTemplate.Proofs.Engine.Crlf
import DocTemplate.Proofs.Engine.Dashes
import DocTemplate.Proofs.Engine.Fault
import DocTemplate.Proofs.Engine.Located
import DocTemplate.Proofs.Engine.Untagged
import DocTemplate.Proofs.Entries
import DocTemplate.Proofs.Expression
import DocTemplate.Proofs.Expression.Pipe
import DocTemplate.Proofs.Fence.Flags
import DocTemplate.Proofs.Fence.Lines
import DocTemplate.Proofs.Fence.Untouched
import DocTemplate.Proofs.Filter
import DocTemplate.Proofs.Layout
import DocTemplate.Proofs.Layout.BlankEnd
import DocTemplate.Proofs.Layout.Gap
import DocTemplate.Proofs.Layout.Inline
import DocTemplate.Proofs.Location
import DocTemplate.Proofs.Location.Offset
import DocTemplate.Proofs.Node.Block
import DocTemplate.Proofs.Node.Build
import DocTemplate.Proofs.Node.Dependence
import DocTemplate.Proofs.Node.Down
import DocTemplate.Proofs.Node.Failure
import DocTemplate.Proofs.Node.FirstError
import DocTemplate.Proofs.Node.Grammar
import DocTemplate.Proofs.Node.Interpolation
import DocTemplate.Proofs.Node.Joining
import DocTemplate.Proofs.Node.Matching
import DocTemplate.Proofs.Node.Names
import DocTemplate.Proofs.Node.Normal
import DocTemplate.Proofs.Node.Onto
import DocTemplate.Proofs.Node.Rename
import DocTemplate.Proofs.Node.Scope
import DocTemplate.Proofs.Node.Symbols
import DocTemplate.Proofs.Node.Texts
import DocTemplate.Proofs.OutputPath
import DocTemplate.Proofs.OutputPath.Below
import DocTemplate.Proofs.Path
import DocTemplate.Proofs.Path.Dotted
import DocTemplate.Proofs.Pipeline.Files
import DocTemplate.Proofs.Pipeline.History
import DocTemplate.Proofs.Pipeline.Places
import DocTemplate.Proofs.Pipeline.Standard
import DocTemplate.Proofs.Text.Blank
import DocTemplate.Proofs.Text.BlankLines
import DocTemplate.Proofs.Text.Bytes
import DocTemplate.Proofs.Text.Case
import DocTemplate.Proofs.Text.Crlf
import DocTemplate.Proofs.Text.Line
import DocTemplate.Proofs.Text.LineStarts
import DocTemplate.Proofs.Text.Split
import DocTemplate.Proofs.Text.Title
import DocTemplate.Proofs.Token.Append
import DocTemplate.Proofs.Token.Cover
import DocTemplate.Proofs.Token.Crlf
import DocTemplate.Proofs.Token.Cut
import DocTemplate.Proofs.Token.Dropped
import DocTemplate.Proofs.Token.Escapes
import DocTemplate.Proofs.Token.Examined
import DocTemplate.Proofs.Token.Items
import DocTemplate.Proofs.Token.Occurrence
import DocTemplate.Proofs.Token.Openers
import DocTemplate.Proofs.Token.Runs
import DocTemplate.Proofs.Token.Scan
import DocTemplate.Proofs.Token.Sites
import DocTemplate.Proofs.Token.Statement
import DocTemplate.Proofs.Token.Switches
import DocTemplate.Proofs.Token.Weave
import DocTemplate.Proofs.Value
import DocTemplate.Proofs.Value.Formats
import DocTemplate.Proofs.Value.OfYaml
import DocTemplate.Proofs.VariableFile
import DocTemplate.Proofs.Variables
import DocTemplate.Settings
import DocTemplate.Settings.OfJson
import DocTemplate.Storage
import DocTemplate.Tag
import DocTemplate.Text.Basic
import DocTemplate.Text.Blank
import DocTemplate.Text.Case
import DocTemplate.Text.CaseTables
import DocTemplate.Token
import DocTemplate.Value
import DocTemplate.Value.OfJson
import DocTemplate.Value.OfYaml
import DocTemplate.VariableFile
import DocTemplate.Variables
import DocTemplate.Yaml.Anchor
import DocTemplate.Yaml.Basic
import DocTemplate.Yaml.Block
import DocTemplate.Yaml.Cursor
import DocTemplate.Yaml.Folding
import DocTemplate.Yaml.Layout
import DocTemplate.Yaml.Node
import DocTemplate.Yaml.Node.OfTokens
import DocTemplate.Yaml.Plain
import DocTemplate.Yaml.Property
import DocTemplate.Yaml.Quoted
import DocTemplate.Yaml.Read
import DocTemplate.Yaml.Schema
import DocTemplate.Yaml.Token

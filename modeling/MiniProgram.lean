import MiniProgram.Build
import MiniProgram.Bundle
import MiniProgram.Bundle.Index
import MiniProgram.Casing
import MiniProgram.Catalog
import MiniProgram.CommandLine
import MiniProgram.CommandLine.Flags
import MiniProgram.Console
import MiniProgram.Console.Format
import MiniProgram.Diagnostic
import MiniProgram.Doctor
import MiniProgram.Duration
import MiniProgram.Failure
import MiniProgram.FileSystem
import MiniProgram.FileSystem.Disk
import MiniProgram.FileSystem.Error
import MiniProgram.FileSystem.Memory
import MiniProgram.Fingerprint
import MiniProgram.Glob
import MiniProgram.HostPolicy
import MiniProgram.HostTemplate
import MiniProgram.Json.Basic
import MiniProgram.Json.Lenient
import MiniProgram.Json.Reader
import MiniProgram.Main
import MiniProgram.Manifest
import MiniProgram.Module
import MiniProgram.Number.Binary64
import MiniProgram.Number.Decimal
import MiniProgram.Output
import MiniProgram.Path
import MiniProgram.PathFilter
import MiniProgram.Pipeline
import MiniProgram.Pipeline.Order
import MiniProgram.Platform
import MiniProgram.Platform.Component
import MiniProgram.Platform.Toutiao
import MiniProgram.Project
import MiniProgram.Project.File
import MiniProgram.Proofs.Build.Effect
import MiniProgram.Proofs.Build.Entries
import MiniProgram.Proofs.Build.Frame
import MiniProgram.Proofs.Build.Verdict
import MiniProgram.Proofs.Bundle
import MiniProgram.Proofs.Bundle.History
import MiniProgram.Proofs.Casing
import MiniProgram.Proofs.Casing.Kebab
import MiniProgram.Proofs.Catalog
import MiniProgram.Proofs.Catalog.Pages
import MiniProgram.Proofs.Catalog.Pattern
import MiniProgram.Proofs.Doctor
import MiniProgram.Proofs.Failure
import MiniProgram.Proofs.FileSystem.Files
import MiniProgram.Proofs.FileSystem.Memory
import MiniProgram.Proofs.FileSystem.Removal
import MiniProgram.Proofs.FileSystem.Walk
import MiniProgram.Proofs.Fingerprint
import MiniProgram.Proofs.Graph.Closure
import MiniProgram.Proofs.Graph.Entries
import MiniProgram.Proofs.Graph.Run
import MiniProgram.Proofs.Graph.Termination
import MiniProgram.Proofs.HostPolicy
import MiniProgram.Proofs.HostPolicy.Passthrough
import MiniProgram.Proofs.Indexed.Markup
import MiniProgram.Proofs.Indexed.Reading
import MiniProgram.Proofs.Indexed.Script
import MiniProgram.Proofs.Indexed.Stylesheet
import MiniProgram.Proofs.Json.Strings
import MiniProgram.Proofs.Keyed
import MiniProgram.Proofs.Manifest
import MiniProgram.Proofs.Number.Decimal
import MiniProgram.Proofs.Output
import MiniProgram.Proofs.Path.Between
import MiniProgram.Proofs.Path.Clean
import MiniProgram.Proofs.Path.Climbing
import MiniProgram.Proofs.Path.Normal
import MiniProgram.Proofs.Path.Plain
import MiniProgram.Proofs.Path.Relative
import MiniProgram.Proofs.Path.Segments
import MiniProgram.Proofs.Path.Specifier
import MiniProgram.Proofs.Pipeline
import MiniProgram.Proofs.Pipeline.Assembly
import MiniProgram.Proofs.Pipeline.Order
import MiniProgram.Proofs.Pipeline.Outputs
import MiniProgram.Proofs.Pipeline.Schedule
import MiniProgram.Proofs.Pipeline.Trace
import MiniProgram.Proofs.Platform.Component
import MiniProgram.Proofs.Platform.Table
import MiniProgram.Proofs.Project.NamedExports
import MiniProgram.Proofs.Project.OutputDirectory
import MiniProgram.Proofs.Registry
import MiniProgram.Proofs.RenameRules
import MiniProgram.Proofs.RenameRules.FinalForm
import MiniProgram.Proofs.RenameRules.Precedence
import MiniProgram.Proofs.RenameRules.Repetition
import MiniProgram.Proofs.Report.Problems
import MiniProgram.Proofs.Report.Verdict
import MiniProgram.Proofs.Resolver
import MiniProgram.Proofs.Resolver.Packages
import MiniProgram.Proofs.Script.Attributes
import MiniProgram.Proofs.Script.CommentText
import MiniProgram.Proofs.Script.DefaultExport
import MiniProgram.Proofs.Script.DefaultExport.Comments
import MiniProgram.Proofs.Script.DefaultExport.Imports
import MiniProgram.Proofs.Script.Hoisting
import MiniProgram.Proofs.Script.ImportLine
import MiniProgram.Proofs.Script.Inert
import MiniProgram.Proofs.Script.Interop
import MiniProgram.Proofs.Script.Lexer
import MiniProgram.Proofs.Script.Marked
import MiniProgram.Proofs.Script.Markup
import MiniProgram.Proofs.Script.Masking
import MiniProgram.Proofs.Script.Reference
import MiniProgram.Proofs.Script.Replacement
import MiniProgram.Proofs.Script.Retargeting
import MiniProgram.Proofs.Script.Retargeting.Pass
import MiniProgram.Proofs.Script.Retargeting.Run
import MiniProgram.Proofs.Script.Retargeting.Statement
import MiniProgram.Proofs.Script.Scan
import MiniProgram.Proofs.Script.Tidy
import MiniProgram.Proofs.Script.TopLevelThis
import MiniProgram.Proofs.Script.Wrapper
import MiniProgram.Proofs.Stage.DroppedImports
import MiniProgram.Proofs.Stage.Emission
import MiniProgram.Proofs.Stage.HostTemplates
import MiniProgram.Proofs.Stage.Layout
import MiniProgram.Proofs.Stylesheet.Classes
import MiniProgram.Proofs.Stylesheet.Comments
import MiniProgram.Proofs.Stylesheet.Scoping
import MiniProgram.Proofs.Stylesheet.Strings
import MiniProgram.Proofs.Stylesheet.Units
import MiniProgram.Proofs.Text.Numeral
import MiniProgram.Proofs.Text.Order
import MiniProgram.Proofs.Text.Parts
import MiniProgram.Proofs.Text.Pieces
import MiniProgram.Proofs.Text.Quoted
import MiniProgram.Proofs.Text.Search
import MiniProgram.Proofs.Watch
import MiniProgram.Registry
import MiniProgram.RenameRules
import MiniProgram.Report
import MiniProgram.Resolver
import MiniProgram.Scaffold
import MiniProgram.Scaffold.Files
import MiniProgram.Script.DefaultExport
import MiniProgram.Script.Interop
import MiniProgram.Script.Lexer
import MiniProgram.Script.Markup
import MiniProgram.Script.Reference
import MiniProgram.SourceMap
import MiniProgram.Stage
import MiniProgram.Stage.Clean
import MiniProgram.Stage.Content
import MiniProgram.Stage.Emit
import MiniProgram.Stage.Graph
import MiniProgram.Stage.Layout
import MiniProgram.Stylesheet.Classes
import MiniProgram.Stylesheet.Units
import MiniProgram.Template
import MiniProgram.Template.Expr
import MiniProgram.Template.Token
import MiniProgram.Text.Base64
import MiniProgram.Text.Basic
import MiniProgram.Text.Blank
import MiniProgram.Text.Case
import MiniProgram.Text.Quoted
import MiniProgram.Text.Search
import MiniProgram.Text.Utf8
import MiniProgram.Transpiler
import MiniProgram.Watch
import MiniProgram.Yaml.Cursor
import MiniProgram.Yaml.Decode
import MiniProgram.Yaml.Lexer
import MiniProgram.Yaml.Node
import MiniProgram.Yaml.Property
import MiniProgram.Yaml.Scalar
import MiniProgram.Yaml.Token
import MiniProgram.Yaml.Value

import BridgeBindings.Analysis.Document
import BridgeBindings.Analysis.Result
import BridgeBindings.Analysis.Run
import BridgeBindings.Analysis.Summary
import BridgeBindings.Breakdown
import BridgeBindings.Bridge.Calls
import BridgeBindings.Bridge.ObjectClass
import BridgeBindings.Bridge.Surface
import BridgeBindings.CommandLine.Arguments
import BridgeBindings.CommandLine.Run
import BridgeBindings.Comment.Block
import BridgeBindings.Comment.Scan
import BridgeBindings.Config.Basic
import BridgeBindings.Config.Read
import BridgeBindings.Declaration
import BridgeBindings.Emit
import BridgeBindings.Fault
import BridgeBindings.FileTree
import BridgeBindings.Hierarchy
import BridgeBindings.Import
import BridgeBindings.Json
import BridgeBindings.Log
import BridgeBindings.Main
import BridgeBindings.ModuleName
import BridgeBindings.Package.Basic
import BridgeBindings.Package.Builder
import BridgeBindings.Package.Draft
import BridgeBindings.Path
import BridgeBindings.Program
import BridgeBindings.Proofs.Aliases
import BridgeBindings.Proofs.Blocks
import BridgeBindings.Proofs.BoundNames
import BridgeBindings.Proofs.BridgeNames
import BridgeBindings.Proofs.Chains
import BridgeBindings.Proofs.Charges
import BridgeBindings.Proofs.Coherence
import BridgeBindings.Proofs.Collected
import BridgeBindings.Proofs.Completion
import BridgeBindings.Proofs.Confinement
import BridgeBindings.Proofs.Contract
import BridgeBindings.Proofs.Crowding
import BridgeBindings.Proofs.Declared
import BridgeBindings.Proofs.Enums
import BridgeBindings.Proofs.Exports
import BridgeBindings.Proofs.Exposure
import BridgeBindings.Proofs.Failing
import BridgeBindings.Proofs.Fidelity
import BridgeBindings.Proofs.Frozen
import BridgeBindings.Proofs.Growth
import BridgeBindings.Proofs.Guided
import BridgeBindings.Proofs.Histories
import BridgeBindings.Proofs.ImportDepths
import BridgeBindings.Proofs.ImportSpellings
import BridgeBindings.Proofs.Imports
import BridgeBindings.Proofs.Inert
import BridgeBindings.Proofs.Inheritance
import BridgeBindings.Proofs.Leaks
import BridgeBindings.Proofs.Levels
import BridgeBindings.Proofs.Lexing
import BridgeBindings.Proofs.Lineage
import BridgeBindings.Proofs.Linearization
import BridgeBindings.Proofs.Listing
import BridgeBindings.Proofs.Literals
import BridgeBindings.Proofs.Loaded
import BridgeBindings.Proofs.Located
import BridgeBindings.Proofs.Lookups
import BridgeBindings.Proofs.Malformed
import BridgeBindings.Proofs.Mentions
import BridgeBindings.Proofs.Moving
import BridgeBindings.Proofs.Naming
import BridgeBindings.Proofs.Objects
import BridgeBindings.Proofs.Orders
import BridgeBindings.Proofs.Origins
import BridgeBindings.Proofs.Overriding
import BridgeBindings.Proofs.Pace
import BridgeBindings.Proofs.Parameters
import BridgeBindings.Proofs.Parts
import BridgeBindings.Proofs.Places
import BridgeBindings.Proofs.Plans
import BridgeBindings.Proofs.Precedence
import BridgeBindings.Proofs.Progress
import BridgeBindings.Proofs.Provenance
import BridgeBindings.Proofs.Publishing
import BridgeBindings.Proofs.Quoting
import BridgeBindings.Proofs.Reachability
import BridgeBindings.Proofs.Records
import BridgeBindings.Proofs.Reexports
import BridgeBindings.Proofs.Refusals
import BridgeBindings.Proofs.RelativeImports
import BridgeBindings.Proofs.Requests
import BridgeBindings.Proofs.Reruns
import BridgeBindings.Proofs.Rows
import BridgeBindings.Proofs.Samples
import BridgeBindings.Proofs.Scanning
import BridgeBindings.Proofs.Script
import BridgeBindings.Proofs.Selection
import BridgeBindings.Proofs.Settings
import BridgeBindings.Proofs.Shallow
import BridgeBindings.Proofs.Spelling
import BridgeBindings.Proofs.Stages
import BridgeBindings.Proofs.Statements
import BridgeBindings.Proofs.Steps
import BridgeBindings.Proofs.Survey
import BridgeBindings.Proofs.Tables
import BridgeBindings.Proofs.Termination
import BridgeBindings.Proofs.Traversal
import BridgeBindings.Proofs.Trees
import BridgeBindings.Proofs.Turns
import BridgeBindings.Proofs.TypeTexts
import BridgeBindings.Proofs.Typing
import BridgeBindings.Proofs.Unions
import BridgeBindings.Proofs.Upkeep
import BridgeBindings.Proofs.Versions
import BridgeBindings.Proofs.Walks
import BridgeBindings.Proofs.Watching
import BridgeBindings.Proofs.Worklist
import BridgeBindings.Proofs.Writing
import BridgeBindings.Render.Bindings
import BridgeBindings.Render.Shown
import BridgeBindings.Render.Template
import BridgeBindings.Render.TypeScript
import BridgeBindings.Resolve.Annotation
import BridgeBindings.Resolve.Class
import BridgeBindings.Resolve.Reading
import BridgeBindings.Resolve.Store
import BridgeBindings.Scope
import BridgeBindings.Service
import BridgeBindings.Source
import BridgeBindings.Syntax.Grammar.Expression
import BridgeBindings.Syntax.Grammar.Pattern
import BridgeBindings.Syntax.Grammar.Run
import BridgeBindings.Syntax.Grammar.Statement
import BridgeBindings.Syntax.Grammar.Target
import BridgeBindings.Syntax.Lexer
import BridgeBindings.Syntax.Literal
import BridgeBindings.Syntax.Name
import BridgeBindings.Syntax.Node
import BridgeBindings.Syntax.Numeral
import BridgeBindings.Syntax.Parser
import BridgeBindings.Syntax.Print
import BridgeBindings.Syntax.Read
import BridgeBindings.Syntax.Size
import BridgeBindings.Syntax.Token
import BridgeBindings.Syntax.Tree
import BridgeBindings.Syntax.Walk
import BridgeBindings.Table
import BridgeBindings.Text.Blank
import BridgeBindings.Text.CodePoint
import BridgeBindings.Text.Decimal
import BridgeBindings.Text.Identifier
import BridgeBindings.Text.NormalForm
import BridgeBindings.Text.NormalFormTable
import BridgeBindings.Text.Quoted
import BridgeBindings.Text.Ranges
import BridgeBindings.Text.Utf8
import BridgeBindings.Toml.Document
import BridgeBindings.Toml.Read
import BridgeBindings.TypeRef
import BridgeBindings.Usage.Classify
import BridgeBindings.Usage.Graph

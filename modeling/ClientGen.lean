import ClientGen.Code
import ClientGen.Code.Layout
import ClientGen.Code.Render
import ClientGen.Code.Words
import ClientGen.CommandLine
import ClientGen.CommandLine.Outcome
import ClientGen.Config
import ClientGen.Config.Builtin
import ClientGen.Data.Dict
import ClientGen.Data.Json
import ClientGen.Data.JsonText
import ClientGen.Data.Shape
import ClientGen.Data.Toml
import ClientGen.Data.Toml.Statement
import ClientGen.Data.Tree
import ClientGen.Data.Yaml
import ClientGen.Data.Yaml.Cursor
import ClientGen.Data.Yaml.Scalar
import ClientGen.Data.Yaml.Token
import ClientGen.Delivery
import ClientGen.Delivery.Diff
import ClientGen.Delivery.Path
import ClientGen.Delivery.Storage
import ClientGen.Digest
import ClientGen.Document
import ClientGen.Document.Schema
import ClientGen.Generator
import ClientGen.Ident
import ClientGen.Main
import ClientGen.Model
import ClientGen.Model.Classify
import ClientGen.Model.Containment
import ClientGen.Model.TypeRef
import ClientGen.Number.Binary64
import ClientGen.Number.Shortest
import ClientGen.Operation
import ClientGen.Operation.Extract
import ClientGen.Operation.Method
import ClientGen.Operation.Template
import ClientGen.Ownership
import ClientGen.Proofs.Aliases
import ClientGen.Proofs.Builtins
import ClientGen.Proofs.CallAgreement
import ClientGen.Proofs.Calls.Files
import ClientGen.Proofs.Calls.Names
import ClientGen.Proofs.Calls.Paths
import ClientGen.Proofs.Calls.QueryRuns
import ClientGen.Proofs.Calls.QueryStrings
import ClientGen.Proofs.Calls.RequestPath
import ClientGen.Proofs.Calls.Scopes
import ClientGen.Proofs.Classify.Members
import ClientGen.Proofs.Classify.Models
import ClientGen.Proofs.Classify.Nesting
import ClientGen.Proofs.Classify.Nodes
import ClientGen.Proofs.Classify.Pointers
import ClientGen.Proofs.Classify.Properties
import ClientGen.Proofs.Classify.Schemas
import ClientGen.Proofs.Classify.Skips
import ClientGen.Proofs.Classify.Unions
import ClientGen.Proofs.Code.Aliases
import ClientGen.Proofs.Code.Builtins
import ClientGen.Proofs.Code.Docs
import ClientGen.Proofs.Code.Evaluation
import ClientGen.Proofs.Code.Mentions
import ClientGen.Proofs.Code.Names
import ClientGen.Proofs.Code.Reading
import ClientGen.Proofs.Code.Scopes
import ClientGen.Proofs.Config.DigestInput
import ClientGen.Proofs.Config.Fingerprint
import ClientGen.Proofs.Containment.Closure
import ClientGen.Proofs.Containment.Search
import ClientGen.Proofs.Data.Dict
import ClientGen.Proofs.Data.MemberOrder
import ClientGen.Proofs.Data.Readers
import ClientGen.Proofs.DataTypes.Aliases
import ClientGen.Proofs.DataTypes.Builtins
import ClientGen.Proofs.DataTypes.Conversions
import ClientGen.Proofs.DataTypes.Declarations
import ClientGen.Proofs.DataTypes.FiniteSize
import ClientGen.Proofs.DataTypes.Names
import ClientGen.Proofs.DataTypes.Paths
import ClientGen.Proofs.DataTypes.Records
import ClientGen.Proofs.DataTypes.References
import ClientGen.Proofs.DataTypes.Scopes
import ClientGen.Proofs.Delivery.FileSystem
import ClientGen.Proofs.Delivery.Runs
import ClientGen.Proofs.Delivery.Service
import ClientGen.Proofs.Delivery.Settled
import ClientGen.Proofs.Delivery.Siblings
import ClientGen.Proofs.Delivery.Writing
import ClientGen.Proofs.Docs
import ClientGen.Proofs.Document.MemberOrder
import ClientGen.Proofs.Extract.Functions
import ClientGen.Proofs.Extract.Isolation
import ClientGen.Proofs.Extract.Owners
import ClientGen.Proofs.Extract.Parameters
import ClientGen.Proofs.Extract.Partition
import ClientGen.Proofs.Extract.PathParams
import ClientGen.Proofs.Extract.Selections
import ClientGen.Proofs.Extract.Walk
import ClientGen.Proofs.FilePaths
import ClientGen.Proofs.FunctionNames
import ClientGen.Proofs.Ident.Capitals
import ClientGen.Proofs.Ident.Escape
import ClientGen.Proofs.Ident.FixedNames
import ClientGen.Proofs.Ident.Legal
import ClientGen.Proofs.Ident.Letters
import ClientGen.Proofs.Ident.Reserve
import ClientGen.Proofs.Ident.Snake
import ClientGen.Proofs.Ident.TypeNames
import ClientGen.Proofs.Logged
import ClientGen.Proofs.MemberOrder
import ClientGen.Proofs.Names
import ClientGen.Proofs.Navigation.Arguments
import ClientGen.Proofs.Navigation.Captured
import ClientGen.Proofs.Navigation.Coverage
import ClientGen.Proofs.Navigation.Handover
import ClientGen.Proofs.Navigation.Items
import ClientGen.Proofs.Navigation.Methods
import ClientGen.Proofs.Navigation.Names
import ClientGen.Proofs.Navigation.Plans
import ClientGen.Proofs.Navigation.Scopes
import ClientGen.Proofs.Navigation.Supplied
import ClientGen.Proofs.Navigation.Wiring
import ClientGen.Proofs.Number.Numerals
import ClientGen.Proofs.Numbering
import ClientGen.Proofs.Ownership
import ClientGen.Proofs.Passes
import ClientGen.Proofs.QueryOptions
import ClientGen.Proofs.References
import ClientGen.Proofs.RouteTree.Build
import ClientGen.Proofs.RouteTree.Growth
import ClientGen.Proofs.RouteTree.Lineage
import ClientGen.Proofs.RouteTree.Shape
import ClientGen.Proofs.RouteTree.Traversal
import ClientGen.Proofs.RouteTree.Walk
import ClientGen.Proofs.Scopes
import ClientGen.Proofs.Signature
import ClientGen.Proofs.Template.Cuts
import ClientGen.Proofs.Template.Format
import ClientGen.Proofs.Template.Searches
import ClientGen.Proofs.Template.Segments
import ClientGen.Proofs.Text.DocLines
import ClientGen.Proofs.Text.Literals
import ClientGen.Proofs.Text.Utf8
import ClientGen.RouteTree
import ClientGen.Run
import ClientGen.Sdk.Calls
import ClientGen.Sdk.DataTypes
import ClientGen.Sdk.Navigation
import ClientGen.Sdk.Pass
import ClientGen.Sdk.QueryOptions
import ClientGen.Sdk.Signature
import ClientGen.Sdk.TypeUse
import ClientGen.Text.CaseMap
import ClientGen.Text.Category
import ClientGen.Text.Cut
import ClientGen.Text.DocLines
import ClientGen.Text.EditScript
import ClientGen.Text.Printable
import ClientGen.Text.Quoted
import ClientGen.Text.Words
import ClientGen.Warning
import ClientGen.Proofs.Ident.Suffixes
import ClientGen.Proofs.Text.LiteralBodies

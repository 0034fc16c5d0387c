import ApiClient.Collections.Distinct
import ApiClient.Collections.Reach
import ApiClient.CommandLine
import ApiClient.CommandLine.Grammar
import ApiClient.Controllers
import ApiClient.Dialect.Angular
import ApiClient.Dialect.Context
import ApiClient.Dialect.React
import ApiClient.Discovery
import ApiClient.Disk
import ApiClient.Disk.Fault
import ApiClient.Document
import ApiClient.Error
import ApiClient.ExternalKind
import ApiClient.FilePattern
import ApiClient.Generation
import ApiClient.Json.Fault
import ApiClient.Json.Numeral
import ApiClient.Json.Outline
import ApiClient.Json.Printer
import ApiClient.Json.Reader
import ApiClient.Json.Value
import ApiClient.Loading
import ApiClient.Loading.Directory
import ApiClient.Main
import ApiClient.Manifest
import ApiClient.Mapping
import ApiClient.Marker
import ApiClient.ModelSet
import ApiClient.ModelView
import ApiClient.Number.Binary64
import ApiClient.Number.Shortest
import ApiClient.Operation
import ApiClient.Options
import ApiClient.Output.Fault
import ApiClient.Output.FilePath
import ApiClient.Output.Sync
import ApiClient.Output.Tree
import ApiClient.Path
import ApiClient.Program
import ApiClient.Proofs.ClassImports
import ApiClient.Proofs.Containment
import ApiClient.Proofs.Declaring.Calls
import ApiClient.Proofs.Declaring.Consistency
import ApiClient.Proofs.Declaring.NameIndex
import ApiClient.Proofs.Discovery
import ApiClient.Proofs.Disk.Actions
import ApiClient.Proofs.Disk.Changes
import ApiClient.Proofs.Disk.Confinement
import ApiClient.Proofs.Disk.Entries
import ApiClient.Proofs.Disk.Places
import ApiClient.Proofs.Exclusion
import ApiClient.Proofs.Exports
import ApiClient.Proofs.FailedModules
import ApiClient.Proofs.GeneratedPaths
import ApiClient.Proofs.Inheritance
import ApiClient.Proofs.InputOrder
import ApiClient.Proofs.LibraryTypes
import ApiClient.Proofs.Loading
import ApiClient.Proofs.LoadingOrder
import ApiClient.Proofs.Lookup
import ApiClient.Proofs.LostTypes
import ApiClient.Proofs.Manifest.Distances
import ApiClient.Proofs.Mapping
import ApiClient.Proofs.Queueing
import ApiClient.Proofs.Reachability
import ApiClient.Proofs.References
import ApiClient.Proofs.Registry
import ApiClient.Proofs.Renaming.Data
import ApiClient.Proofs.Renaming.Generation
import ApiClient.Proofs.Renaming.Loading
import ApiClient.Proofs.Renaming.Registry
import ApiClient.Proofs.Renaming.Scan
import ApiClient.Proofs.Renaming.Service
import ApiClient.Proofs.Renaming.Views
import ApiClient.Proofs.Rerun
import ApiClient.Proofs.Resolution
import ApiClient.Proofs.Runs
import ApiClient.Proofs.ScanClosure
import ApiClient.Proofs.Sync
import ApiClient.Proofs.TypeExpr.Grammar
import ApiClient.Proofs.TypeExpr.Names
import ApiClient.Proofs.TypeExpr.Printing
import ApiClient.Proofs.TypeExpr.Reading
import ApiClient.Proofs.Views
import ApiClient.Registry
import ApiClient.Registry.Inheritance
import ApiClient.Report.Format
import ApiClient.Report.Generation
import ApiClient.Report.Inspection
import ApiClient.Run
import ApiClient.Run.Failure
import ApiClient.Scan
import ApiClient.Service
import ApiClient.Settings
import ApiClient.Settings.File
import ApiClient.Template
import ApiClient.Template.Catalog
import ApiClient.Template.Parser
import ApiClient.Text.Alphanumeric
import ApiClient.Text.Blank
import ApiClient.Text.Folding
import ApiClient.Text.Lowercase
import ApiClient.Text.Order
import ApiClient.Text.Quoted
import ApiClient.Text.Runs
import ApiClient.Text.Split
import ApiClient.Toml.Parser
import ApiClient.Toml.Quoted
import ApiClient.Toml.Scalar
import ApiClient.Toml.Table
import ApiClient.TypeExpr
import ApiClient.TypeExpr.Parser
import ApiClient.TypeScript.Literal
import ApiClient.TypeScript.Response
import ApiClient.TypeScript.Url
import ApiClient.Proofs.Manifest.Identity
import ApiClient.Proofs.EmittedBases
import ApiClient.Proofs.ServiceMethods
import ApiClient.Proofs.FailedSync
import ApiClient.Proofs.Accounting
import ApiClient.Proofs.Rendering
import ApiClient.Proofs.Revivals
import ApiClient.Proofs.Constructions
import ApiClient.Proofs.ManifestPath
import ApiClient.Proofs.MappingSpine
import ApiClient.Proofs.GeneratedFiles
import ApiClient.Proofs.OptionSources
import ApiClient.Proofs.FirstPlaces
import ApiClient.Proofs.Ancestry
import ApiClient.Proofs.DerivedTypes
import ApiClient.Proofs.EffectiveProperties
import ApiClient.Proofs.WrappedParameters
import ApiClient.Proofs.RepeatedNames
import ApiClient.Proofs.ServiceMembers
import ApiClient.Proofs.ResponseShapes
import ApiClient.Proofs.DeclaredMembers
import ApiClient.Proofs.RevivedFields
import ApiClient.Proofs.QueryDates
import ApiClient.Proofs.RequestArguments
import ApiClient.Proofs.PathIdentity
import ApiClient.Proofs.FilePatterns
import ApiClient.Proofs.Literals
import ApiClient.Proofs.ClassConstants
import ApiClient.Proofs.ApiPathField
import ApiClient.Proofs.AddressParts
import ApiClient.Proofs.ReportForms
import ApiClient.Proofs.TemplatedFiles
import ApiClient.Proofs.TypeExpr.Faults

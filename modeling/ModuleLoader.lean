import ModuleLoader.Main
import ModuleLoader.Scripted.Engine
import ModuleLoader.Scripted.Host
import ModuleLoader.Scripted.Packages
import ModuleLoader.Proofs.Action
import ModuleLoader.Proofs.Cache
import ModuleLoader.Proofs.Session.Store
import ModuleLoader.Proofs.Session.Change
import ModuleLoader.Proofs.Module.Lifecycle
import ModuleLoader.Proofs.Module.Synthetic
import ModuleLoader.Proofs.Session.Invariant
import ModuleLoader.Proofs.Session.Creation
import ModuleLoader.Proofs.Session.Evaluation
import ModuleLoader.Proofs.Session.Requests
import ModuleLoader.Proofs.Session.Closure
import ModuleLoader.Proofs.Session.History
import ModuleLoader.Proofs.Session.Soundness
import ModuleLoader.Proofs.Session.Walk
import ModuleLoader.Proofs.Session.PostOrder
import ModuleLoader.Proofs.Session.Failure
import ModuleLoader.Proofs.Session.Repose
import ModuleLoader.Proofs.Session.Sweep
import ModuleLoader.Proofs.Session.Interruption
import ModuleLoader.Proofs.Session.Importing
import ModuleLoader.Proofs.Session.Gains
import ModuleLoader.Proofs.Session.Upholding
import ModuleLoader.Proofs.Text.Split
import ModuleLoader.Proofs.ImportScan.Line
import ModuleLoader.Proofs.ImportScan.Match
import ModuleLoader.Proofs.ImportScan.Scan
import ModuleLoader.Proofs.ImportScan.Merge
import ModuleLoader.Proofs.Graph.Listing
import ModuleLoader.Proofs.Graph.Program
import ModuleLoader.Proofs.Json.Token
import ModuleLoader.Proofs.Json.Document
import ModuleLoader.Proofs.Tsconfig.Dialect
import ModuleLoader.Proofs.Tsconfig.Effective
import ModuleLoader.Proofs.Transpile
import ModuleLoader.Proofs.Text.Utf8
import ModuleLoader.Proofs.Text.Lossy
import ModuleLoader.Proofs.File.Path
import ModuleLoader.Proofs.File.Names
import ModuleLoader.Proofs.File.Shown
import ModuleLoader.Proofs.File.System
import ModuleLoader.Proofs.Url.File
import ModuleLoader.Proofs.Url.Encode
import ModuleLoader.Proofs.Url.Names
import ModuleLoader.Proofs.Url.Settled
import ModuleLoader.Proofs.Url.Made
import ModuleLoader.Proofs.Url.Read
import ModuleLoader.Proofs.Url.Relative
import ModuleLoader.Proofs.Resolution
import ModuleLoader.Proofs.Entry
import ModuleLoader.Proofs.Url.Path
import ModuleLoader.Proofs.Url.Size
import ModuleLoader.Proofs.Url.Folder
import ModuleLoader.Proofs.Url.FileText
import ModuleLoader.Proofs.Url.Plain
import ModuleLoader.Proofs.Url.Ending
import ModuleLoader.Proofs.Resolution.Probe
import ModuleLoader.Proofs.Resolution.Again
import ModuleLoader.Proofs.Resolution.Extension
import ModuleLoader.Proofs.Session.Entry
import ModuleLoader.Proofs.Session.Mark
import ModuleLoader.Proofs.Session.Place
import ModuleLoader.Proofs.Session.Extension
import ModuleLoader.Proofs.Task.Alone
import ModuleLoader.Proofs.Task.Contract
import ModuleLoader.Proofs.Task.Pool
import ModuleLoader.Proofs.Task.Waiting
import ModuleLoader.Proofs.Shared.Alone
import ModuleLoader.Proofs.Shared.Record
import ModuleLoader.Proofs.Shared.Rules
import ModuleLoader.Proofs.Shared.Creation
import ModuleLoader.Proofs.Shared.Linking
import ModuleLoader.Proofs.Shared.Evaluation
import ModuleLoader.Proofs.Shared.Requests
import ModuleLoader.Proofs.Shared.Making
import ModuleLoader.Proofs.Shared.Linked
import ModuleLoader.Proofs.Shared.Served
import ModuleLoader.Proofs.Session.Stages
import ModuleLoader.Proofs.Module.Runs
import ModuleLoader.Proofs.Json.Fields
import ModuleLoader.Proofs.Module.Spread
import ModuleLoader.Proofs.Tsconfig.Fields
import ModuleLoader.Proofs.Cache.History
import ModuleLoader.Proofs.Session.Builtin
import ModuleLoader.Proofs.Json.Written
import ModuleLoader.Proofs.Tsconfig.Written
import ModuleLoader.Proofs.Tsconfig.Parts
import ModuleLoader.Proofs.Json.Reading
import ModuleLoader.Proofs.Tsconfig.Acceptance
import ModuleLoader.Proofs.Session.Scripts
import ModuleLoader.Proofs.Tsconfig.Places
import ModuleLoader.Proofs.ImportScan.Literal

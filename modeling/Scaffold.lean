import Scaffold.Host.JsonDefect
import Scaffold.Host.Process
import Scaffold.Main
import Scaffold.Proofs.Resolution.Turns
import Scaffold.Proofs.Resolution.Cycles
import Scaffold.Proofs.Merge.EnvLines
import Scaffold.Proofs.Json.Document
import Scaffold.Proofs.Merge.Payloads
import Scaffold.Proofs.Execution.Accounting
import Scaffold.Proofs.Install.Convergence
import Scaffold.Proofs.Template.Precheck
import Scaffold.Proofs.Merge.Bytes
import Scaffold.Proofs.Merge.Additions
import Scaffold.Proofs.Execution.Interchange
import Scaffold.Proofs.Execution.Composition
import Scaffold.Proofs.Install.Recovery
import Scaffold.Proofs.Install.History
import Scaffold.Proofs.Merge.Overlay
import Scaffold.Proofs.Merge.Repeating
import Scaffold.Proofs.Execution.Variables
import Scaffold.Proofs.Modifier.Objects
import Scaffold.Proofs.Execution.Schema
import Scaffold.Proofs.Execution.Commands
import Scaffold.Proofs.Modifier.Brackets
import Scaffold.Proofs.Modifier.Rewrapping
import Scaffold.Proofs.Modifier.Missing
import Scaffold.Proofs.Template.Literals
import Scaffold.Proofs.Execution.Targets
import Scaffold.Proofs.Registry.Loading
import Scaffold.Proofs.Registry.Views
import Scaffold.Proofs.Project.Facts
import Scaffold.Proofs.Action.Written
import Scaffold.Proofs.Command.History
import Scaffold.Proofs.Execution.Packages
import Scaffold.Proofs.Merge.Sequences

import LanguageServer.Capabilities
import LanguageServer.CommandLine.Arguments
import LanguageServer.CommandLine.Startup
import LanguageServer.Compiler.Bridge
import LanguageServer.Compiler.Capture
import LanguageServer.Compiler.Embedded
import LanguageServer.Compiler.Error
import LanguageServer.Compiler.Subprocess
import LanguageServer.Completion
import LanguageServer.Configuration.Basic
import LanguageServer.Configuration.Loader
import LanguageServer.Configuration.Paths
import LanguageServer.Configuration.Reader
import LanguageServer.Diagnostic
import LanguageServer.Document.Basic
import LanguageServer.Document.Store
import LanguageServer.Formatting
import LanguageServer.Identity
import LanguageServer.Json.Builder
import LanguageServer.Json.Decode
import LanguageServer.Json.Token
import LanguageServer.Json.Value
import LanguageServer.Json.Writer
import LanguageServer.Log.Entry
import LanguageServer.Log.Filter
import LanguageServer.Main
import LanguageServer.Mode
import LanguageServer.Notice
import LanguageServer.Process.Files
import LanguageServer.Process.Program
import LanguageServer.Process.Runner
import LanguageServer.Process.Shell.Arithmetic
import LanguageServer.Process.Shell.Command
import LanguageServer.Process.Shell.Grammar
import LanguageServer.Process.Shell.Lexeme
import LanguageServer.Process.Shell.Machine
import LanguageServer.Process.Shell.Pattern
import LanguageServer.Process.Shell.Printing
import LanguageServer.Process.Shell.Run
import LanguageServer.Process.Shell.Utility
import LanguageServer.Protocol.Capabilities
import LanguageServer.Protocol.CompletionItem
import LanguageServer.Protocol.Frame
import LanguageServer.Protocol.Message
import LanguageServer.Protocol.Method
import LanguageServer.Protocol.Params
import LanguageServer.Protocol.Position
import LanguageServer.Server.Connection
import LanguageServer.Server.Dialogue
import LanguageServer.Server.Event
import LanguageServer.Server.Handlers
import LanguageServer.Server.Scheduler
import LanguageServer.Server.State
import LanguageServer.Server.Validation
import LanguageServer.Session.Basic
import LanguageServer.Session.Locked
import LanguageServer.Session.Step
import LanguageServer.Settings.Basic
import LanguageServer.Settings.Cache
import LanguageServer.Table
import LanguageServer.Text.Blank
import LanguageServer.Text.LeadingInteger
import LanguageServer.Text.Position
import LanguageServer.Text.Quoted
import LanguageServer.Text.Search
import LanguageServer.Text.Utf8
import LanguageServer.Uri
import LanguageServer.Proofs.Document.Store
import LanguageServer.Proofs.Text.Position
import LanguageServer.Proofs.Document.Mirror
import LanguageServer.Proofs.CompileError
import LanguageServer.Proofs.Server.Effect
import LanguageServer.Proofs.Server.Sound
import LanguageServer.Proofs.Server.History
import LanguageServer.Proofs.Server.Phase
import LanguageServer.Proofs.Server.Provenance
import LanguageServer.Proofs.Server.Publication
import LanguageServer.Proofs.Server.Convergence
import LanguageServer.Proofs.Formatting
import LanguageServer.Proofs.Session.Attached
import LanguageServer.Proofs.Session.History
import LanguageServer.Proofs.Server.Session
import LanguageServer.Proofs.Server.Settings
import LanguageServer.Proofs.Server.InForce
import LanguageServer.Proofs.ErrorText
import LanguageServer.Proofs.Document.Generation
import LanguageServer.Proofs.Server.Trigger
import LanguageServer.Proofs.Server.Facet
import LanguageServer.Proofs.Server.Unwinding
import LanguageServer.Proofs.Server.Isolation
import LanguageServer.Proofs.Text.Offset
import LanguageServer.Proofs.Diagnostic
import LanguageServer.Proofs.Document.Splice
import LanguageServer.Proofs.Printing
import LanguageServer.Proofs.Session.Breakdown
import LanguageServer.Proofs.Text.LeadingInteger
import LanguageServer.Proofs.Text.Utf8
import LanguageServer.Proofs.Capture
import LanguageServer.Proofs.Configuration.Loader

import LanguageServer.CommandLine.Arguments
import LanguageServer.CommandLine.Startup
import LanguageServer.Json.Writer
import LanguageServer.Log.Entry
import LanguageServer.Log.Filter
import LanguageServer.Process.Program
import LanguageServer.Protocol.Frame
import LanguageServer.Server.Dialogue

/-! The program: arguments, environment, files and streams around the server. -/

namespace LanguageServer.Main

/-- What stands at a path of the machine. -/
def nodeAt (path : String) : IO (Option FileNode) := do
  -- Whatever cannot be read and is no directory counts as absent.
  try
    return some (.file (← IO.FS.readBinFile path).toList true)
  catch
    | .inappropriateType _ 21 _ => return some .directory
    | _ => return none

/-- The nodes on the way to a path of the machine, with their places in a file tree. -/
def nodesTo (path : String) : IO (List (List String × FileNode)) := do
  -- Every part of the way may be a file or a directory.
  let parts := path.splitOn "/"
  let start := if path.startsWith "/" then [] else (FileTree.system []).workingDirectory
  let ways := (List.range parts.length).map fun count => parts.take (count + 1)
  let found ← ways.mapM fun way => do
    let node ← nodeAt ("/".intercalate way)
    return node.map fun node => (FileTree.normalize start way, node)
  return found.filterMap id

/-- The file tree of the machine, as far as some paths reach. -/
def treeOf (paths : List String) : IO FileTree := do
  -- The system's programs are always there.
  let tree := FileTree.system []
  return { tree with nodes := (← paths.mapM nodesTo).flatten ++ tree.nodes }

/-- The paths of the files that an invocation of the compiler needs. -/
def compilerPaths (configuration : Configuration) : List String :=
  -- The interpreter may be a script itself.
  configuration.compilerPath :: configuration.interpreter.toList

/-- The user's environment. -/
def environment : IO Environment := do
  -- Variables that are not set are absent.
  return ⟨← IO.getEnv "XDG_DATA_HOME", ← IO.getEnv "XDG_CONFIG_HOME", ← IO.getEnv "HOME"⟩

/-- The log file with what may be written to it. -/
structure Journal where
  handle : IO.FS.Handle
  filter : LogFilter

/-- Writes notices to the log. -/
def Journal.write (journal : Journal) (notices : List Notice) : IO Unit := do
  -- Each entry has its line.
  for notice in notices.filter journal.filter.admits do
    journal.handle.putStrLn (notice.entry notice.message).write
  journal.handle.flush

/-- Sends messages to the client. -/
def send (stdout : IO.FS.Stream) (messages : List Json) : IO Unit := do
  -- Nothing is kept back.
  for message in messages do
    stdout.write ⟨(frame message.write).toArray⟩
  stdout.flush

/-- Serves the messages in some bytes. -/
def serveMessages (journal : Journal) (stdout : IO.FS.Stream) (startup : CommandLine.Startup)
    (dialogue : Dialogue) (messages : List (List UInt8)) : IO Dialogue :=
  -- The compiler's files may have changed since the last message.
  messages.foldlM (fun dialogue message => do
    let tree ← treeOf (compilerPaths startup.configuration)
    let current := dialogue.withCompiler (startup.bridge.invoke tree.runner)
    let (next, told) := current.hearText ((decode? message).map String.ofList)
    journal.write told.notices
    send stdout told.value
    return next) dialogue

/-- Serves until the input ends or the client has said so. -/
partial def serve (journal : Journal) (stdin stdout : IO.FS.Stream)
    (startup : CommandLine.Startup) (reader : FrameReader) (dialogue : Dialogue) : IO Unit := do
  -- Input comes in pieces of any size.
  let bytes ← stdin.read 65536
  if bytes.isEmpty || dialogue.isOver then return
  let (reader, messages) := reader.feed bytes.toList
  let dialogue ← serveMessages journal stdout startup dialogue messages
  serve journal stdin stdout startup reader dialogue

/-- Runs the server with the configuration of a named file or of the usual one. -/
def run (config : Option String) : IO UInt32 := do
  -- The log is opened before anything else is tried.
  let environment ← environment
  let configPath := config.getD environment.configPath
  let tree ← treeOf [environment.dataDirectory, environment.logPath, configPath]
  let started := CommandLine.startUp tree environment config
  if (CommandLine.openLog tree environment).isOk then
    IO.FS.createDirAll environment.dataDirectory
    let handle ← IO.FS.Handle.mk environment.logPath .append
    let journal : Journal := ⟨handle, LogFilter.choose (← IO.getEnv "RUST_LOG")⟩
    journal.write started.notices
    if let .ok startup := started.value then
      let dialogue := Dialogue.begin startup.configuration.validationMode
        (startup.bridge.invoke startup.tree.runner)
      serve journal (← IO.getStdin) (← IO.getStdout) startup .fresh dialogue
      journal.write [.stopped]
      return 0
  if let .error error := started.value then
    error.lines.forM (IO.eprintln ·)
  return 1

end LanguageServer.Main

/-- Does what the arguments ask for. -/
def main (arguments : List String) : IO UInt32 := do
  -- Arguments that cannot be understood end with status two.
  match LanguageServer.CommandLine.parse arguments with
  | .ok .version =>
    IO.print LanguageServer.CommandLine.versionText
    return 0
  | .ok .help =>
    IO.print LanguageServer.CommandLine.helpText
    return 0
  | .ok (.serve config) => LanguageServer.Main.run config
  | .error error =>
    IO.eprint error.text
    return 2

import LanguageServer.Configuration.Paths
import LanguageServer.Configuration.Reader
import LanguageServer.Notice
import LanguageServer.Process.Files
import LanguageServer.Text.Utf8

/-! The configuration found in the file system. -/

namespace LanguageServer

/-- Why a configuration file cannot be used. -/
inductive ConfigurationError where
  /-- The system refuses the file. -/
  | refused (path : String) (cause : OsError)
  /-- The file is no text. -/
  | notText (path : String)
  /-- The text is no configuration. -/
  | faulty (path : String) (fault : Configuration.Fault)
  deriving DecidableEq, Repr

/-- The words for a configuration file that cannot be used. -/
def ConfigurationError.message : ConfigurationError → String
  -- Reading and understanding fail with different words.
  | .refused path cause => "Failed to read config file " ++ quoted path ++ ": " ++ cause.message
  | .notText path =>
    "Failed to read config file " ++ quoted path ++ ": stream did not contain valid UTF-8"
  | .faulty path fault => "Failed to parse config file " ++ quoted path ++ ": " ++ fault.detail

namespace Configuration

/-- The configuration in the bytes of a file. -/
def ofBytes (path : String) (bytes : List UInt8) : Except ConfigurationError Configuration :=
  -- The bytes must be a text first.
  match decode? bytes with
  | none => .error (.notText path)
  | some text =>
    match parse text with
    | .ok configuration => .ok configuration
    | .error fault => .error (.faulty path fault)

/-- The configuration in the file at a path. -/
def load (tree : FileTree) (path : String) : Except ConfigurationError Configuration :=
  -- The file must be there.
  match tree.read path with
  | .error cause => .error (.refused path cause)
  | .ok bytes => ofBytes path bytes

/-- The configuration in a named file, or in the usual one, or the standard one. -/
def resolve (tree : FileTree) (environment : Environment) (explicit : Option String) :
    Logged (Except ConfigurationError Configuration) :=
  -- Only the usual file may be missing.
  match explicit with
  | some path => ⟨load tree path, []⟩
  | none =>
    let path := environment.configPath
    if !tree.contains path then ⟨.ok standard, [.configurationMissing path]⟩
    else match load tree path with
      | .ok configuration => ⟨.ok configuration, [.configurationLoaded path]⟩
      | .error error => ⟨.error error, []⟩

end Configuration

end LanguageServer

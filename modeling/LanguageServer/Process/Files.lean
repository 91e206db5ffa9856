import LanguageServer.Compiler.Error

/-! A tree of files and directories, with the refusals of the operating system. -/

namespace LanguageServer

/-- What stands at a place of a file tree. -/
inductive FileNode where
  | file (content : List UInt8) (executable : Bool)
  | directory
  /-- A program that comes with the system. -/
  | program (name : String)
  /-- A file that is always empty and swallows what is written to it. -/
  | sink
  /-- A file without end that holds null bytes only. -/
  | zeros
  deriving DecidableEq, Repr

/-- Files by their components from the root, and the directory that relative paths start from. -/
structure FileTree where
  nodes : List (List String × FileNode)
  workingDirectory : List String
  deriving Repr

namespace FileTree

/-- What stands at the end of components from the root. -/
def nodeAt? (tree : FileTree) (place : List String) : Option FileNode :=
  -- A place above another one is a directory, and so is the root.
  match tree.nodes.lookup place with
  | some node => some node
  | none =>
    if place.isEmpty || tree.nodes.any fun node => place.isPrefixOf node.1 then some .directory
    else none

/-- The place reached from a directory by further components. -/
def walk (tree : FileTree) (here : List String) : List String → Except OsError (List String)
  -- Every component, the empty one too, is looked up in a directory.
  | [] => .ok here
  | part :: rest =>
    match tree.nodeAt? here with
    | none => .error .notFound
    | some .directory =>
      if part = "" || part = "." then tree.walk here rest
      else if part = ".." then tree.walk here.dropLast rest
      else tree.walk (here ++ [part]) rest
    | some _ => .error .notDirectory

/-- The place that a path names, which need not exist. -/
def place (tree : FileTree) (path : String) : Except OsError (List String) :=
  -- A path that starts with a slash starts from the root.
  if path = "" then .error .notFound
  else if path.startsWith "/" then tree.walk [] (path.splitOn "/")
  else tree.walk tree.workingDirectory (path.splitOn "/")

/-- What stands at a path. -/
def look (tree : FileTree) (path : String) : Except OsError FileNode := do
  -- The last component must exist as well.
  let place ← tree.place path
  match tree.nodeAt? place with
  | some node => .ok node
  | none => .error .notFound

/-- Whether something stands at a path. -/
def contains (tree : FileTree) (path : String) : Bool :=
  -- Every refusal counts as absence.
  (tree.look path).isOk

/-- The bytes of the file at a path. -/
def read (tree : FileTree) (path : String) : Except OsError (List UInt8) := do
  -- A directory has no bytes.
  match ← tree.look path with
  | .file content _ => .ok content
  | .directory => .error .isDirectory
  | .program _ | .sink | .zeros => .ok []

/-- The tree after bytes were written to a file, in place of its content or behind it. -/
def write (tree : FileTree) (path : String) (bytes : List UInt8) (append : Bool) :
    Except OsError FileTree := do
  -- The directory of a new file must exist.
  let place ← tree.place path
  match tree.nodeAt? place with
  | some .directory => .error .isDirectory
  | some .sink | some .zeros => .ok tree
  | some (.program _) => .error .accessDenied
  | some (.file content executable) =>
    let held := if append then content ++ bytes else bytes
    .ok { tree with nodes := (place, .file held executable) :: tree.nodes }
  | none =>
    if tree.nodeAt? place.dropLast = some .directory then
      .ok { tree with nodes := (place, .file bytes false) :: tree.nodes }
    else .error .notFound

/-- The tree after the directory at a place and all directories above it were created. -/
def createAt (tree : FileTree) (place : List String) : Except OsError FileTree :=
  -- A file on the way is no directory, and a file at the end occupies the place.
  let above := (List.range place.length).map place.take
  if above.any fun place => (tree.nodeAt? place).any (· ≠ .directory) then .error .notDirectory
  else match tree.nodeAt? place with
    | some .directory => .ok tree
    | some _ => .error .occupied
    | none => .ok { tree with nodes := (place, .directory) :: tree.nodes }

/-- The components of a path with every step back taken. -/
def normalize (start : List String) (parts : List String) : List String :=
  -- Nothing is looked up.
  parts.foldl (fun here part =>
    if part = "" || part = "." then here
    else if part = ".." then here.dropLast
    else here ++ [part]) start

/-- The tree after the directory at a path and all directories above it were created. -/
def createDirectory (tree : FileTree) (path : String) : Except OsError FileTree :=
  -- A path that starts with a slash starts from the root.
  let start := if path.startsWith "/" then [] else tree.workingDirectory
  tree.createAt (normalize start (path.splitOn "/"))

/-- The programs that come with the system. -/
def programs : List String :=
  -- The shell and the small tools that scripts use.
  ["sh", "dash", "env", "cat", "echo", "printf", "tr", "wc", "head", "sleep", "kill", "true",
    "false"]

/-- A tree with the system's programs and the given files below the working directory. -/
def system (files : List (List String × FileNode)) : FileTree :=
  -- Programs are found in two directories.
  let working := ["work"]
  let found (directory : List String) :=
    programs.map fun name => (directory ++ [name], .program name)
  ⟨files.map (fun file => (working ++ file.1, file.2)) ++ found ["bin"] ++ found ["usr", "bin"] ++
    [(["dev", "null"], .sink), (["dev", "zero"], .zeros), (["tmp"], .directory),
      (working, .directory)], working⟩

end FileTree

end LanguageServer

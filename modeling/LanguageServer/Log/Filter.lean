import LanguageServer.Notice

/-! Which notices reach the log. -/

namespace LanguageServer

/-- How much is logged, each step including those before it. -/
inductive Verbosity where
  | off
  | error
  | warn
  | info
  | debug
  | trace
  deriving DecidableEq, Repr

namespace Verbosity

/-- All verbosities, the quietest first. -/
def all : List Verbosity :=
  -- Their places in this list are their numbers.
  [.off, .error, .warn, .info, .debug, .trace]

/-- The name of a verbosity. -/
def name : Verbosity → String
  -- Names are lower case.
  | .off => "off"
  | .error => "error"
  | .warn => "warn"
  | .info => "info"
  | .debug => "debug"
  | .trace => "trace"

/-- The number of a verbosity, which grows with what is logged. -/
def rank : Verbosity → Nat
  -- Nothing is logged at zero.
  | .off => 0
  | .error => 1
  | .warn => 2
  | .info => 3
  | .debug => 4
  | .trace => 5

/-- The verbosity of a name, in capitals or not, or of a number. -/
def ofName? (text : String) : Option Verbosity :=
  -- Both spellings are tried for each verbosity.
  all.find? fun verbosity =>
    text.toLower == verbosity.name || text == toString verbosity.rank

/-- The least verbosity at which notices of a level are logged. -/
def ofLevel : Level → Verbosity
  -- Each level has its verbosity.
  | .warn => .warn
  | .info => .info
  | .debug => .debug

/-- Whether notices of a level are logged. -/
def admits (verbosity : Verbosity) (level : Level) : Bool :=
  -- Levels that matter more are logged as well.
  (ofLevel level).rank ≤ verbosity.rank

end Verbosity

/-- A verbosity for all origins whose names start in some way. -/
structure Directive where
  target : String
  verbosity : Verbosity
  deriving DecidableEq, Repr

namespace Directive

/-- Whether a character may stand in the name of an origin. -/
def isTargetCharacter (character : Char) : Bool :=
  -- Names are paths of words.
  character.isAlphanum || character = '_' || character = ':' || character = '-'

/-- The directive in a text: a verbosity, a target, or both with an equals sign between them. -/
def ofText? (text : String) : Option Directive :=
  -- A lone verbosity is for all origins, and a lone target is logged whole.
  match Verbosity.ofName? text, text.splitOn "=" with
  | some verbosity, _ => some ⟨"", verbosity⟩
  | none, [target] => if target.all isTargetCharacter then some ⟨target, .trace⟩ else none
  | none, [target, level] =>
    if target.all isTargetCharacter then (Verbosity.ofName? level).map (Directive.mk target)
    else none
  | none, _ => none

end Directive

/-- The verbosities of the origins. -/
abbrev LogFilter := List Directive

namespace LogFilter

/-- The filter that is used where there is none. -/
def standard : LogFilter := [⟨"", .info⟩]

/-- The filter in a text whose directives are divided by commas. -/
def ofText? (text : String) : Option LogFilter :=
  -- A text without directives admits errors only.
  match (text.splitOn ",").filter fun part => part ≠ "" with
  | [] => some [⟨"", .error⟩]
  | parts => parts.mapM Directive.ofText?

/-- The filter that the user asks for, or the standard one. -/
def choose (text : Option String) : LogFilter :=
  -- A text that cannot be read counts as none.
  (text.bind ofText?).getD standard

/-- Whether a notice is logged. -/
def admits (filter : LogFilter) (notice : Notice) : Bool :=
  -- The longest matching target decides, and the last one of that length.
  let target := notice.origin.target
  let matching := filter.filter fun directive => target.startsWith directive.target
  let decisive := matching.foldl (fun (best : Option Directive) directive =>
    match best with
    | some held => if held.target.length ≤ directive.target.length then some directive else best
    | none => some directive) none
  decisive.any fun directive => directive.verbosity.admits notice.level

end LogFilter

end LanguageServer

/-! The four modes in which the compiler runs, and the wording for names that mean none. -/

namespace LanguageServer

/-- What the compiler is asked to do with a source text. -/
inductive Mode where
  | lex
  | parse
  | check
  | print
  deriving DecidableEq, Repr

namespace Mode

/-- Every mode, in the order in which they are listed to the user. -/
def all : List Mode :=
  -- Each mode asks for more than the one before it.
  [.lex, .parse, .check, .print]

/-- The name of a mode. -/
def name : Mode → String
  -- Names are lower case.
  | .lex => "lex"
  | .parse => "parse"
  | .check => "check"
  | .print => "print"

/-- The command line flag that asks the compiler for a mode. -/
def flag (mode : Mode) : String :=
  -- Flags are names behind two dashes.
  "--" ++ mode.name

/-- The mode of a name. -/
def ofName? (name : String) : Option Mode :=
  -- Case matters.
  all.find? fun mode => mode.name == name

end Mode

/-- A name between backticks. -/
def backticked (name : String) : String :=
  -- The name itself is not escaped.
  "`" ++ name ++ "`"

/-- The complaint about a name that is none of the known ones. -/
def unknownVariant (name : String) (known : List String) : String :=
  -- Two known names are joined by a word, more of them are listed.
  let expected := match known with
    | [first, second] => backticked first ++ " or " ++ backticked second
    | _ => "one of " ++ String.intercalate ", " (known.map backticked)
  "unknown variant " ++ backticked name ++ ", expected " ++ expected

end LanguageServer

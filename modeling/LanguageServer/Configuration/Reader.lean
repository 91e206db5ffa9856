import LanguageServer.Configuration.Basic
import LanguageServer.Json.Builder

/-! The configuration read from JSON tokens, where the first fault in reading order counts. -/

namespace LanguageServer.Configuration

/-- A field of a configuration, by its place in the positional form. -/
inductive Field where
  | compilerPath
  | interpreter
  | backend
  | capture
  | validationMode
  deriving DecidableEq, Repr

namespace Field

/-- Every field, in the order of the positional form. -/
def all : List Field :=
  -- Only the first one has no default.
  [.compilerPath, .interpreter, .backend, .capture, .validationMode]

/-- The name of a field. -/
def name : Field → String
  -- Inner words start with a capital.
  | .compilerPath => "myplPath"
  | .interpreter => "interpreter"
  | .backend => "backend"
  | .capture => "capture"
  | .validationMode => "validationMode"

/-- The field of a name. -/
def ofName? (name : String) : Option Field :=
  -- Case matters.
  all.find? fun field => field.name == name

/-- The field behind another one in the positional form. -/
def next? : Field → Option Field
  -- Nothing stands behind the last field.
  | .compilerPath => some .interpreter
  | .interpreter => some .backend
  | .backend => some .capture
  | .capture => some .validationMode
  | .validationMode => none

end Field

/-- Why a text is no configuration. -/
inductive Fault where
  | malformed
  | missing (field : Field)
  | repeated (field : Field)
  | unknown (name : String) (known : List String)
  deriving DecidableEq, Repr

/-- The words for a fault, empty for a text that is malformed. -/
def Fault.detail : Fault → String
  -- Names stand between backticks.
  | .malformed => ""
  | .missing field => "missing field " ++ backticked field.name
  | .repeated field => "duplicate field " ++ backticked field.name
  | .unknown name known => unknownVariant name known

/-- The fields read so far. -/
structure Draft where
  compilerPath : Option String := none
  interpreter : Option (Option String) := none
  backend : Option Backend := none
  capture : Option Capture := none
  validationMode : Option Mode := none
  deriving DecidableEq, Repr

namespace Draft

/-- Whether a field was read. -/
def has (draft : Draft) : Field → Bool
  -- A field that was read as null counts.
  | .compilerPath => draft.compilerPath.isSome
  | .interpreter => draft.interpreter.isSome
  | .backend => draft.backend.isSome
  | .capture => draft.capture.isSome
  | .validationMode => draft.validationMode.isSome

/-- The draft after the name of a variant was read for a field. -/
def setVariant (draft : Draft) (field : Field) (name : String) : Except Fault Draft :=
  -- Only three fields are given by a name from a list.
  match field with
  | .backend =>
    match Backend.names.lookup name with
    | some backend => .ok { draft with backend := some backend }
    | none => .error (.unknown name (Backend.names.map Prod.fst))
  | .capture =>
    match Capture.names.lookup name with
    | some capture => .ok { draft with capture := some capture }
    | none => .error (.unknown name (Capture.names.map Prod.fst))
  | .validationMode =>
    match Mode.names.lookup name with
    | some mode => .ok { draft with validationMode := some mode }
    | none => .error (.unknown name (Mode.names.map Prod.fst))
  | .compilerPath | .interpreter => .error .malformed

/-- The draft after a text was read for a field. -/
def setText (draft : Draft) (field : Field) (text : String) : Except Fault Draft :=
  -- Paths and programs are any texts.
  match field with
  | .compilerPath => .ok { draft with compilerPath := some text }
  | .interpreter => .ok { draft with interpreter := some (some text) }
  | .backend | .capture | .validationMode => draft.setVariant field text

/-- The configuration that a draft amounts to. -/
def finish (draft : Draft) : Except Fault Configuration :=
  -- Only the compiler's path has no default.
  match draft.compilerPath with
  | none => .error (.missing .compilerPath)
  | some compilerPath => .ok
    { compilerPath
      interpreter := draft.interpreter.getD none
      backend := draft.backend.getD .subprocess
      capture := draft.capture.getD .full
      validationMode := draft.validationMode.getD .parse }

end Draft

/-- The form in which a configuration is written. -/
inductive Form where
  | named
  | positional
  deriving DecidableEq, Repr

/-- What a reader takes next. -/
inductive Reading where
  /-- The opening of either form. -/
  | start
  /-- A member name or the end of the object just opened. -/
  | nameOrEnd (draft : Draft)
  /-- A member name. -/
  | name (draft : Draft)
  /-- The colon behind a member name, known or not. -/
  | colon (draft : Draft) (field : Option Field)
  /-- The value of a field. -/
  | value (form : Form) (draft : Draft) (field : Field)
  /-- The name of a variant that is written as an object. -/
  | variantName (form : Form) (draft : Draft) (field : Field)
  /-- The colon behind the name of such a variant. -/
  | variantColon (form : Form) (draft : Draft) (field : Field)
  /-- The null of such a variant. -/
  | variantNull (form : Form) (draft : Draft) (field : Field)
  /-- The end of such a variant. -/
  | variantEnd (form : Form) (draft : Draft) (field : Field)
  /-- More of the value of an unknown member. -/
  | ignored (draft : Draft) (builder : Builder)
  /-- A comma or the end of the object. -/
  | memberBreak (draft : Draft)
  /-- A comma or the end of the array, behind the given field. -/
  | itemBreak (draft : Draft) (field : Field)
  /-- Nothing, because the configuration is complete. -/
  | finished (configuration : Configuration)
  deriving Repr

namespace Reading

/-- The reading behind a field's value. -/
def behind (form : Form) (draft : Draft) (field : Field) : Reading :=
  -- The positional form has to know which field it is at.
  match form with
  | .named => .memberBreak draft
  | .positional => .itemBreak draft field

/-- The reading after a member's name. -/
def atName (draft : Draft) (key : String) : Except Fault Reading :=
  -- A field that was read before is refused at its name.
  match Field.ofName? key with
  | none => .ok (.colon draft none)
  | some field =>
    if draft.has field then .error (.repeated field) else .ok (.colon draft (some field))

/-- The reading after a token where a field's value is taken. -/
def atValue (form : Form) (draft : Draft) (field : Field) : Token → Except Fault Reading
  -- Null is a value of the interpreter only.
  | .string (some text) => return behind form (← draft.setText field text) field
  | .null =>
    if field = .interpreter then
      .ok (behind form { draft with interpreter := some none } field)
    else .error .malformed
  | .openObject =>
    match field with
    | .backend | .capture | .validationMode => .ok (.variantName form draft field)
    | .compilerPath | .interpreter => .error .malformed
  | _ => .error .malformed

/-- The reading after a token inside the value of an unknown member. -/
def atIgnored (draft : Draft) (builder : Builder) (token : Token) : Except Fault Reading :=
  -- Half surrogate pairs are let pass in values that nobody looks at.
  match builder.step (fun text => some (text.getD "")) token with
  | none => .error .malformed
  | some builder =>
    if builder.finished?.isSome then .ok (.memberBreak draft) else .ok (.ignored draft builder)

/-- The reading after one more token, or the fault that the token shows. -/
def step (reading : Reading) (token : Token) : Except Fault Reading :=
  -- A missing field is found at the end of the object.
  match reading, token with
  | .start, .openObject => .ok (.nameOrEnd {})
  | .start, .openArray => .ok (.value .positional {} .compilerPath)
  | .nameOrEnd draft, .closeObject | .memberBreak draft, .closeObject =>
    return .finished (← draft.finish)
  | .nameOrEnd draft, .string (some key) | .name draft, .string (some key) => atName draft key
  | .colon draft (some field), .colon => .ok (.value .named draft field)
  | .colon draft none, .colon => .ok (.ignored draft {})
  | .value form draft field, token => atValue form draft field token
  | .variantName form draft field, .string (some variant) =>
    return .variantColon form (← draft.setVariant field variant) field
  | .variantColon form draft field, .colon => .ok (.variantNull form draft field)
  | .variantNull form draft field, .null => .ok (.variantEnd form draft field)
  | .variantEnd form draft field, .closeObject => .ok (behind form draft field)
  | .ignored draft builder, token => atIgnored draft builder token
  | .memberBreak draft, .comma => .ok (.name draft)
  | .itemBreak draft field, .comma =>
    match field.next? with
    | some next => .ok (.value .positional draft next)
    | none => .error .malformed
  | .itemBreak draft _, .closeArray => return .finished (← draft.finish)
  | _, _ => .error .malformed

/-- The configuration, once nothing more is taken. -/
def result : Reading → Except Fault Configuration
  -- A text that ends too early is malformed.
  | .finished configuration => .ok configuration
  | _ => .error .malformed

end Reading

/-- The configuration that a text writes. -/
def parse (text : List Char) : Except Fault Configuration := do
  -- Tokens are taken one after another until the first fault.
  let reading ← (tokens text).foldlM Reading.step .start
  reading.result

end LanguageServer.Configuration

import LanguageServer.Json.Token

/-! JSON values from tokens, by a machine that keeps the unfinished containers on a stack. -/

namespace LanguageServer

/-- An unfinished container, with what it holds so far in reverse. -/
inductive Frame where
  | array (items : List Json)
  /-- An object whose next value belongs to the given name. -/
  | object (members : List (String × Json)) (name : String)
  deriving Repr

/-- What a builder takes next. -/
inductive Expected where
  /-- A value. -/
  | value
  /-- A value or the end of the array just opened. -/
  | valueOrEnd
  /-- A member name or the end of the object just opened. -/
  | nameOrEnd (members : List (String × Json))
  /-- A member name. -/
  | name (members : List (String × Json))
  /-- A colon, behind a member name. -/
  | colon (members : List (String × Json)) (name : String)
  /-- A comma or the end of the innermost container. -/
  | commaOrEnd
  /-- Nothing, because the value is finished. -/
  | nothing (value : Json)
  deriving Repr

/-- A value part way through, with the innermost unfinished container first. -/
structure Builder where
  frames : List Frame := []
  expected : Expected := .value
  deriving Repr

namespace Builder

/-- The builder after a finished value. -/
def place (frames : List Frame) (value : Json) : Builder :=
  -- A value outside of every container is the whole.
  match frames with
  | [] => ⟨[], .nothing value⟩
  | .array items :: outer => ⟨.array (value :: items) :: outer, .commaOrEnd⟩
  | .object members name :: outer =>
    ⟨.object ((name, value) :: members) name :: outer, .commaOrEnd⟩

/-- The builder after a token where a value is taken. -/
def startValue (frames : List Frame) (readString : Option String → Option String) :
    Token → Option Builder
  -- Containers stay unfinished until they are closed.
  | .null => some (place frames .null)
  | .bool value => some (place frames (.bool value))
  | .number value => some (place frames (.number value))
  | .string value => (readString value).map fun text => place frames (.string text)
  | .openArray => some ⟨.array [] :: frames, .valueOrEnd⟩
  | .openObject => some ⟨frames, .nameOrEnd []⟩
  | _ => none

/-- The builder after the end of the innermost container. -/
def close : List Frame → Token → Option Builder
  -- The kind of the end must be that of the container.
  | .array items :: outer, .closeArray => some (place outer (.array items.reverse))
  | .object members _ :: outer, .closeObject => some (place outer (.object members.reverse))
  | _, _ => none

/-- The builder after one more token, none if the token cannot stand there. -/
def step (readString : Option String → Option String) (builder : Builder) (token : Token) :
    Option Builder :=
  -- A comma promises one more item or member.
  match builder.expected, token with
  | .value, token => startValue builder.frames readString token
  | .valueOrEnd, .closeArray => close builder.frames .closeArray
  | .valueOrEnd, token => startValue builder.frames readString token
  | .nameOrEnd members, .closeObject => some (place builder.frames (.object members.reverse))
  | .nameOrEnd members, .string name | .name members, .string name =>
    (readString name).map fun name => ⟨builder.frames, .colon members name⟩
  | .colon members name, .colon => some ⟨.object members name :: builder.frames, .value⟩
  | .commaOrEnd, .comma =>
    match builder.frames with
    | .array items :: outer => some ⟨.array items :: outer, .value⟩
    | .object members _ :: outer => some ⟨outer, .name members⟩
    | [] => none
  | .commaOrEnd, token => close builder.frames token
  | _, _ => none

/-- The value, once nothing more is expected. -/
def finished? (builder : Builder) : Option Json :=
  -- An unfinished container has no value yet.
  match builder.expected with
  | .nothing value => some value
  | _ => none

end Builder

/-- The value that a text writes, if it writes exactly one. -/
def Json.parse? (text : String) : Option Json :=
  -- Strings must have a value, and nothing may follow.
  ((tokens text.toList).foldlM (Builder.step id) {}).bind Builder.finished?

end LanguageServer

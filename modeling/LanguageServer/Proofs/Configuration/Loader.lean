import Mathlib.Data.List.Count
import LanguageServer.Configuration.Loader
import LanguageServer.Proofs.Configuration.Reader

/-! A configuration that was written to a file is loaded from it, however it was written. -/

namespace LanguageServer

/-- The word for a backend. -/
def Backend.word : Backend → String
  -- Words are lower case.
  | .subprocess => "subprocess"
  | .embedded => "embedded"

/-- The word for a capture. -/
def Capture.word : Capture → String
  -- Inner words start with a capital.
  | .full => "full"
  | .firstChunk => "firstChunk"

/-- The word for a mode. -/
def Mode.word : Mode → String
  -- Words are lower case.
  | .lex => "lex"
  | .parse => "parse"
  | .check => "check"
  | .print => "print"

/-- A backend is found by its word. -/
theorem Backend.lookup_word (backend : Backend) :
    Backend.names.lookup backend.word = some backend := by
  cases backend <;> rfl

/-- A capture is found by its word. -/
theorem Capture.lookup_word (capture : Capture) :
    Capture.names.lookup capture.word = some capture := by
  cases capture <;> rfl

/-- A mode is found by its word. -/
theorem Mode.lookup_word (mode : Mode) : Mode.names.lookup mode.word = some mode := by
  cases mode <;> rfl

namespace Configuration

/-- A variant, written by its word or as an object with null behind its word. -/
inductive VariantText (word : String) : List Char → Prop where
  | name {text : List Char} : StringText (some word) text → VariantText word text
  | object {blanks : List Char} {member : Member} : Blanks blanks → member.WellFormed →
    member.key = some word → member.value.value = "null".toList →
    VariantText word (objectText blanks [member])

/-- The names of the fields, in the order of the positional form. -/
def keys : List String :=
  -- Inner words start with a capital.
  ["myplPath", "interpreter", "backend", "capture", "validationMode"]

/-- The texts that give a field of a configuration, by the name of the field. -/
inductive Gives (configuration : Configuration) : String → List Char → Prop where
  | compilerPath {text : List Char} : StringText (some configuration.compilerPath) text →
    Gives configuration "myplPath" text
  | interpreter {program : String} {text : List Char} : configuration.interpreter = some program →
    StringText (some program) text → Gives configuration "interpreter" text
  | noInterpreter : configuration.interpreter = none →
    Gives configuration "interpreter" "null".toList
  | backend {text : List Char} : VariantText configuration.backend.word text →
    Gives configuration "backend" text
  | capture {text : List Char} : VariantText configuration.capture.word text →
    Gives configuration "capture" text
  | validationMode {text : List Char} : VariantText configuration.validationMode.word text →
    Gives configuration "validationMode" text

/-- The fields that may be left out, by their names. -/
inductive Omits (configuration : Configuration) : String → Prop where
  | interpreter : configuration.interpreter = none → Omits configuration "interpreter"
  | backend : configuration.backend = .subprocess → Omits configuration "backend"
  | capture : configuration.capture = .full → Omits configuration "capture"
  | validationMode : configuration.validationMode = .parse → Omits configuration "validationMode"

/-- Whether members give the fields of a configuration, among others with any values. -/
structure NamedBy (configuration : Configuration) (members : List Member) : Prop where
  formed : ∀ member ∈ members, member.WellFormed
  /-- A name is the name of something only if it is a text. -/
  named : ∀ member ∈ members, member.key ≠ none
  known : ∀ member ∈ members, ∀ key ∈ keys, member.key = some key →
    Gives configuration key member.value.value
  unknown : ∀ member ∈ members, (∀ key ∈ keys, member.key ≠ some key) →
    JsonText member.value.value
  once : ∀ key ∈ keys, (members.map Member.key).count (some key) ≤ 1
  omitted : ∀ key ∈ keys, some key ∉ members.map Member.key → Omits configuration key

/-- Whether items give the first fields of a configuration, with defaults behind them. -/
structure PositionedBy (configuration : Configuration) (items : List Item) : Prop where
  spaced : ∀ item ∈ items, item.Spaced
  given : List.Forall₂ (fun key item => Gives configuration key item.value)
    (keys.take items.length) items
  omitted : ∀ key ∈ keys.drop items.length, Omits configuration key

/-- The texts that write a configuration, in either form. -/
inductive WrittenAs (configuration : Configuration) : List Char → Prop where
  | object {before blanks behind : List Char} {members : List Member} : Blanks before →
    Blanks blanks → Blanks behind → NamedBy configuration members →
    WrittenAs configuration (before ++ (objectText blanks members ++ behind))
  | array {before blanks behind : List Char} {items : List Item} : Blanks before →
    Blanks blanks → Blanks behind → PositionedBy configuration items →
    WrittenAs configuration (before ++ (arrayText blanks items ++ behind))

/-- The objects that lack the compiler's path or give a field twice, whatever else they hold. -/
inductive Defective : List Char → Prop where
  | object {before blanks behind : List Char} {members : List Member} : Blanks before →
    Blanks blanks → Blanks behind → (∀ member ∈ members, member.WellFormed) →
    (∀ member ∈ members, JsonText member.value.value) →
    (some "myplPath" ∉ members.map Member.key ∨
      ∃ key ∈ keys, 2 ≤ (members.map Member.key).count (some key)) →
    Defective (before ++ (objectText blanks members ++ behind))

/-- The names are those of the fields, in the same order. -/
theorem keys_eq : keys = Field.all.map Field.name := rfl

/-- Every field is there. -/
theorem Field.mem_all (field : Field) : field ∈ Field.all := by
  cases field <;> decide

/-- Every name is that of a field. -/
theorem mem_keys_iff {key : String} : key ∈ keys ↔ ∃ field : Field, field.name = key := by
  simp [keys_eq, Field.mem_all]

/-- A name means a field if it is the name of it. -/
theorem fieldOf?_eq_some_iff {key : Option String} {field : Field} :
    fieldOf? key = some field ↔ key = some field.name := by
  simp [fieldOf?, Option.bind_eq_some_iff, Field.ofName?_eq_some_iff]

/-- Different fields have different names. -/
theorem Field.name_injective {field other : Field} (same : field.name = other.name) :
    field = other := by
  -- The field of a name is found by it.
  have found := ofName?_eq_some_iff.mpr same
  rw [ofName?_eq_some_iff.mpr rfl] at found
  exact Option.some.inj found

/-- Fields are counted by their names. -/
theorem count_fieldsOf (members : List Member) (field : Field) :
    (fieldsOf (members.map Member.read)).count field =
      (members.map Member.key).count (some field.name) := by
  -- A member counts for a field if its name is that of the field.
  rw [fieldsOf, List.count_filterMap, List.count, List.countP_map, List.countP_map]
  refine List.countP_congr fun member _ => ?_
  simp [Member.read, fieldOf?_eq_some_iff]

/-- A field is there if its name is. -/
theorem mem_fieldsOf_iff (members : List Member) (field : Field) :
    field ∈ fieldsOf (members.map Member.read) ↔ some field.name ∈ members.map Member.key := by
  -- What is counted at least once is there.
  rw [← List.count_pos_iff, ← List.count_pos_iff, count_fieldsOf]

variable {configuration : Configuration}

/-- A variant is read by its word, in braces or without. -/
theorem VariantText.lexed {word : String} {text : List Char} (written : VariantText word text)
    {field : Field} (variant : IsVariant configuration word field) :
    FieldTokens configuration field (tokens text) ∧ Lexed text (tokens text) := by
  -- The object has one member, whose value is null.
  cases written with
  | name string => exact string.lexed.apply_tokens (.variant variant)
  | @object blanks member blank formed key null =>
    have value : tokens member.value.value = [.null] := by
      rw [null]
      exact lexed_null.tokens_eq
    have lexed : Lexed (objectText blanks [member]) _ :=
      lexed_objectText blank (List.forall_mem_singleton.mpr formed)
        (List.forall_mem_singleton.mpr (by rw [value, null]; exact lexed_null))
    refine lexed.apply_tokens ?_
    rw [List.map_singleton, Member.read, key, value]
    exact .variantObject variant

/-- The text of a field gives the tokens of its value. -/
theorem Gives.lexed {key : String} {text : List Char} (gives : Gives configuration key text)
    {field : Field} (same : key = field.name) :
    FieldTokens configuration field (tokens text) ∧ Lexed text (tokens text) := by
  -- Each name is that of one field only.
  cases gives with
  | compilerPath string =>
    obtain rfl : Field.compilerPath = field := Field.name_injective same
    exact string.lexed.apply_tokens .compilerPath
  | interpreter program string =>
    obtain rfl : Field.interpreter = field := Field.name_injective same
    exact string.lexed.apply_tokens (.interpreter program)
  | noInterpreter none =>
    obtain rfl : Field.interpreter = field := Field.name_injective same
    exact lexed_null.apply_tokens (.noInterpreter none)
  | backend variant =>
    obtain rfl : Field.backend = field := Field.name_injective same
    exact variant.lexed (Backend.lookup_word configuration.backend)
  | capture variant =>
    obtain rfl : Field.capture = field := Field.name_injective same
    exact variant.lexed (Capture.lookup_word configuration.capture)
  | validationMode variant =>
    obtain rfl : Field.validationMode = field := Field.name_injective same
    exact variant.lexed (Mode.lookup_word configuration.validationMode)

/-- A field that may be left out is read as its default. -/
theorem Omits.omitted {key : String} (omits : Omits configuration key) {field : Field}
    (same : key = field.name) : Omitted configuration field := by
  -- Each name is that of one field only.
  cases omits with
  | interpreter default =>
    obtain rfl : Field.interpreter = field := Field.name_injective same
    exact default
  | backend default =>
    obtain rfl : Field.backend = field := Field.name_injective same
    exact default
  | capture default =>
    obtain rfl : Field.capture = field := Field.name_injective same
    exact default
  | validationMode default =>
    obtain rfl : Field.validationMode = field := Field.name_injective same
    exact default

/-- A member of a written object gives its field, or is one that nobody looks at. -/
theorem NamedBy.suits {members : List Member} (written : NamedBy configuration members)
    {member : Member} (held : member ∈ members) :
    Reading.Suits configuration member.read ∧
      Lexed member.value.value (tokens member.value.value) := by
  -- The name of a member is that of a field or of none.
  have named := written.named member held
  cases found : fieldOf? member.key with
  | none =>
    have other : ∀ key ∈ keys, member.key ≠ some key := by
      intro key known same
      obtain ⟨field, rfl⟩ := mem_keys_iff.mp known
      rw [fieldOf?_eq_some_iff.mpr same] at found
      cases found
    obtain ⟨value, lexed⟩ := (written.unknown member held other).lexed
    refine ⟨⟨named, fun field same => ?_, fun _ => value⟩, lexed⟩
    cases found.symm.trans same
  | some field =>
    have key := fieldOf?_eq_some_iff.mp found
    obtain ⟨value, lexed⟩ :=
      (written.known member held field.name (mem_keys_iff.mpr ⟨field, rfl⟩) key).lexed rfl
    refine ⟨⟨named, fun other same => ?_, fun none => ?_⟩, lexed⟩
    · cases found.symm.trans same
      exact value
    · cases found.symm.trans none

/-- An object that gives the fields of a configuration is read as it. -/
theorem NamedBy.reads {blanks : List Char} {members : List Member}
    (written : NamedBy configuration members) (blank : Blanks blanks) :
    ∃ made, Lexed (objectText blanks members) made ∧
      Reading.Reads .start made (.finished configuration) := by
  -- Fields are counted and looked up by their names.
  refine ⟨_, lexed_objectText blank written.formed fun member held => (written.suits held).2,
    Reading.reads_object (List.forall_mem_map.mpr fun member held => (written.suits held).1) ?_ ?_⟩
  · refine List.nodup_iff_count_le_one.mpr fun field => ?_
    rw [count_fieldsOf]
    exact written.once field.name (mem_keys_iff.mpr ⟨field, rfl⟩)
  · intro field missing
    rw [mem_fieldsOf_iff] at missing
    exact (written.omitted field.name (mem_keys_iff.mpr ⟨field, rfl⟩) missing).omitted rfl

/-- The items of a written array give the first fields. -/
theorem PositionedBy.fieldTokens {items : List Item} (written : PositionedBy configuration items) :
    (∀ item ∈ items, Lexed item.value (tokens item.value)) ∧
      List.Forall₂ (FieldTokens configuration) (Field.all.take items.length)
        (items.map fun item => tokens item.value) := by
  -- Names and items are taken side by side.
  have given := written.given
  rw [keys_eq, ← List.map_take, List.forall₂_map_left_iff] at given
  have both : List.Forall₂ (fun item field => Lexed item.value (tokens item.value) ∧
      FieldTokens configuration field (tokens item.value)) items (Field.all.take items.length) :=
    (given.imp fun field item gives => (gives.lexed rfl).symm).flip
  obtain ⟨lexed, fields⟩ := (List.forall₂_and_left _ _).mp both
  exact ⟨lexed, List.forall₂_map_right_iff.mpr fields.flip⟩

/-- An array that gives the first fields of a configuration is read as it. -/
theorem PositionedBy.reads {blanks : List Char} {items : List Item}
    (written : PositionedBy configuration items) (blank : Blanks blanks) :
    ∃ made, Lexed (arrayText blanks items) made ∧
      Reading.Reads .start made (.finished configuration) := by
  -- The items are those of the first fields, and the others are left out.
  obtain ⟨lexed, given⟩ := written.fieldTokens
  have omitted : ∀ field, field ∉ Field.all.take items.length → Omitted configuration field := by
    intro field missing
    have behind : field ∈ Field.all.drop items.length := by
      have all := field.mem_all
      rw [← List.take_append_drop items.length Field.all] at all
      exact (List.mem_append.mp all).resolve_left missing
    refine (written.omitted field.name ?_).omitted rfl
    rw [keys_eq, ← List.map_drop]
    exact List.mem_map_of_mem behind
  refine ⟨_, lexed_arrayText blank written.spaced lexed, ?_⟩
  cases items with
  | nil => exact (omitted .compilerPath (by simp)).elim
  | cons item others =>
    have chained : List.IsChain (fun before behind => before.next? = some behind) Field.all := by
      simp [Field.all, Field.next?]
    exact Reading.reads_array (chained.take (others.length + 1)) given omitted

/-- A text in a file is loaded if it is read to its end. -/
theorem load_eq_ok_iff {tree : FileTree} {path : String} {text : List Char}
    (stored : tree.read path = .ok (encode text)) :
    load tree path = .ok configuration ↔
      Reading.Reads .start (tokens text) (.finished configuration) := by
  -- The bytes are those of a text, so that only the reader can refuse it.
  unfold load ofBytes parse Reading.Reads
  rw [stored]
  simp only [decode?_encode]
  cases (tokens text).foldlM Reading.step .start with
  | error fault => simp [bind, Except.bind]
  | ok reading => cases reading <;> simp [bind, Except.bind, Reading.result]

/-- A text that writes a configuration is read as it. -/
theorem WrittenAs.reads {text : List Char} (written : WrittenAs configuration text) :
    Reading.Reads .start (tokens text) (.finished configuration) := by
  -- Blanks around the whole are no tokens.
  cases written with
  | @object before blanks behind members front blank back named =>
    obtain ⟨made, lexed, reads⟩ := named.reads blank
    have spaced : Item.Spaced ⟨before, objectText blanks members, behind⟩ := ⟨front, back⟩
    rwa [← (spaced.lexed lexed).tokens_eq] at reads
  | @array before blanks behind items front blank back positioned =>
    obtain ⟨made, lexed, reads⟩ := positioned.reads blank
    have spaced : Item.Spaced ⟨before, arrayText blanks items, behind⟩ := ⟨front, back⟩
    rwa [← (spaced.lexed lexed).tokens_eq] at reads

/-- An object without the compiler's path or with a field twice is not read to its end. -/
theorem Defective.not_reads {text : List Char} (defective : Defective text) :
    ¬ Reading.Reads .start (tokens text) (.finished configuration) := by
  -- An object that is read gives the path and repeats no field.
  intro reads
  obtain @⟨before, blanks, behind, members, front, blank, back, formed, values, fault⟩ := defective
  have lexed := lexed_objectText blank formed fun member held => (values member held).lexed.2
  have spaced : Item.Spaced ⟨before, objectText blanks members, behind⟩ := ⟨front, back⟩
  have read : tokens (before ++ (objectText blanks members ++ behind)) = _ :=
    (spaced.lexed lexed).tokens_eq
  rw [read] at reads
  obtain ⟨path, distinct⟩ := Reading.fieldsOf_of_reads_object
    (List.forall_mem_map.mpr fun member held => (values member held).lexed.1) reads
  obtain missing | ⟨key, known, twice⟩ := fault
  · exact missing ((mem_fieldsOf_iff members .compilerPath).mp path)
  · obtain ⟨field, rfl⟩ := mem_keys_iff.mp known
    have once := List.nodup_iff_count_le_one.mp distinct field
    rw [count_fieldsOf] at once
    omega

/--
A configuration is loaded from every text that writes it.

Members may stand in any order, with any blanks and escapes and among others with any values, and
fields with their default may be left out. No object without the compiler's path is loaded, and none
that gives a field twice.
-/
theorem loaded_exactly_as_written (tree : FileTree) (path : String) (text : List Char)
    (stored : tree.read path = .ok (encode text)) :
    (∀ configuration, WrittenAs configuration text → load tree path = .ok configuration) ∧
    (Defective text → ∀ configuration, load tree path ≠ .ok configuration) :=
  ⟨fun _ written => (load_eq_ok_iff stored).mpr written.reads,
    fun defective _ loaded => defective.not_reads ((load_eq_ok_iff stored).mp loaded)⟩

/-- An object with escapes, an unknown member and a variant in braces writes a configuration. -/
theorem writtenAs_escaped : WrittenAs { compilerPath := "\n😀", capture := .firstChunk }
    (" \x7b\"other\":[\"\\ud800\"],\"capture\" : \x7b\"firstChunk\":null\x7d,".toList ++
      "\"\\u006DyplPath\":\"\\n\\uD83D\\ude00\"\x7d\n".toList) := by
  -- Half a surrogate pair is let pass in the unknown member only.
  have half : StringText none "\"\\ud800\"".toList :=
    (Spelled.unit (by decide : IsHexDigit 13 'd') (by decide : IsHexDigit 8 '8')
      (by decide : IsHexDigit 0 '0') (by decide : IsHexDigit 0 '0') .nil).stringText
  have name : StringText (some "myplPath") "\"\\u006DyplPath\"".toList :=
    (Spelled.unit (by decide : IsHexDigit 0 '0') (by decide : IsHexDigit 0 '0')
      (by decide : IsHexDigit 6 '6') (by decide : IsHexDigit 13 'D')
      (spelled_of_plain (by simp : ∀ character ∈ "yplPath".toList, _))).stringText
  have path : StringText (some "\n😀") "\"\\n\\uD83D\\ude00\"".toList :=
    (Spelled.short (by decide : ('n', '\n') ∈ shortEscapes)
      (.unit (by decide : IsHexDigit 13 'D') (by decide : IsHexDigit 8 '8')
        (by decide : IsHexDigit 3 '3') (by decide : IsHexDigit 13 'D')
        (.unit (by decide : IsHexDigit 13 'd') (by decide : IsHexDigit 14 'e')
          (by decide : IsHexDigit 0 '0') (by decide : IsHexDigit 0 '0') .nil))).stringText
  have empty : Blanks [] := by decide
  have blank : Blanks [' '] := by decide
  let items : List Item := [⟨[], "\"\\ud800\"".toList, []⟩]
  have array : JsonText (arrayText [] items) := .array empty
    (List.forall_mem_singleton.mpr ⟨empty, empty⟩) (List.forall_mem_singleton.mpr (.string half))
  let chunk : Member :=
    ⟨some "firstChunk", ⟨[], "\"firstChunk\"".toList, []⟩, ⟨[], "null".toList, []⟩⟩
  have braces : chunk.WellFormed :=
    ⟨stringText_of_plain (by simp), ⟨empty, empty⟩, ⟨empty, empty⟩⟩
  let members : List Member :=
    [⟨some "other", ⟨[], "\"other\"".toList, []⟩, ⟨[], arrayText [] items, []⟩⟩,
      ⟨some "capture", ⟨[], "\"capture\"".toList, [' ']⟩, ⟨[' '], objectText [] [chunk], []⟩⟩,
      ⟨some "myplPath", ⟨[], "\"\\u006DyplPath\"".toList, []⟩,
        ⟨[], "\"\\n\\uD83D\\ude00\"".toList, []⟩⟩]
  have named : NamedBy { compilerPath := "\n😀", capture := .firstChunk } members := by
    refine ⟨?_, by simp [members], ?_, ?_, by decide, ?_⟩
    · simp only [members, List.forall_mem_cons]
      exact ⟨⟨stringText_of_plain (by simp), ⟨empty, empty⟩, ⟨empty, empty⟩⟩,
        ⟨stringText_of_plain (by simp), ⟨empty, blank⟩, ⟨blank, empty⟩⟩,
        ⟨name, ⟨empty, empty⟩, ⟨empty, empty⟩⟩, by simp⟩
    · simpa [members, keys] using
        ⟨.capture (.object empty braces rfl rfl), .compilerPath path⟩
    · simpa [members, keys] using array
    · simpa [members, keys] using ⟨.interpreter rfl, .backend rfl, .validationMode rfl⟩
  exact (WrittenAs.object blank empty (by decide) named :
    WrittenAs _ ([' '] ++ (objectText [] members ++ ['\n'])))

/-- An object that gives a field twice is defective, though it gives the compiler's path. -/
theorem defective_repeated :
    Defective "\x7b\"capture\":null,\"capture\":null,\"myplPath\":null\x7d".toList := by
  -- The values do not matter.
  have empty : Blanks [] := by decide
  let null : Item := ⟨[], "null".toList, []⟩
  let capture : Member := ⟨some "capture", ⟨[], "\"capture\"".toList, []⟩, null⟩
  let path : Member := ⟨some "myplPath", ⟨[], "\"myplPath\"".toList, []⟩, null⟩
  have twice : capture.WellFormed :=
    ⟨stringText_of_plain (by simp), ⟨empty, empty⟩, ⟨empty, empty⟩⟩
  have once : path.WellFormed :=
    ⟨stringText_of_plain (by simp), ⟨empty, empty⟩, ⟨empty, empty⟩⟩
  have formed : ∀ member ∈ [capture, capture, path], member.WellFormed := by
    simpa using ⟨twice, once⟩
  have values : ∀ member ∈ [capture, capture, path], JsonText member.value.value := by
    simpa using ⟨.null, .null⟩
  exact (Defective.object empty empty empty formed values (.inr ⟨"capture", by decide, by decide⟩) :
    Defective ([] ++ (objectText [] [capture, capture, path] ++ [])))

/-- A file below the root is read by its name. -/
theorem read_file_below_root (bytes : List UInt8) :
    (⟨[(["c"], .file bytes false)], []⟩ : FileTree).read "c" = .ok bytes := by
  -- The name has one part, which is looked up in the root.
  have parts : "c".splitOn "/" = ["c"] := by
    rw [String.splitOn, if_neg (by decide), String.splitOnAux, if_neg (by decide),
      if_neg (by decide), String.splitOnAux, if_pos (by decide)]
    decide
  have place : (⟨[(["c"], .file bytes false)], []⟩ : FileTree).place "c" = .ok ["c"] := by
    rw [FileTree.place, if_neg (by decide), if_neg (by decide +kernel), parts]
    rfl
  rw [FileTree.read, FileTree.look, place]
  rfl

/-- One of two files holds a text that is loaded, and the other one a text that is not. -/
theorem loaded_exactly_as_written_escaped :
    let configuration : Configuration := { compilerPath := "\n😀", capture := .firstChunk }
    let text :=
      " \x7b\"other\":[\"\\ud800\"],\"capture\" : \x7b\"firstChunk\":null\x7d,".toList ++
        "\"\\u006DyplPath\":\"\\n\\uD83D\\ude00\"\x7d\n".toList
    let repeated := "\x7b\"capture\":null,\"capture\":null,\"myplPath\":null\x7d".toList
    let one : FileTree := ⟨[(["c"], .file (encode text) false)], []⟩
    let other : FileTree := ⟨[(["c"], .file (encode repeated) false)], []⟩
    (one.read "c" = .ok (encode text) ∧ WrittenAs configuration text ∧
      other.read "c" = .ok (encode repeated) ∧ Defective repeated) ∧
    load one "c" = .ok configuration ∧ load other "c" ≠ .ok configuration := by
  intro configuration text repeated one other
  have stored := read_file_below_root (encode text)
  have storedOther := read_file_below_root (encode repeated)
  exact ⟨⟨stored, writtenAs_escaped, storedOther, defective_repeated⟩,
    (loaded_exactly_as_written one "c" text stored).1 configuration writtenAs_escaped,
    (loaded_exactly_as_written other "c" repeated storedOther).2 defective_repeated configuration⟩

end Configuration

end LanguageServer

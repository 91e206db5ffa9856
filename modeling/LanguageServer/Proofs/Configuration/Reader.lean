import Mathlib.Data.List.Chain
import Mathlib.Data.List.Forall2
import Mathlib.Data.List.Nodup
import LanguageServer.Configuration.Reader
import LanguageServer.Proofs.Json.Builder

/-! A reader takes the fields of a configuration in any order and in both forms. -/

namespace LanguageServer.Configuration

/-- A name is that of a field only if it is written in the same way. -/
theorem Field.ofName?_eq_some_iff {name : String} {field : Field} :
    ofName? name = some field ↔ name = field.name := by
  -- The field that is found has the name, and no other field has it.
  constructor
  · intro found
    have same := List.find?_some found
    exact (beq_iff_eq.mp same).symm
  · rintro rfl
    cases field <;> rfl

/-- The field that a member's name means, if it means one. -/
def fieldOf? (key : Option String) : Option Field :=
  -- A name that is no text means none.
  key.bind Field.ofName?

/-- The fields among the names of members, in the order of writing. -/
def fieldsOf (members : List (Option String × List Token)) : List Field :=
  -- Unknown names are passed over.
  members.filterMap fun member => fieldOf? member.1

/-- The fields of members are those of the first one and of the others. -/
theorem fieldsOf_cons (member : Option String × List Token)
    (members : List (Option String × List Token)) :
    fieldsOf (member :: members) = (fieldOf? member.1).toList ++ fieldsOf members := by
  -- An unknown name gives none.
  cases found : fieldOf? member.1 <;> simp [fieldsOf, found]

namespace Draft

/-- The draft of a configuration of which some fields were read. -/
def of (configuration : Configuration) (given : List Field) : Draft where
  compilerPath := if .compilerPath ∈ given then some configuration.compilerPath else none
  interpreter := if .interpreter ∈ given then some configuration.interpreter else none
  backend := if .backend ∈ given then some configuration.backend else none
  capture := if .capture ∈ given then some configuration.capture else none
  validationMode := if .validationMode ∈ given then some configuration.validationMode else none

/-- Whether a draft has certain fields and no others. -/
def Holds (draft : Draft) (given : List Field) : Prop :=
  -- What was read for them does not count.
  ∀ field, draft.has field = true ↔ field ∈ given

variable (configuration : Configuration) (given : List Field)

/-- The draft of a configuration has the fields that were read. -/
theorem holds_of : (of configuration given).Holds given := by
  -- A field was read if it is among those that are given.
  intro field
  cases field <;> simp [has, of]

end Draft

/-- Whether a name is that of the variant that a configuration has in a field. -/
def IsVariant (configuration : Configuration) (name : String) : Field → Prop
  -- Two fields are no variants.
  | .backend => Backend.names.lookup name = some configuration.backend
  | .capture => Capture.names.lookup name = some configuration.capture
  | .validationMode => Mode.names.lookup name = some configuration.validationMode
  | .compilerPath | .interpreter => False

/-- Whether a field may be left out. -/
def Omitted (configuration : Configuration) : Field → Prop
  -- The compiler's path has no default.
  | .compilerPath => False
  | .interpreter => configuration.interpreter = none
  | .backend => configuration.backend = .subprocess
  | .capture => configuration.capture = .full
  | .validationMode => configuration.validationMode = .parse

/-- The tokens of the value of a field. -/
inductive FieldTokens (configuration : Configuration) : Field → List Token → Prop where
  | compilerPath :
    FieldTokens configuration .compilerPath [.string (some configuration.compilerPath)]
  | interpreter {program : String} : configuration.interpreter = some program →
    FieldTokens configuration .interpreter [.string (some program)]
  | noInterpreter : configuration.interpreter = none →
    FieldTokens configuration .interpreter [.null]
  | variant {field : Field} {name : String} : IsVariant configuration name field →
    FieldTokens configuration field [.string (some name)]
  | variantObject {field : Field} {name : String} : IsVariant configuration name field →
    FieldTokens configuration field
      [.openObject, .string (some name), .colon, .null, .closeObject]

namespace Draft

variable {configuration : Configuration} {given : List Field}

/-- A variant is read into its field. -/
theorem setVariant_of {name : String} {field : Field}
    (variant : IsVariant configuration name field) :
    (of configuration given).setVariant field name = .ok (of configuration (given ++ [field])) := by
  -- The field is the only one that changes.
  cases field with
  | compilerPath | interpreter => exact variant.elim
  | backend | capture | validationMode =>
    simp only [IsVariant] at variant
    simp [setVariant, variant, of]

/-- A draft amounts to its configuration if nothing was left out but defaults. -/
theorem finish_of (omitted : ∀ field, field ∉ given → Omitted configuration field) :
    (of configuration given).finish = .ok configuration := by
  -- The path was read, because it has no default.
  have path : Field.compilerPath ∈ given := by
    by_contra missing
    exact omitted _ missing
  have default {α : Type} {value other : α} {field : Field}
      (same : field ∉ given → value = other) :
      (if field ∈ given then some value else none).getD other = value := by
    split
    · rfl
    · next missing => exact (same missing).symm
  simp only [finish, of, if_pos path, default (omitted .interpreter), default (omitted .backend),
    default (omitted .capture), default (omitted .validationMode)]

/-- A variant that is read sets its field and no other. -/
theorem has_setVariant {draft next : Draft} {field : Field} {name : String}
    (set : draft.setVariant field name = .ok next) (other : Field) :
    next.has other = true ↔ draft.has other = true ∨ other = field := by
  -- Each of the three fields is looked at alone.
  unfold setVariant at set
  repeat' split at set
  all_goals cases set
  all_goals cases other <;> simp [has]

/-- A text that is read sets its field and no other. -/
theorem has_setText {draft next : Draft} {field : Field} {text : String}
    (set : draft.setText field text = .ok next) (other : Field) :
    next.has other = true ↔ draft.has other = true ∨ other = field := by
  -- Two fields take any text, and the others the name of a variant.
  unfold setText at set
  split at set
  · cases set
    cases other <;> simp [has]
  · cases set
    cases other <;> simp [has]
  all_goals exact has_setVariant set other

end Draft

namespace Reading

/-- Whether a reader comes from one place to another over some tokens. -/
def Reads (origin : Reading) (made : List Token) (stop : Reading) : Prop :=
  -- There is no fault on the way.
  made.foldlM step origin = .ok stop

variable {origin stop : Reading}

/-- A reader stays where it is without tokens. -/
theorem reads_nil_iff : Reads origin [] stop ↔ origin = stop := by
  simp [Reads, pure, Except.pure]

/-- A reader takes the first token first. -/
theorem reads_cons_iff {token : Token} {rest : List Token} :
    Reads origin (token :: rest) stop ↔
      ∃ next, origin.step token = .ok next ∧ Reads next rest stop := by
  -- A fault at the first token is a fault of all.
  rw [Reads, List.foldlM_cons]
  cases origin.step token <;> simp [Reads, bind, Except.bind]

/-- A reader takes one part behind the other. -/
theorem reads_append_iff {first second : List Token} :
    Reads origin (first ++ second) stop ↔
      ∃ middle, Reads origin first middle ∧ Reads middle second stop := by
  -- A fault in the first part is a fault of both.
  rw [Reads, List.foldlM_append]
  unfold Reads
  cases first.foldlM step origin <;> simp [bind, Except.bind]

/-- A value that nobody looks at is passed over as it is built. -/
theorem reads_ignored {draft : Draft} {made : List Token} {builder whole : Builder}
    (unfinished : builder.finished? = none)
    (taken : made.foldlM (Builder.step fun text => some (text.getD "")) builder = some whole)
    (finished : whole.finished?.isSome) :
    Reads (.ignored draft builder) made (.memberBreak draft) := by
  -- The builder finishes at the last token, because it would take none behind that.
  induction made generalizing builder with
  | nil =>
    cases taken
    simp [unfinished] at finished
  | cons token rest ih =>
    rw [List.foldlM_cons] at taken
    obtain ⟨next, stepped, later⟩ := Option.bind_eq_some_iff.mp taken
    refine reads_cons_iff.mpr ?_
    simp only [step, atIgnored, stepped]
    split
    · next complete =>
      refine ⟨_, rfl, ?_⟩
      cases rest with
      | nil => exact reads_nil_iff.mpr rfl
      | cons other others =>
        rw [List.foldlM_cons, Builder.step_eq_none_of_finished complete] at later
        cases later
    · next incomplete => exact ⟨_, rfl, ih (by simpa using incomplete) later⟩

/-- The value of an unknown member is passed over. -/
theorem reads_ignored_value {made : List Token} (value : ValueTokens made) (draft : Draft) :
    Reads (.ignored draft {}) made (.memberBreak draft) := by
  -- No string is refused where nobody looks at it.
  have total : ∀ text : Option String, (some (text.getD "")).isSome := fun _ => rfl
  obtain ⟨json, taken⟩ := value.takes total []
  exact reads_ignored rfl taken rfl

/-- The value of a field is read into the draft. -/
theorem reads_field {configuration : Configuration} {field : Field} {made : List Token}
    (tokens : FieldTokens configuration field made) (form : Form) (given : List Field) :
    Reads (.value form (.of configuration given) field) made
      (behind form (.of configuration (given ++ [field])) field) := by
  -- A variant in braces is set at its name, four tokens before it is complete.
  cases tokens with
  | compilerPath =>
    refine reads_cons_iff.mpr ⟨_, ?_, reads_nil_iff.mpr rfl⟩
    simp [step, atValue, Draft.setText, Draft.of, bind, Except.bind, pure, Except.pure]
  | interpreter program =>
    refine reads_cons_iff.mpr ⟨_, ?_, reads_nil_iff.mpr rfl⟩
    simp [step, atValue, Draft.setText, Draft.of, program, bind, Except.bind, pure, Except.pure]
  | noInterpreter none =>
    refine reads_cons_iff.mpr ⟨_, ?_, reads_nil_iff.mpr rfl⟩
    simp [step, atValue, Draft.of, none]
  | @variant _ name variant =>
    have set : (Draft.of configuration given).setText field name =
        .ok (.of configuration (given ++ [field])) := by
      rw [← Draft.setVariant_of variant]
      cases field with
      | compilerPath | interpreter => exact variant.elim
      | backend | capture | validationMode => rfl
    refine reads_cons_iff.mpr ⟨_, ?_, reads_nil_iff.mpr rfl⟩
    simp only [step, atValue, set]
    rfl
  | @variantObject _ name variant =>
    have opened : step (.value form (.of configuration given) field) .openObject =
        .ok (.variantName form (.of configuration given) field) := by
      cases field with
      | compilerPath | interpreter => exact variant.elim
      | backend | capture | validationMode => rfl
    have named : step (.variantName form (.of configuration given) field) (.string (some name)) =
        .ok (.variantColon form (.of configuration (given ++ [field])) field) := by
      simp only [step, Draft.setVariant_of variant]
      rfl
    exact reads_cons_iff.mpr ⟨_, opened, reads_cons_iff.mpr ⟨_, named, rfl⟩⟩

/-- Whether a member gives a field of a configuration or is one that nobody looks at. -/
def Suits (configuration : Configuration) (member : Option String × List Token) : Prop :=
  -- Every name has to be a text.
  member.1 ≠ none ∧
    (∀ field, fieldOf? member.1 = some field → FieldTokens configuration field member.2) ∧
    (fieldOf? member.1 = none → ValueTokens member.2)

variable {configuration : Configuration} {given : List Field}

/-- A name is taken unless it is no text or that of a field that was read before. -/
theorem step_name_eq_ok_iff {draft : Draft} {key : Option String} {next : Reading} :
    step (.name draft) (.string key) = .ok next ↔
      key ≠ none ∧ next = .colon draft (fieldOf? key) ∧
        ∀ field, fieldOf? key = some field → draft.has field = false := by
  -- An unknown name is never a repeated one.
  cases key with
  | none => simp [step]
  | some name =>
    simp only [step, atName, fieldOf?, Option.bind_some]
    cases Field.ofName? name with
    | none => simpa using eq_comm
    | some field =>
      cases known : draft.has field with
      | true => simp [known]
      | false => simpa [known] using eq_comm

/-- A member is read into the draft unless it is unknown. -/
theorem reads_member {member : Option String × List Token} (suits : Suits configuration member)
    (fresh : ∀ field, fieldOf? member.1 = some field → field ∉ given) :
    Reads (.name (.of configuration given)) (memberTokens member)
      (.memberBreak (.of configuration (given ++ (fieldOf? member.1).toList))) := by
  -- The name decides whether the value is looked at.
  obtain ⟨text, known, unknown⟩ := suits
  have named : step (.name (.of configuration given)) (.string member.1) =
      .ok (.colon (.of configuration given) (fieldOf? member.1)) := by
    refine step_name_eq_ok_iff.mpr ⟨text, rfl, fun field found => ?_⟩
    rw [← Bool.not_eq_true, Draft.holds_of configuration given field]
    exact fresh field found
  refine reads_cons_iff.mpr ⟨_, named, ?_⟩
  cases found : fieldOf? member.1 with
  | none =>
    rw [Option.toList_none, List.append_nil]
    exact reads_cons_iff.mpr ⟨_, rfl, reads_ignored_value (unknown found) _⟩
  | some field =>
    exact reads_cons_iff.mpr ⟨_, rfl, reads_field (known field found) .named given⟩

/-- Members behind commas are read into the draft in the order of writing. -/
theorem reads_members (given : List Field) {members : List (Option String × List Token)}
    (suits : ∀ member ∈ members, Suits configuration member)
    (once : (given ++ fieldsOf members).Nodup) :
    Reads (.memberBreak (.of configuration given))
      ((members.map memberTokens).flatMap ([Token.comma] ++ ·))
      (.memberBreak (.of configuration (given ++ fieldsOf members))) := by
  -- A field that was given before cannot be among those that follow.
  induction members generalizing given with
  | nil => simp [fieldsOf, reads_nil_iff]
  | cons member others ih =>
    have fresh : ∀ field, fieldOf? member.1 = some field → field ∉ given := by
      intro field found before
      refine (List.nodup_append.mp once).2.2 field before field ?_ rfl
      simp [fieldsOf_cons, found]
    rw [fieldsOf_cons, ← List.append_assoc] at once ⊢
    have first := reads_member (suits member (by simp)) fresh
    have later := ih _ (fun other held => suits other (List.mem_cons_of_mem member held)) once
    exact reads_append_iff.mpr ⟨_, reads_cons_iff.mpr ⟨_, rfl, first⟩, later⟩

/-- The members of an object are read as if a comma stood before the first one too. -/
theorem reads_object_iff {members : List (Option String × List Token)} :
    Reads .start (objectTokens members) stop ↔
      ∃ middle, Reads (.memberBreak {}) ((members.map memberTokens).flatMap ([Token.comma] ++ ·))
        middle ∧ Reads middle [.closeObject] stop := by
  -- A first member is taken like a later one, and an end without members like one behind them.
  rw [← reads_append_iff]
  cases members with
  | nil => exact Iff.rfl
  | cons member others =>
    obtain ⟨key, made⟩ := member
    rw [objectTokens, List.map_cons, intercalate_cons_eq]
    cases key <;> exact Iff.rfl

/-- An object is read as the configuration whose fields it gives. -/
theorem reads_object {members : List (Option String × List Token)}
    (suits : ∀ member ∈ members, Suits configuration member) (once : (fieldsOf members).Nodup)
    (omitted : ∀ field, field ∉ fieldsOf members → Omitted configuration field) :
    Reads .start (objectTokens members) (.finished configuration) := by
  -- The end of the object finishes the draft.
  have close : step (.memberBreak (.of configuration (fieldsOf members))) .closeObject =
      .ok (.finished configuration) := by
    simp only [step, Draft.finish_of omitted]
    rfl
  exact reads_object_iff.mpr ⟨_, reads_members [] suits once,
    reads_cons_iff.mpr ⟨_, close, reads_nil_iff.mpr rfl⟩⟩

/-- Items behind commas are read into the draft in the order of the fields. -/
theorem reads_items (given : List Field) {field : Field} {fields : List Field}
    {items : List (List Token)}
    (chained : List.IsChain (fun before behind => before.next? = some behind) (field :: fields))
    (each : List.Forall₂ (FieldTokens configuration) fields items) :
    ∃ last, Reads (.itemBreak (.of configuration given) field) (items.flatMap ([Token.comma] ++ ·))
      (.itemBreak (.of configuration (given ++ fields)) last) := by
  -- The field behind each comma is the next one.
  induction each generalizing field given with
  | nil => exact ⟨field, by simp [reads_nil_iff]⟩
  | @cons next made fields items first later ih =>
    obtain ⟨follows, chained⟩ := List.isChain_cons_cons.mp chained
    obtain ⟨last, later⟩ := ih (given ++ [next]) chained
    rw [List.append_assoc, List.singleton_append] at later
    have comma : step (.itemBreak (.of configuration given) field) .comma =
        .ok (.value .positional (.of configuration given) next) := by
      simp [step, follows]
    exact ⟨last, reads_append_iff.mpr ⟨_, reads_cons_iff.mpr ⟨_, comma,
      reads_field first .positional given⟩, later⟩⟩

/-- An array is read as the configuration whose first fields it gives. -/
theorem reads_array {fields : List Field} {made : List Token} {items : List (List Token)}
    (chained : List.IsChain (fun before behind => before.next? = some behind)
      (.compilerPath :: fields))
    (each : List.Forall₂ (FieldTokens configuration) (.compilerPath :: fields) (made :: items))
    (omitted : ∀ field, field ∉ .compilerPath :: fields → Omitted configuration field) :
    Reads .start (arrayTokens (made :: items)) (.finished configuration) := by
  -- The first item is the path, and the end of the array finishes the draft.
  obtain ⟨first, others⟩ := List.forall₂_cons.mp each
  obtain ⟨last, later⟩ := reads_items [.compilerPath] chained others
  have close : step (.itemBreak (.of configuration (.compilerPath :: fields)) last) .closeArray =
      .ok (.finished configuration) := by
    simp only [step, Draft.finish_of omitted]
    rfl
  rw [arrayTokens, intercalate_cons_eq, List.append_assoc]
  exact reads_cons_iff.mpr ⟨_, rfl, reads_append_iff.mpr ⟨_, reads_field first .positional [],
    reads_append_iff.mpr ⟨_, later, reads_cons_iff.mpr ⟨_, close, reads_nil_iff.mpr rfl⟩⟩⟩⟩

/-- What is made of a result that may be a fault is made of a result. -/
theorem exists_of_bind_eq_ok {α β : Type} {result : Except Fault α} {make : α → β} {value : β}
    (made : (do return make (← result)) = Except.ok value) :
    ∃ part, result = .ok part ∧ value = make part := by
  -- A fault makes nothing.
  cases result with
  | error fault => cases made
  | ok part =>
    cases made
    exact ⟨part, rfl, rfl⟩

/-- A variant in braces that is read sets its field. -/
theorem exists_setVariant_of_reads {form : Form} {draft : Draft} {field : Field}
    {members : List (Option String × List Token)}
    (each : ∀ member ∈ members, ValueTokens member.2)
    (run : Reads (.variantName form draft field)
      ([Token.comma].intercalate (members.map memberTokens) ++ [.closeObject]) stop) :
    ∃ name next, draft.setVariant field name = .ok next ∧ stop = behind form next field := by
  -- There is one member, and its value is null.
  cases members with
  | nil =>
    obtain ⟨_, stepped, -⟩ := reads_cons_iff.mp run
    cases stepped
  | cons member others =>
    obtain ⟨key, made⟩ := member
    rw [List.map_cons, intercalate_cons_eq, List.append_assoc] at run
    obtain ⟨_, named, run⟩ := reads_cons_iff.mp run
    cases key with
    | none => cases named
    | some name =>
      obtain ⟨next, set, rfl⟩ := exists_of_bind_eq_ok named
      obtain ⟨_, colon, run⟩ := reads_cons_iff.mp run
      cases colon
      refine ⟨name, next, set, ?_⟩
      have value := each (some name, made) (by simp)
      cases value with
      | null =>
        obtain ⟨_, null, run⟩ := reads_cons_iff.mp run
        cases null
        cases others with
        | nil =>
          obtain ⟨_, close, run⟩ := reads_cons_iff.mp run
          cases close
          exact (reads_nil_iff.mp run).symm
        | cons =>
          obtain ⟨_, comma, -⟩ := reads_cons_iff.mp run
          cases comma
      | bool | number | string | array | object =>
        obtain ⟨_, other, -⟩ := reads_cons_iff.mp run
        cases other

/-- The value of a field that is read sets its field. -/
theorem exists_draft_of_reads_value {draft : Draft} {field : Field} {made : List Token}
    (value : ValueTokens made) (run : Reads (.value .named draft field) made stop) :
    ∃ next : Draft, stop = .memberBreak next ∧
      ∀ other, next.has other = true ↔ draft.has other = true ∨ other = field := by
  -- Numbers, truth values and arrays are refused at their first token.
  cases value with
  | null =>
    obtain ⟨next, stepped, run⟩ := reads_cons_iff.mp run
    simp only [step, atValue] at stepped
    split at stepped
    · next same =>
      cases stepped
      subst same
      refine ⟨_, (reads_nil_iff.mp run).symm, ?_⟩
      intro other
      cases other <;> simp [Draft.has]
    · cases stepped
  | bool | number =>
    obtain ⟨_, stepped, -⟩ := reads_cons_iff.mp run
    cases stepped
  | string text =>
    obtain ⟨_, stepped, run⟩ := reads_cons_iff.mp run
    cases text with
    | none => cases stepped
    | some text =>
      obtain ⟨next, set, rfl⟩ := exists_of_bind_eq_ok stepped
      exact ⟨next, (reads_nil_iff.mp run).symm, Draft.has_setText set⟩
  | array each =>
    obtain ⟨_, stepped, -⟩ := reads_cons_iff.mp run
    cases stepped
  | object each =>
    obtain ⟨_, stepped, run⟩ := reads_cons_iff.mp run
    cases field with
    | compilerPath | interpreter => cases stepped
    | backend | capture | validationMode =>
      cases stepped
      obtain ⟨name, next, set, rfl⟩ := exists_setVariant_of_reads each run
      exact ⟨next, rfl, Draft.has_setVariant set⟩

/-- A member that is read leaves a draft with its field, which was new. -/
theorem exists_draft_of_reads_member {member : Option String × List Token}
    (value : ValueTokens member.2) {draft : Draft} {given : List Field} (holds : draft.Holds given)
    (run : Reads (.name draft) (memberTokens member) stop) :
    ∃ next : Draft, stop = .memberBreak next ∧
      next.Holds (given ++ (fieldOf? member.1).toList) ∧
      ∀ field, fieldOf? member.1 = some field → field ∉ given := by
  -- An unknown member changes nothing, and a known one was not read before.
  obtain ⟨_, named, run⟩ := reads_cons_iff.mp run
  obtain ⟨-, rfl, fresh⟩ := step_name_eq_ok_iff.mp named
  obtain ⟨_, colon, run⟩ := reads_cons_iff.mp run
  cases found : fieldOf? member.1 with
  | none =>
    rw [found] at colon
    cases colon
    have same : Except.ok stop = Except.ok (.memberBreak draft) :=
      run.symm.trans (reads_ignored_value value draft)
    cases same
    exact ⟨draft, rfl, by simpa using holds, by simp⟩
  | some field =>
    rw [found] at colon
    cases colon
    obtain ⟨next, rfl, has⟩ := exists_draft_of_reads_value value run
    refine ⟨next, rfl, fun other => ?_, ?_⟩
    · simp [has other, holds other]
    · rintro _ ⟨⟩ before
      have known := (holds field).mpr before
      rw [fresh field found] at known
      cases known

/-- Members that are read leave a draft with their fields, each of which was new. -/
theorem exists_draft_of_reads_members {members : List (Option String × List Token)}
    (each : ∀ member ∈ members, ValueTokens member.2) {draft : Draft} {given : List Field}
    (holds : draft.Holds given) (distinct : given.Nodup)
    (run : Reads (.memberBreak draft) ((members.map memberTokens).flatMap ([Token.comma] ++ ·))
      stop) :
    ∃ next : Draft, stop = .memberBreak next ∧ next.Holds (given ++ fieldsOf members) ∧
      (given ++ fieldsOf members).Nodup := by
  -- The induction is on the members, with the fields given before them.
  induction members generalizing draft given with
  | nil => exact ⟨draft, (reads_nil_iff.mp run).symm, by simpa [fieldsOf], by simpa [fieldsOf]⟩
  | cons member others ih =>
    obtain ⟨middle, first, later⟩ := reads_append_iff.mp run
    obtain ⟨next, rfl, held, fresh⟩ :=
      exists_draft_of_reads_member (each member (by simp)) holds first
    have still : (given ++ (fieldOf? member.1).toList).Nodup := by
      cases found : fieldOf? member.1 with
      | none => simpa using distinct
      | some field =>
        exact List.nodup_append_comm.mpr (List.nodup_cons.mpr ⟨fresh field found, distinct⟩)
    rw [fieldsOf_cons, ← List.append_assoc]
    exact ih (fun other member => each other (List.mem_cons_of_mem _ member)) held still later

/-- An object that is read gives the compiler's path and repeats no field. -/
theorem fieldsOf_of_reads_object {members : List (Option String × List Token)}
    (each : ∀ member ∈ members, ValueTokens member.2) {configuration : Configuration}
    (run : Reads .start (objectTokens members) (.finished configuration)) :
    .compilerPath ∈ fieldsOf members ∧ (fieldsOf members).Nodup := by
  -- A draft without the path is refused at the end of the object.
  obtain ⟨middle, inner, close⟩ := reads_object_iff.mp run
  obtain ⟨draft, rfl, holds, distinct⟩ := exists_draft_of_reads_members each
    (fun field => by cases field <;> simp [Draft.has]) List.nodup_nil inner
  refine ⟨(holds .compilerPath).mp ?_, distinct⟩
  obtain ⟨_, closed, -⟩ := reads_cons_iff.mp close
  obtain ⟨whole, finished, -⟩ := exists_of_bind_eq_ok closed
  unfold Draft.finish at finished
  split at finished
  · cases finished
  · next path => simp [Draft.has, path]

end Reading

end LanguageServer.Configuration

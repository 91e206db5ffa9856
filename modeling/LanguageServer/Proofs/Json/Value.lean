import LanguageServer.Json.Builder
import LanguageServer.Proofs.Json.Token

/-! The text of every value is read as tokens of which a value is built. -/

namespace LanguageServer

/-- Whether a text ends the word or the number in front of it. -/
def Delimited (text : List Char) : Prop :=
  -- The end of a text ends everything.
  ∀ character ∈ text.head?, character.isAlphanum = false ∧ isNumberPart character = false

/-- Whether a text gives certain tokens, whatever follows behind a delimiter. -/
def Lexed (text : List Char) (made : List Token) : Prop :=
  -- Numbers would go on without a delimiter.
  ∀ rest, Delimited rest → tokens (text ++ rest) = made ++ tokens rest

/-- The tokens that a text gives in front of a delimiter are those that it gives alone. -/
theorem Lexed.tokens_eq {text : List Char} {made : List Token} (lexed : Lexed text made) :
    tokens text = made := by
  -- The end of a text is a delimiter.
  simpa [tokens, Lexer.finish] using lexed [] (by simp [Delimited])

/-- What holds of the tokens in front of a delimiter holds of those that a text gives alone. -/
theorem Lexed.apply_tokens {text : List Char} {made : List Token} (lexed : Lexed text made)
    {valid : List Token → Prop} (holds : valid made) :
    valid (tokens text) ∧ Lexed text (tokens text) := by
  -- Both are the same list.
  rw [lexed.tokens_eq]
  exact ⟨holds, lexed⟩

/-- Blanks in front of a delimiter are delimiters. -/
theorem Blanks.delimited_append {blanks rest : List Char} (blank : Blanks blanks)
    (delimited : Delimited rest) : Delimited (blanks ++ rest) := by
  -- Only the first character counts, which is a blank or the delimiter.
  cases blanks with
  | nil => exact delimited
  | cons character others =>
    have one := blank character (by simp)
    simp only [List.mem_cons, List.not_mem_nil, or_false] at one
    rcases one with rfl | rfl | rfl | rfl <;> simp [Delimited] <;> decide

/-- A word is a token of its own. -/
theorem tokensFrom_word {read : List Char} (valid : wordToken read ≠ .invalid) {rest : List Char}
    (delimited : Delimited rest) : tokensFrom (.word read) rest = wordToken read :: tokens rest :=
  tokensFrom_ended valid rfl fun character first => by
    simp [Lexer.step, (delimited character first).1]

/-- The characters of a number are collected until a delimiter. -/
theorem tokensFrom_number {read parts : List Char}
    (part : ∀ character ∈ parts, isNumberPart character)
    (valid : numberToken (parts.reverse ++ read) ≠ .invalid) {rest : List Char}
    (delimited : Delimited rest) :
    tokensFrom (.number read) (parts ++ rest) =
      numberToken (parts.reverse ++ read) :: tokens rest := by
  -- The characters are collected in reverse.
  induction parts generalizing read with
  | nil =>
    exact tokensFrom_ended valid rfl fun character first => by
      simp [Lexer.step, (delimited character first).2]
  | cons character others ih =>
    have step : Lexer.step ⟨.number read, []⟩ character = ⟨.number (character :: read), []⟩ := by
      simp [Lexer.step, part character (by simp)]
    rw [List.cons_append, tokensFrom_cons_of_step step,
      ih (fun other member => part other (by simp [member])) (by simpa using valid)]
    simp

/-- A digit is none of the other characters. -/
theorem ne_of_isDigit {digit other : Char} (is_digit : digit.isDigit = true)
    (is_other : other.isDigit = false) : digit ≠ other := by
  -- One of them is a digit and the other one is not.
  rintro rfl
  exact Bool.noConfusion (is_digit.symm.trans is_other)

/-- Digits are skipped up to a character that is none. -/
theorem Digits.skipDigits?_append {digits : List Char} (several : Digits digits) {rest : List Char}
    (stop : ∀ character ∈ rest.head?, character.isDigit = false) :
    skipDigits? (digits ++ rest) = some rest := by
  -- The first digit is looked at alone, and the others are dropped together.
  obtain ⟨nonempty, digit⟩ := several
  obtain ⟨first, others, rfl⟩ := List.exists_cons_of_ne_nil nonempty
  have skipped : (others ++ rest).dropWhile Char.isDigit = rest := by
    rw [List.dropWhile_append_of_pos fun other member => digit other (by simp [member])]
    cases rest with
    | nil => rfl
    | cons character behind => exact List.dropWhile_cons_of_neg (by simp [stop character rfl])
  simp [skipDigits?, digit first (by simp), skipped]

/-- The exponent of a number begins with no digit and no point. -/
theorem ExponentText.head_ne {exponent : List Char} (written : ExponentText exponent) :
    ∀ character ∈ exponent.head?, character.isDigit = false ∧ character ≠ '.' := by
  -- An exponent begins with one of two letters.
  obtain rfl | ⟨mark, sign, digits, rfl, rfl | rfl, -⟩ := written <;> simp

/-- An exponent is known as one. -/
theorem ExponentText.isExponent_eq {exponent : List Char} (written : ExponentText exponent) :
    isExponent exponent = true := by
  -- The digits stand behind one of two letters and one of three signs.
  obtain rfl | ⟨mark, sign, digits, rfl, named, signed, several⟩ := written
  · rfl
  · have skipped : skipDigits? digits = some [] := by
      rw [← List.append_nil digits]
      exact several.skipDigits?_append (by simp)
    obtain ⟨first, others, rfl⟩ := List.exists_cons_of_ne_nil several.1
    have digit : first.isDigit = true := several.2 first (by simp)
    -- A digit is no sign.
    have plain : (first == '+' || first == '-') = false := by
      simp [ne_of_isDigit digit]
    rcases named with rfl | rfl <;> rcases signed with rfl | rfl | rfl <;>
      simp [isExponent, skipped, plain]

/-- The fraction and the exponent of a number are known as such. -/
theorem isNumberTail_append {fraction exponent : List Char} (fractional : FractionText fraction)
    (written : ExponentText exponent) : isNumberTail (fraction ++ exponent) = true := by
  -- What begins with a point is a fraction, and an exponent does not.
  obtain rfl | ⟨digits, rfl, several⟩ := fractional
  · unfold isNumberTail
    split
    · next rest same =>
      have point := (written.head_ne '.' (by rw [← List.nil_append exponent, same]; rfl)).2
      exact absurd rfl point
    · exact written.isExponent_eq
  · have stop := fun character first => (written.head_ne character first).1
    simp [isNumberTail, several.skipDigits?_append stop, written.isExponent_eq]

/-- Behind the whole part of a number stands no digit. -/
theorem FractionText.head_append_ne {fraction exponent : List Char}
    (fractional : FractionText fraction) (written : ExponentText exponent) :
    ∀ character ∈ (fraction ++ exponent).head?, character.isDigit = false := by
  -- A point or a letter stands there, or nothing.
  obtain rfl | ⟨digits, rfl, -⟩ := fractional
  · exact fun character first => (written.head_ne character first).1
  · simp

/-- The whole part of a number is skipped. -/
theorem WholeText.skipWhole?_append {whole : List Char} (written : WholeText whole)
    {rest : List Char} (stop : ∀ character ∈ rest.head?, character.isDigit = false) :
    skipWhole? (whole ++ rest) = some rest := by
  -- A zero in front is skipped alone.
  obtain rfl | ⟨several, zero⟩ := written
  · rfl
  · obtain ⟨first, others, rfl⟩ := List.exists_cons_of_ne_nil several.1
    unfold skipWhole?
    split
    · next same =>
      simp only [List.cons_append, List.cons.injEq] at same
      exact absurd (congrArg some same.1) zero
    · exact several.skipDigits?_append stop

/-- The whole part of a number is made of digits. -/
theorem WholeText.digits {whole : List Char} (written : WholeText whole) : Digits whole := by
  -- A zero alone is a digit too.
  obtain rfl | ⟨several, -⟩ := written
  · exact ⟨by simp, by simp⟩
  · exact several

/-- A number is read if nothing but a fraction and an exponent stands behind its digits. -/
theorem Number.isSome_ofLexeme? {lexeme unsigned tail : List Char}
    (signed : lexeme = '-' :: unsigned ∨ lexeme = unsigned ∧ lexeme.head? ≠ some '-')
    (skipped : skipWhole? unsigned = some tail) (good : isNumberTail tail = true) :
    (Number.ofLexeme? lexeme).isSome := by
  -- The sign is taken off first, and a number without a tail needs no further check.
  unfold Number.ofLexeme?
  extract_lets rest
  have skipped : skipWhole? rest = some tail := by
    obtain rfl | ⟨rfl, head⟩ := signed
    · exact skipped
    · unfold rest
      split
      · simp at head
      · exact skipped
  rw [skipped]
  cases tail with
  | nil =>
    dsimp only
    split <;> rfl
  | cons _ _ => simp [good]

/-- What is written as a number is read as one. -/
theorem NumberText.isSome_ofLexeme? {text : List Char} (number : NumberText text) :
    (Number.ofLexeme? text).isSome := by
  -- A digit in front is no sign.
  cases number with
  | positive written fractional powered =>
    obtain ⟨first, others, rfl⟩ := List.exists_cons_of_ne_nil written.digits.1
    have digit : first.isDigit = true := written.digits.2 first (by simp)
    refine Number.isSome_ofLexeme? (.inr ⟨rfl, ?_⟩)
      (written.skipWhole?_append (fractional.head_append_ne powered))
      (isNumberTail_append fractional powered)
    simp [ne_of_isDigit digit]
  | negative written fractional powered =>
    exact Number.isSome_ofLexeme? (.inl rfl)
      (written.skipWhole?_append (fractional.head_append_ne powered))
      (isNumberTail_append fractional powered)

/-- Digits are characters of numbers. -/
theorem Digits.isNumberPart {digits : List Char} (several : Digits digits) :
    ∀ character ∈ digits, isNumberPart character = true := fun character member => by
  simp [LanguageServer.isNumberPart, several.2 character member]

/-- The characters of numbers are those of which numbers are made. -/
theorem NumberText.isNumberPart {text : List Char} (number : NumberText text) :
    ∀ character ∈ text, isNumberPart character = true := by
  -- Each part of a number is looked at alone.
  have parts : ∀ {whole fraction exponent : List Char}, WholeText whole → FractionText fraction →
      ExponentText exponent →
      ∀ character ∈ whole ++ (fraction ++ exponent),
        LanguageServer.isNumberPart character = true := by
    intro whole fraction exponent written fractional powered
    refine List.forall_mem_append.mpr ⟨written.digits.isNumberPart,
      List.forall_mem_append.mpr ⟨?_, ?_⟩⟩
    · obtain rfl | ⟨digits, rfl, several⟩ := fractional
      · simp
      · exact List.forall_mem_cons.mpr ⟨rfl, several.isNumberPart⟩
    · obtain rfl | ⟨mark, sign, digits, rfl, named, signed, several⟩ := powered
      · simp
      · refine List.forall_mem_cons.mpr ⟨?_, List.forall_mem_append.mpr ⟨?_, several.isNumberPart⟩⟩
        · rcases named with rfl | rfl <;> rfl
        · rcases signed with rfl | rfl | rfl <;> simp [LanguageServer.isNumberPart]
  cases number with
  | positive written fractional powered => exact parts written fractional powered
  | negative written fractional powered =>
    exact List.forall_mem_cons.mpr ⟨rfl, parts written fractional powered⟩

/-- A number begins with a digit or with its sign. -/
theorem NumberText.exists_cons {text : List Char} (number : NumberText text) :
    ∃ first others, text = first :: others ∧
      Lexer.step ⟨.between, []⟩ first = ⟨.number [first], []⟩ := by
  -- A digit is no blank, no quote and no letter.
  cases number with
  | positive written _ _ =>
    obtain ⟨first, others, rfl⟩ := List.exists_cons_of_ne_nil written.digits.1
    have digit : first.isDigit = true := written.digits.2 first (by simp)
    refine ⟨first, _, rfl, ?_⟩
    simp [Lexer.step, Lexer.between, lexBetween, isJsonBlank, digit, ne_of_isDigit digit]
  | negative _ _ _ => exact ⟨_, _, rfl, rfl⟩

/-- A number is one token. -/
theorem NumberText.lexed {text : List Char} (number : NumberText text) :
    ∃ value, Lexed text [.number value] := by
  -- The first character decides that a number follows, and a delimiter ends it.
  obtain ⟨value, found⟩ := Option.isSome_iff_exists.mp number.isSome_ofLexeme?
  obtain ⟨first, others, rfl, step⟩ := number.exists_cons
  have token : numberToken (others.reverse ++ [first]) = .number value := by
    simp [numberToken, found]
  have parts := fun other member => number.isNumberPart other (List.mem_cons_of_mem first member)
  refine ⟨value, fun rest delimited => ?_⟩
  rw [List.cons_append, tokens_eq, tokensFrom_cons_of_step step,
    tokensFrom_number parts (by simp [token]) delimited, token]
  rfl

/-- A word that means something is one token. -/
theorem lexed_word {word : List Char} {token : Token}
    (read : ∀ rest, tokens (word ++ rest) = tokensFrom (.word word.reverse) rest)
    (meant : wordToken word.reverse = token) (valid : token ≠ .invalid) :
    Lexed word [token] := fun rest delimited => by
  -- A delimiter ends the word.
  rw [read, tokensFrom_word (by rwa [meant]) delimited, meant]
  rfl

/-- Null is one token. -/
theorem lexed_null : Lexed "null".toList [.null] :=
  lexed_word (fun _ => rfl) rfl (by decide)

/-- A string is one token. -/
theorem StringText.lexed {meant : Option String} {text : List Char}
    (string : StringText meant text) : Lexed text [.string meant] := fun rest _ =>
  string.tokens_append rest

/-- A mark ends the word or the number in front of it. -/
theorem delimited_mark {mark : Char} (plain : mark.isAlphanum = false)
    (other : isNumberPart mark = false) (rest : List Char) : Delimited (mark :: rest) := by
  -- No mark belongs to a word or a number.
  simp [Delimited, plain, other]

/-- Blanks on both sides of a value change nothing. -/
theorem Item.Spaced.lexed {item : Item} (spaced : item.Spaced) {made : List Token}
    (value : Lexed item.value made) : Lexed item.text made := fun rest delimited => by
  -- The blanks behind a value are its delimiter.
  rw [Item.text, List.append_assoc, List.append_assoc, tokens_blanks spaced.1,
    value _ (spaced.2.delimited_append delimited), tokens_blanks spaced.2]

/-- The tokens of an array, by those of its items. -/
def arrayTokens (items : List (List Token)) : List Token :=
  -- Commas stand between items only.
  .openArray :: ([Token.comma].intercalate items ++ [.closeArray])

/-- The tokens of a member. -/
def memberTokens (member : Option String × List Token) : List Token :=
  -- A name that is no text keeps its place.
  .string member.1 :: .colon :: member.2

/-- The tokens of an object, by the names and the values of its members. -/
def objectTokens (members : List (Option String × List Token)) : List Token :=
  -- Commas stand between members only.
  .openObject :: ([Token.comma].intercalate (members.map memberTokens) ++ [.closeObject])

/-- A member is a name, a colon and a value. -/
theorem Member.WellFormed.lexed {member : Member} (formed : member.WellFormed)
    {made : List Token} (value : Lexed member.value.value made) :
    Lexed member.text (memberTokens (member.key, made)) := fun rest delimited => by
  -- The colon is the delimiter of the name.
  rw [Member.text, List.append_assoc, List.cons_append,
    formed.nameSpaced.lexed formed.name.lexed _ (delimited_mark rfl rfl _), tokens_mark rfl,
    formed.valueSpaced.lexed value rest delimited]
  rfl

/-- Parts between commas are read one after another. -/
theorem lexed_intercalate {α : Type} {parts : List α} {written : α → List Char}
    {made : α → List Token} (each : ∀ part ∈ parts, Lexed (written part) (made part)) :
    Lexed ([','].intercalate (parts.map written)) ([Token.comma].intercalate (parts.map made)) := by
  -- A comma ends the word or the number in front of it.
  induction parts with
  | nil => exact fun rest _ => rfl
  | cons part others ih =>
    have first := each part (by simp)
    have later := ih fun other member => each other (by simp [member])
    cases others with
    | nil => simpa using first
    | cons next behind =>
      intro rest delimited
      simp only [List.map_cons, List.intercalate_cons_cons] at later ⊢
      rw [List.append_assoc, List.append_assoc, List.singleton_append,
        first _ (delimited_mark rfl rfl _), tokens_mark rfl, later rest delimited]
      simp

/-- An array is the tokens of its items between brackets. -/
theorem lexed_arrayText {blanks : List Char} {items : List Item} (blank : Blanks blanks)
    (spaced : ∀ item ∈ items, item.Spaced)
    (each : ∀ item ∈ items, Lexed item.value (tokens item.value)) :
    Lexed (arrayText blanks items) (arrayTokens (items.map fun item => tokens item.value)) := by
  -- The bracket is the delimiter of the last item.
  have inner : Lexed ([','].intercalate (items.map Item.text))
      ([Token.comma].intercalate (items.map fun item => tokens item.value)) :=
    lexed_intercalate fun item member => (spaced item member).lexed (each item member)
  intro rest _
  rw [arrayText, List.cons_append, tokens_mark rfl, List.append_assoc, tokens_blanks blank,
    List.append_assoc, List.singleton_append, inner _ (delimited_mark rfl rfl _), tokens_mark rfl]
  simp [arrayTokens]

/-- What is read of a member: its name and the tokens of its value. -/
def Member.read (member : Member) : Option String × List Token :=
  -- Blanks are no longer there.
  (member.key, tokens member.value.value)

/-- An object is the tokens of its members between braces. -/
theorem lexed_objectText {blanks : List Char} {members : List Member} (blank : Blanks blanks)
    (formed : ∀ member ∈ members, member.WellFormed)
    (each : ∀ member ∈ members, Lexed member.value.value (tokens member.value.value)) :
    Lexed (objectText blanks members) (objectTokens (members.map Member.read)) := by
  -- The brace is the delimiter of the last member.
  have inner : Lexed ([','].intercalate (members.map Member.text))
      ([Token.comma].intercalate (members.map fun member => memberTokens member.read)) :=
    lexed_intercalate fun member held => (formed member held).lexed (each member held)
  intro rest _
  rw [objectText, List.cons_append, tokens_mark rfl, List.append_assoc, tokens_blanks blank,
    List.append_assoc, List.singleton_append, inner _ (delimited_mark rfl rfl _), tokens_mark rfl]
  simp [objectTokens, Function.comp_def]

/-- The tokens of a value. -/
inductive ValueTokens : List Token → Prop where
  | null : ValueTokens [.null]
  | bool (value : Bool) : ValueTokens [.bool value]
  | number (value : Number) : ValueTokens [.number value]
  | string (value : Option String) : ValueTokens [.string value]
  | array {items : List (List Token)} : (∀ item ∈ items, ValueTokens item) →
    ValueTokens (arrayTokens items)
  | object {members : List (Option String × List Token)} :
    (∀ member ∈ members, ValueTokens member.2) → ValueTokens (objectTokens members)

/-- The text of a value gives the tokens of a value. -/
theorem JsonText.lexed {text : List Char} (json : JsonText text) :
    ValueTokens (tokens text) ∧ Lexed text (tokens text) := by
  -- The tokens of a container are put together from those that the induction gives.
  induction json with
  | null => exact lexed_null.apply_tokens .null
  | truth => exact (lexed_word (fun _ => rfl) rfl (by decide)).apply_tokens (.bool true)
  | falsehood => exact (lexed_word (fun _ => rfl) rfl (by decide)).apply_tokens (.bool false)
  | number number =>
    obtain ⟨value, lexed⟩ := number.lexed
    exact lexed.apply_tokens (.number value)
  | string string => exact string.lexed.apply_tokens (.string _)
  | array blank spaced _ ih =>
    have lexed := lexed_arrayText blank spaced fun item member => (ih item member).2
    have values := List.forall_mem_map.mpr fun item member => (ih item member).1
    exact lexed.apply_tokens (.array values)
  | object blank formed _ ih =>
    have lexed := lexed_objectText blank formed fun member held => (ih member held).2
    exact lexed.apply_tokens
      (.object (List.forall_mem_map.mpr fun member held => (ih member held).1))

end LanguageServer

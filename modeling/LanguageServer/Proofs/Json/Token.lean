import LanguageServer.Json.Token
import LanguageServer.Proofs.Json.Grammar
import LanguageServer.Proofs.Text.Utf8

/-! Text is read token by token, and strings as the texts that their units spell. -/

namespace LanguageServer

/-- The tokens of a text that is read from some mode on. -/
def tokensFrom (mode : LexMode) (text : List Char) : List Token :=
  -- Nothing has been read before.
  (text.foldl Lexer.step ⟨mode, []⟩).finish

/-- Reading starts between two tokens. -/
theorem tokens_eq (text : List Char) : tokens text = tokensFrom .between text := rfl

namespace Lexer

/-- A step between tokens does not look at the tokens that were read. -/
private theorem between_eq (mode : LexMode) (made : List Token) (character : Char) :
    (⟨mode, made⟩ : Lexer).between character =
      ⟨((⟨mode, []⟩ : Lexer).between character).mode,
        ((⟨mode, []⟩ : Lexer).between character).tokens ++ made⟩ := by
  -- The character may be a token of its own.
  unfold between
  split <;> rfl

/-- A step that ends a token does not look at the tokens that were read. -/
private theorem endWith_eq (mode : LexMode) (made : List Token) (token : Token)
    (character : Char) :
    (⟨mode, made⟩ : Lexer).endWith token character =
      ⟨((⟨mode, []⟩ : Lexer).endWith token character).mode,
        ((⟨mode, []⟩ : Lexer).endWith token character).tokens ++ made⟩ := by
  -- The character behind the token is looked at between tokens.
  simp only [endWith, emit]
  split
  · rfl
  · rw [between_eq, between_eq _ [token]]
    simp

/-- No step looks at the tokens that were read. -/
private theorem step_eq (mode : LexMode) (made : List Token) (character : Char) :
    (⟨mode, made⟩ : Lexer).step character =
      ⟨((⟨mode, []⟩ : Lexer).step character).mode,
        ((⟨mode, []⟩ : Lexer).step character).tokens ++ made⟩ := by
  -- Only a step that ends a token adds to the list, and it adds to its front.
  cases mode with
  | between => exact between_eq .between made character
  | word read =>
    simp only [step]
    split
    · rfl
    · exact endWith_eq _ made _ character
  | number read =>
    simp only [step]
    split
    · rfl
    · exact endWith_eq _ made _ character
  | string body =>
    simp only [step]
    repeat' split
    all_goals rfl
  | escape body =>
    simp only [step]
    repeat' split
    all_goals rfl
  | unit body value owed =>
    simp only [step]
    repeat' split
    all_goals rfl
  | stopped => rfl

/-- Tokens that were read stay in front of those that follow. -/
private theorem foldl_step_eq (text : List Char) (mode : LexMode) (made : List Token) :
    text.foldl step ⟨mode, made⟩ =
      ⟨(text.foldl step ⟨mode, []⟩).mode, (text.foldl step ⟨mode, []⟩).tokens ++ made⟩ := by
  -- The induction is on the text, with any tokens in front.
  induction text generalizing mode made with
  | nil => rfl
  | cons character rest ih =>
    simp only [List.foldl_cons]
    rw [step_eq, ih, ih _ (step ⟨mode, []⟩ character).tokens]
    simp

end Lexer

/-- A character gives the tokens that it ends, and reading goes on in the mode behind it. -/
theorem tokensFrom_cons (mode : LexMode) (character : Char) (rest : List Char) :
    tokensFrom mode (character :: rest) =
      (Lexer.step ⟨mode, []⟩ character).tokens.reverse ++
        tokensFrom (Lexer.step ⟨mode, []⟩ character).mode rest := by
  -- The tokens that were read are put in front of the others in the end.
  have finish : ∀ (lexer : Lexer) (made : List Token),
      Lexer.finish ⟨lexer.mode, lexer.tokens ++ made⟩ = made.reverse ++ lexer.finish := by
    intro lexer made
    unfold Lexer.finish
    split <;> simp_all
  rw [tokensFrom, List.foldl_cons]
  exact (congrArg Lexer.finish (Lexer.foldl_step_eq rest _ _)).trans (finish _ _)

/-- A character that ends no token only changes the mode. -/
theorem tokensFrom_cons_of_step {mode next : LexMode} {character : Char}
    (step : Lexer.step ⟨mode, []⟩ character = ⟨next, []⟩) (rest : List Char) :
    tokensFrom mode (character :: rest) = tokensFrom next rest := by
  -- Nothing is put in front of the tokens that follow.
  rw [tokensFrom_cons, step]
  rfl

/-- A mark is a token of its own. -/
theorem tokens_mark {mark : Char} {token : Token}
    (step : Lexer.step ⟨.between, []⟩ mark = ⟨.between, [token]⟩) (rest : List Char) :
    tokens (mark :: rest) = token :: tokens rest := by
  -- The machine is between tokens again.
  rw [tokens_eq, tokensFrom_cons, step]
  rfl

/-- Blanks are no tokens. -/
theorem tokens_blanks {blanks : List Char} (blank : Blanks blanks) (rest : List Char) :
    tokens (blanks ++ rest) = tokens rest := by
  -- Each of the four characters leaves the machine between tokens.
  induction blanks with
  | nil => rfl
  | cons character others ih =>
    have step : Lexer.step ⟨.between, []⟩ character = ⟨.between, []⟩ := by
      have one := blank character (by simp)
      simp only [List.mem_cons, List.not_mem_nil, or_false] at one
      rcases one with rfl | rfl | rfl | rfl <;> rfl
    rw [List.cons_append, tokens_eq, tokensFrom_cons_of_step step, ← tokens_eq,
      ih fun other member => blank other (by simp [member])]

/-- A word or number that has ended is a token, and reading goes on behind it. -/
theorem tokensFrom_ended {mode : LexMode} {token : Token} (valid : token ≠ .invalid)
    (finish : Lexer.finish ⟨mode, []⟩ = [token]) {rest : List Char}
    (ended : ∀ character ∈ rest.head?,
      Lexer.step ⟨mode, []⟩ character = Lexer.endWith ⟨mode, []⟩ token character) :
    tokensFrom mode rest = token :: tokens rest := by
  -- The delimiter is looked at as between tokens.
  cases rest with
  | nil => exact finish
  | cons character others =>
    have step : Lexer.step ⟨mode, []⟩ character =
        ⟨(Lexer.step ⟨.between, []⟩ character).mode,
          (Lexer.step ⟨.between, []⟩ character).tokens ++ [token]⟩ := by
      rw [ended character rfl, Lexer.endWith, if_neg valid, Lexer.emit, modeBehind, if_neg valid]
      exact Lexer.between_eq .between [token] character
    rw [tokensFrom_cons, step, tokens_eq, tokensFrom_cons]
    simp

/-- A unit that is no surrogate is that of its character. -/
theorem utf16_ofNat {unit : Nat} (small : unit < 0x10000)
    (plain : unit < 0xD800 ∨ 0xE000 ≤ unit) : utf16 (Char.ofNat unit) = [unit] := by
  -- Its code point exists and takes one unit.
  have valid : unit.isValidChar := by
    unfold Nat.isValidChar
    omega
  rw [utf16, toNat_ofNat_of_isValidChar valid, if_pos small]

/-- Two surrogates in order are those of one character. -/
theorem utf16_ofNat_pair {first second : Nat} (high : 0xD800 ≤ first ∧ first < 0xDC00)
    (low : 0xDC00 ≤ second ∧ second < 0xE000) :
    utf16 (Char.ofNat (0x10000 + 1024 * (first - 0xD800) + (second - 0xDC00))) =
      [first, second] := by
  -- Ten bits of the code point come from each half.
  have valid : (0x10000 + 1024 * (first - 0xD800) + (second - 0xDC00)).isValidChar := by
    unfold Nat.isValidChar
    omega
  rw [utf16, toNat_ofNat_of_isValidChar valid, if_neg (by omega)]
  simp only [List.cons.injEq, and_true]
  omega

namespace StringBody

/-- The first half of a pair waits for its partner. -/
theorem pushUnit_of_high (body : StringBody) {unit : Nat} (high : 0xD800 ≤ unit ∧ unit < 0xDC00) :
    body.pushUnit unit = ⟨body.read, some unit, body.paired && body.half.isNone⟩ :=
  if_pos high

/-- The second half of a pair makes a character with the first one. -/
theorem pushUnit_of_low (read : List Char) (first : Nat) (paired : Bool) {unit : Nat}
    (low : 0xDC00 ≤ unit ∧ unit < 0xE000) :
    pushUnit ⟨read, some first, paired⟩ unit =
      ⟨Char.ofNat (0x10000 + 1024 * (first - 0xD800) + (unit - 0xDC00)) :: read, none, paired⟩ := by
  -- The ranges of the two halves do not meet.
  rw [pushUnit, if_neg (by omega), if_pos low]

/-- A unit that is no surrogate is added as its character. -/
theorem pushUnit_of_plain (body : StringBody) {unit : Nat}
    (plain : unit < 0xD800 ∨ 0xE000 ≤ unit) : body.pushUnit unit = body.push (Char.ofNat unit) := by
  -- It is in neither range.
  rw [pushUnit, if_neg (by omega), if_neg (by omega)]

/-- A character is added to a string as its units are. -/
theorem push_eq (body : StringBody) (character : Char) :
    body.push character = (utf16 character).foldl pushUnit body := by
  -- Two surrogates find each other at once, whatever was left alone before.
  have valid : character.toNat.isValidChar := character.valid
  have same : Char.ofNat character.toNat = character := Char.ofNat_toNat character
  unfold Nat.isValidChar at valid
  unfold utf16
  split
  · rw [List.foldl_cons, List.foldl_nil, pushUnit_of_plain body (by omega), same]
  · have code : 0x10000 + 1024 * (0xD800 + (character.toNat - 0x10000) / 1024 - 0xD800) +
        (0xDC00 + (character.toNat - 0x10000) % 1024 - 0xDC00) = character.toNat := by
      omega
    rw [List.foldl_cons, List.foldl_cons, List.foldl_nil, pushUnit_of_high body (by omega),
      pushUnit_of_low _ _ _ (by omega), code, same, push]

/-- The units of a text are added as its characters. -/
theorem foldl_pushUnit_utf16 (text read : List Char) :
    (text.flatMap utf16).foldl pushUnit ⟨read, none, true⟩ =
      ⟨text.reverse ++ read, none, true⟩ := by
  -- No half is left over between two characters.
  induction text generalizing read with
  | nil => rfl
  | cons character rest ih =>
    rw [List.flatMap_cons, List.foldl_append, ← push_eq]
    simpa [push] using ih (character :: read)

/-- A half that has lost its partner is never made good. -/
theorem paired_foldl_pushUnit (units : List Nat) {body : StringBody} (lost : body.paired = false) :
    (units.foldl pushUnit body).paired = false := by
  -- No unit sets the mark again.
  induction units generalizing body with
  | nil => exact lost
  | cons unit rest ih =>
    refine ih ?_
    unfold pushUnit
    repeat' split
    all_goals simp [push, lost]

/-- Units that leave no half alone are those of a text. -/
theorem exists_text_of_paired (units : List Nat) (small : ∀ unit ∈ units, unit < 0x10000)
    (read : List Char) (paired : (units.foldl pushUnit ⟨read, none, true⟩).paired = true)
    (complete : (units.foldl pushUnit ⟨read, none, true⟩).half = none) :
    ∃ text : List Char, units = text.flatMap utf16 := by
  -- The units of a character beyond the basic plane are taken two at a time.
  match units with
  | [] => exact ⟨[], rfl⟩
  | [unit] =>
    by_cases high : 0xD800 ≤ unit ∧ unit < 0xDC00
    · simp [pushUnit_of_high _ high] at complete
    · by_cases low : 0xDC00 ≤ unit ∧ unit < 0xE000
      · simp [pushUnit, high, low] at paired
      · exact ⟨[Char.ofNat unit], by simp [utf16_ofNat (small unit (by simp)) (by omega)]⟩
  | unit :: next :: rest =>
    by_cases high : 0xD800 ≤ unit ∧ unit < 0xDC00
    · by_cases low : 0xDC00 ≤ next ∧ next < 0xE000
      · rw [List.foldl_cons, List.foldl_cons, pushUnit_of_high _ high,
          pushUnit_of_low _ _ _ low] at paired complete
        obtain ⟨text, rfl⟩ := exists_text_of_paired rest
          (fun other member => small other (by simp [member])) _ paired complete
        exact ⟨_ :: text, by rw [List.flatMap_cons, utf16_ofNat_pair high low]; rfl⟩
      · have lost : (pushUnit ⟨read, some unit, true⟩ next).paired = false := by
          rw [pushUnit, if_neg low]
          split <;> rfl
        rw [List.foldl_cons, List.foldl_cons, pushUnit_of_high _ high] at paired
        exact absurd (paired.symm.trans (paired_foldl_pushUnit rest lost)) (by decide)
    · by_cases low : 0xDC00 ≤ unit ∧ unit < 0xE000
      · have lost : (pushUnit ⟨read, none, true⟩ unit).paired = false := by
          simp [pushUnit, high, low]
        rw [List.foldl_cons, paired_foldl_pushUnit _ lost] at paired
        cases paired
      · rw [List.foldl_cons, pushUnit_of_plain _ (by omega)] at paired complete
        obtain ⟨text, same⟩ := exists_text_of_paired (next :: rest)
          (fun other member => small other (by simp [member])) _ paired complete
        exact ⟨Char.ofNat unit :: text, by
          rw [List.flatMap_cons, utf16_ofNat (small unit (by simp)) (by omega), same]; rfl⟩
termination_by units.length

/-- The value of a string is the text of its units, if they are those of a text. -/
theorem value?_foldl_pushUnit {units : List Nat} (small : ∀ unit ∈ units, unit < 0x10000)
    (value : String) :
    (units.foldl pushUnit ⟨[], none, true⟩).value? = some value ↔
      units = value.toList.flatMap utf16 := by
  -- A text that is read back from its units is the only one with them.
  have read : ∀ text : List Char,
      ((text.flatMap utf16).foldl pushUnit ⟨[], none, true⟩).value? =
        some (String.ofList text) := by
    intro text
    simp [foldl_pushUnit_utf16, value?]
  constructor
  · intro found
    have alone := found
    simp only [value?, Option.ite_none_right_eq_some, Bool.and_eq_true,
      Option.isNone_iff_eq_none] at alone
    obtain ⟨text, rfl⟩ := exists_text_of_paired units small [] alone.1.1 alone.1.2
    rw [read, Option.some.injEq] at found
    rw [← found, String.toList_ofList]
  · rintro rfl
    rw [read, String.ofList_toList]

end StringBody

/-- A hexadecimal digit is read as its value. -/
theorem hexDigit?_of_isHexDigit {value : Nat} {digit : Char} (digits : IsHexDigit value digit) :
    hexDigit? digit = some value := by
  -- There are thirty-two digits to look at.
  have lower : ∀ value < 16, hexDigit? (Nat.digitChar value) = some value := by decide
  have upper : ∀ value < 16, hexDigit? (Nat.digitChar value).toUpper = some value := by decide
  obtain ⟨small, rfl | rfl⟩ := digits
  · exact lower value small
  · exact upper value small

/-- The characters with an escape of one letter are read by it, and none of them is a surrogate. -/
theorem escaped?_of_mem {letter meant : Char} (short : (letter, meant) ∈ shortEscapes) :
    letter ≠ 'u' ∧ escaped? letter = some meant ∧ meant.toNat < 0x80 := by
  -- There are eight pairs to look at.
  have all : ∀ pair ∈ shortEscapes,
      pair.1 ≠ 'u' ∧ escaped? pair.1 = some pair.2 ∧ pair.2.toNat < 0x80 := by decide
  exact all _ short

namespace Spelled

variable {units : List Nat} {text : List Char}

/-- No unit has more than sixteen bits. -/
theorem unit_lt (spelled : Spelled units text) : ∀ unit ∈ units, unit < 0x10000 := by
  -- The induction is on the parts of the string.
  induction spelled with
  | nil => simp
  | @plain character _ _ _ _ _ _ ih =>
    have valid : character.toNat.isValidChar := character.valid
    unfold Nat.isValidChar at valid
    intro unit member
    obtain first | later := List.mem_append.mp member
    · unfold utf16 at first
      split at first
      all_goals
        simp only [List.mem_cons, List.not_mem_nil, or_false] at first
        omega
    · exact ih unit later
  | short pair _ ih =>
    have small := (escaped?_of_mem pair).2.2
    exact List.forall_mem_cons.mpr ⟨by omega, ih⟩
  | unit first second third fourth _ ih =>
    have bounds := And.intro first.1 (And.intro second.1 (And.intro third.1 fourth.1))
    exact List.forall_mem_cons.mpr ⟨by omega, ih⟩

/-- What stands between quotes is added to the string unit by unit. -/
theorem tokensFrom_append (spelled : Spelled units text) (body : StringBody) (rest : List Char) :
    tokensFrom (.string body) (text ++ rest) =
      tokensFrom (.string (units.foldl StringBody.pushUnit body)) rest := by
  -- The machine comes back to the string behind each character and each escape.
  induction spelled generalizing body with
  | nil => rfl
  | @plain character _ _ quote backslash printed _ ih =>
    have step : Lexer.step ⟨.string body, []⟩ character = ⟨.string (body.push character), []⟩ := by
      simp [Lexer.step, quote, backslash, Nat.not_lt.mpr printed]
    rw [List.cons_append, tokensFrom_cons_of_step step, ih, List.foldl_append,
      StringBody.push_eq]
  | @short letter meant _ _ pair _ ih =>
    obtain ⟨other, found, small⟩ := escaped?_of_mem pair
    have step : Lexer.step ⟨.escape body, []⟩ letter = ⟨.string (body.push meant), []⟩ := by
      simp [Lexer.step, other, found]
    have pushed : body.pushUnit meant.toNat = body.push meant := by
      rw [StringBody.pushUnit_of_plain body (by omega), Char.ofNat_toNat]
    rw [List.cons_append, List.cons_append, tokensFrom_cons_of_step rfl,
      tokensFrom_cons_of_step step, ih, List.foldl_cons, pushed]
  | unit first second third fourth _ ih =>
    -- The value so far takes one digit at a time.
    have step {value digit owed : Nat} {character : Char} (digits : IsHexDigit digit character) :
        Lexer.step ⟨.unit body value (owed + 2), []⟩ character =
          ⟨.unit body (16 * value + digit) (owed + 1), []⟩ := by
      simp [Lexer.step, hexDigit?_of_isHexDigit digits]
    have last {value digit : Nat} {character : Char} (digits : IsHexDigit digit character) :
        Lexer.step ⟨.unit body value 1, []⟩ character =
          ⟨.string (body.pushUnit (16 * value + digit)), []⟩ := by
      simp [Lexer.step, hexDigit?_of_isHexDigit digits]
    simp only [List.cons_append]
    rw [tokensFrom_cons_of_step rfl, tokensFrom_cons_of_step rfl,
      tokensFrom_cons_of_step (step first), tokensFrom_cons_of_step (step second),
      tokensFrom_cons_of_step (step third), tokensFrom_cons_of_step (last fourth), ih,
      List.foldl_cons]
    congr 5
    omega

end Spelled

/-- Whatever stands between quotes is a string, of a text or of none. -/
theorem Spelled.stringText {units : List Nat} {text : List Char} (spelled : Spelled units text) :
    StringText (units.foldl StringBody.pushUnit ⟨[], none, true⟩).value? ('"' :: text ++ ['"']) :=
  ⟨units, text, spelled, rfl, StringBody.value?_foldl_pushUnit spelled.unit_lt⟩

/-- A text without quotes, backslashes and controls may be written as it is. -/
theorem spelled_of_plain {text : List Char}
    (plain : ∀ character ∈ text,
      character ≠ '"' ∧ character ≠ '\\' ∧ 0x20 ≤ character.toNat) :
    Spelled (text.flatMap utf16) text := by
  -- Every character stands for its own units.
  induction text with
  | nil => exact .nil
  | cons character others ih =>
    obtain ⟨quote, backslash, printed⟩ := plain character (by simp)
    exact .plain quote backslash printed (ih fun other member => plain other (by simp [member]))

/-- A text that is written as it is means itself. -/
theorem stringText_of_plain {name : String}
    (plain : ∀ character ∈ name.toList,
      character ≠ '"' ∧ character ≠ '\\' ∧ 0x20 ≤ character.toNat) :
    StringText (some name) ('"' :: name.toList ++ ['"']) := by
  -- Its units are read back as its characters.
  simpa [StringBody.foldl_pushUnit_utf16, StringBody.value?] using
    (spelled_of_plain plain).stringText

/-- A string is one token, with the text that is meant. -/
theorem StringText.tokens_append {meant : Option String} {text : List Char}
    (string : StringText meant text) (rest : List Char) :
    tokens (text ++ rest) = .string meant :: tokens rest := by
  -- The value of the string is read at the closing quote.
  obtain ⟨units, spelled, spells, rfl, means⟩ := string
  have value : (units.foldl StringBody.pushUnit ⟨[], none, true⟩).value? = meant :=
    Option.ext fun value =>
      (StringBody.value?_foldl_pushUnit spells.unit_lt value).trans (means value).symm
  have close : Lexer.step ⟨.string (units.foldl StringBody.pushUnit ⟨[], none, true⟩), []⟩ '"' =
      ⟨.between, [.string meant]⟩ := by
    simp [Lexer.step, Lexer.emit, modeBehind, value]
  rw [List.cons_append, List.cons_append, List.append_assoc, tokens_eq,
    tokensFrom_cons_of_step rfl, spells.tokensFrom_append, List.singleton_append, tokensFrom_cons,
    close]
  rfl

end LanguageServer

import Mathlib.Algebra.Ring.Nat
import Mathlib.Data.List.TakeWhile
import LanguageServer.Text.LeadingInteger

/-! The integer at the start of a text is the one that was written there. -/

namespace LanguageServer

/-- Blanks at the start of a text are dropped, whatever follows them. -/
theorem trimLeft_append {blanks : List Char} (blank : ∀ character ∈ blanks, isBlank character)
    (text : List Char) : trimLeft (blanks ++ text) = trimLeft text :=
  -- Dropping goes on past them.
  List.dropWhile_append_of_pos blank

/-- A character that is not blank keeps the text behind it. -/
theorem trimLeft_cons_of_not_blank {character : Char} (visible : isBlank character = false)
    (rest : List Char) : trimLeft (character :: rest) = character :: rest := by
  -- Dropping stops at once.
  simp [trimLeft, visible]

/-- Decimal digits are the ten code points from that of zero. -/
theorem isDecimalDigit_iff {character : Char} :
    isDecimalDigit character = true ↔ 48 ≤ character.toNat ∧ character.toNat ≤ 57 := by
  -- Characters are ordered by their code points.
  simp only [isDecimalDigit, Bool.and_eq_true, decide_eq_true_eq, Char.le_def,
    UInt32.le_iff_toNat_le]
  rfl

/-- A decimal digit is not blank. -/
theorem not_blank_of_digit {character : Char} (digit : isDecimalDigit character = true) :
    isBlank character = false := by
  -- No run of blanks reaches the digits.
  obtain ⟨low, high⟩ := isDecimalDigit_iff.mp digit
  simp [isBlank, blankRuns]
  omega

/-- A text that starts with a decimal digit has no sign. -/
theorem splitSign_of_digit {character : Char} (digit : isDecimalDigit character = true)
    (rest : List Char) : splitSign (character :: rest) = (1, character :: rest) := by
  -- Neither sign is a digit.
  unfold splitSign
  split
  · rename_i same
    cases same
    exact absurd digit (by decide)
  · rename_i same
    cases same
    exact absurd digit (by decide)
  · rfl

/-- The characters of a written number are decimal digits. -/
theorem isDecimalDigit_of_mem_toDigits {number : Nat} {character : Char}
    (member : character ∈ Nat.toDigits 10 number) : isDecimalDigit character = true := by
  -- The two notions of a digit name the same characters.
  have digit : character.isDigit = true :=
    Nat.isDigit_of_mem_toDigits (by decide) (by decide) member
  rw [isDecimalDigit_iff]
  simp only [Char.isDigit, Bool.and_eq_true, decide_eq_true_eq, ge_iff_le,
    UInt32.le_iff_toNat_le] at digit
  exact digit

/-- A text that does not start with a digit, before another such text, does not start with one. -/
theorem takeWhile_digits_append {text more : List Char}
    (stops : ∀ character ∈ text.head?, isDecimalDigit character = false)
    (stopsMore : ∀ character ∈ more.head?, isDecimalDigit character = false) :
    (text ++ more).takeWhile isDecimalDigit = [] := by
  -- The first character of the first text that has one decides.
  cases text with
  | cons first rest => simp [stops first rfl]
  | nil =>
    cases more with
    | nil => rfl
    | cons first rest => simp [stopsMore first rfl]

/-- The sign before the digits of an integer. -/
inductive Sign where
  | absent
  | plus
  | minus
  deriving DecidableEq, Repr

/-- A sign as it is written. -/
def Sign.text : Sign → List Char
  -- An absent sign takes no character.
  | .absent => []
  | .plus => ['+']
  | .minus => ['-']

/-- The factor that a sign stands for. -/
def Sign.factor : Sign → Int
  -- Only a minus changes the number.
  | .absent => 1
  | .plus => 1
  | .minus => -1

/-- Different signs are written differently. -/
theorem Sign.text_injective : Function.Injective Sign.text := by
  -- Each pair of signs is compared.
  intro first second same
  cases first <;> cases second <;> first | rfl | cases same

/-- Whatever a text starts with, the sign that is taken off was written there. -/
theorem exists_sign (text : List Char) : ∃ sign : Sign, text = sign.text ++ (splitSign text).2 := by
  -- The cases are those of the two signs and of anything else.
  unfold splitSign
  split
  · exact ⟨.minus, rfl⟩
  · exact ⟨.plus, rfl⟩
  · exact ⟨.absent, rfl⟩

/-- The parts of a text that starts with an integer. -/
structure Numeral where
  blanks : List Char
  sign : Sign
  digits : List Char
  /-- What stands behind the digits. -/
  rest : List Char
  deriving DecidableEq, Repr

namespace Numeral

/-- The text that the parts of a numeral make up. -/
def text (numeral : Numeral) : List Char :=
  -- The sign stands directly before the digits.
  numeral.blanks ++ (numeral.sign.text ++ (numeral.digits ++ numeral.rest))

/-- The number that the digits of a numeral write. -/
def magnitude (numeral : Numeral) : Nat :=
  -- Zeros at the front do not count.
  Nat.ofDigitChars 10 numeral.digits 0

/-- The integer that a numeral writes. -/
def value (numeral : Numeral) : Int :=
  -- Zero may be written with either sign.
  numeral.sign.factor * numeral.magnitude

/-- Whether the parts of a numeral are what they are called and its digits do not go on. -/
structure WellFormed (numeral : Numeral) : Prop where
  blank : ∀ character ∈ numeral.blanks, isBlank character
  digital : ∀ character ∈ numeral.digits, isDecimalDigit character
  written : numeral.digits ≠ []
  ends : ∀ character ∈ numeral.rest.head?, isDecimalDigit character = false

variable {numeral : Numeral}

/-- Trimming takes the blanks of a numeral off and nothing else. -/
theorem WellFormed.trimLeft_text (wellFormed : numeral.WellFormed) :
    trimLeft numeral.text = numeral.sign.text ++ (numeral.digits ++ numeral.rest) := by
  -- Neither a sign nor a digit is blank.
  obtain ⟨digit, others, shape⟩ := List.exists_cons_of_ne_nil wellFormed.written
  have digital : isDecimalDigit digit = true := wellFormed.digital digit (by simp [shape])
  rw [text, trimLeft_append wellFormed.blank]
  cases numeral.sign with
  | absent =>
    rw [shape]
    exact trimLeft_cons_of_not_blank (not_blank_of_digit digital) _
  | plus => rfl
  | minus => rfl

/-- Reading passes over the blanks of a numeral and takes its sign off. -/
theorem WellFormed.splitSign_trimLeft (wellFormed : numeral.WellFormed) :
    splitSign (trimLeft numeral.text) =
      (numeral.sign.factor, numeral.digits ++ numeral.rest) := by
  -- No digit is a sign.
  obtain ⟨digit, others, shape⟩ := List.exists_cons_of_ne_nil wellFormed.written
  have digital : isDecimalDigit digit = true := wellFormed.digital digit (by simp [shape])
  rw [wellFormed.trimLeft_text]
  cases numeral.sign with
  | absent =>
    rw [shape]
    exact splitSign_of_digit digital _
  | plus => rfl
  | minus => rfl

/-- Reading takes all digits of a numeral and nothing behind them. -/
theorem WellFormed.takeWhile_digits (wellFormed : numeral.WellFormed) :
    (numeral.digits ++ numeral.rest).takeWhile isDecimalDigit = numeral.digits := by
  -- The run ends where the rest begins.
  have stops : (numeral.rest ++ []).takeWhile isDecimalDigit = [] :=
    takeWhile_digits_append wellFormed.ends (by simp)
  rw [List.append_nil] at stops
  rw [List.takeWhile_append_of_pos wellFormed.digital, stops, List.append_nil]

/-- A numeral is read as the integer that it writes, unless its digits write too large a number. -/
theorem WellFormed.leadingInteger?_text (wellFormed : numeral.WellFormed) :
    leadingInteger? numeral.text =
      if numeral.magnitude < 2 ^ 63 then some numeral.value else none := by
  -- The largest number that is accepted is the one below the bound.
  have some_ : numeral.digits.isEmpty = false := by simpa using wellFormed.written
  have same : digitRunValue numeral.digits = numeral.magnitude := rfl
  simp only [leadingInteger?, wellFormed.splitSign_trimLeft, wellFormed.takeWhile_digits, some_,
    same, Bool.false_or, decide_eq_true_eq]
  by_cases small : numeral.magnitude < 2 ^ 63
  · have accepted : ¬ maxDigitRun < numeral.magnitude := by
      unfold maxDigitRun
      omega
    rw [if_pos small, if_neg accepted, value]
  · have refused : maxDigitRun < numeral.magnitude := by
      unfold maxDigitRun
      omega
    rw [if_neg small, if_pos refused]

/-- A text in which an integer is read has the parts of a numeral. -/
theorem exists_of_leadingInteger? {text : List Char} {read : Int}
    (found : leadingInteger? text = some read) :
    ∃ numeral : Numeral, numeral.WellFormed ∧ numeral.text = text := by
  -- The parts are those that reading takes off one after another.
  obtain ⟨sign, signed⟩ := exists_sign (trimLeft text)
  generalize shape : splitSign (trimLeft text) = taken at signed
  have written : taken.2.takeWhile isDecimalDigit ≠ [] := by
    intro nothing
    simp [leadingInteger?, shape, nothing] at found
  have ends : ∀ character ∈ (taken.2.dropWhile isDecimalDigit).head?,
      isDecimalDigit character = false := by
    intro character first
    have stopped := List.head?_dropWhile_not isDecimalDigit taken.2
    rwa [Option.mem_def.mp first] at stopped
  refine ⟨⟨text.takeWhile isBlank, sign, taken.2.takeWhile isDecimalDigit,
    taken.2.dropWhile isDecimalDigit⟩, ⟨?_, ?_, written, ends⟩, ?_⟩
  · exact fun character member => List.mem_takeWhile_imp member
  · exact fun character member => List.mem_takeWhile_imp member
  · have blanks : text.takeWhile isBlank ++ trimLeft text = text :=
      List.takeWhile_append_dropWhile
    simp only [Numeral.text, List.takeWhile_append_dropWhile]
    rw [← signed, blanks]

/-- A text that starts with an integer has the parts of one numeral only. -/
theorem WellFormed.eq_of_text_eq {other : Numeral} (wellFormed : numeral.WellFormed)
    (otherWellFormed : other.WellFormed) (same : numeral.text = other.text) : numeral = other := by
  -- What is trimmed are the blanks, what is split off is the sign, and the digits end where they do.
  have trimmed : numeral.sign.text ++ (numeral.digits ++ numeral.rest) =
      other.sign.text ++ (other.digits ++ other.rest) := by
    rw [← wellFormed.trimLeft_text, same, otherWellFormed.trimLeft_text]
  have blanks : numeral.blanks = other.blanks := by
    unfold text at same
    rw [trimmed] at same
    exact List.append_cancel_right same
  have tail : numeral.digits ++ numeral.rest = other.digits ++ other.rest := by
    have taken := wellFormed.splitSign_trimLeft
    rw [same, otherWellFormed.splitSign_trimLeft] at taken
    exact (Prod.mk.inj taken).2.symm
  have sign : numeral.sign = other.sign := by
    rw [tail] at trimmed
    exact Sign.text_injective (List.append_cancel_right trimmed)
  have digits : numeral.digits = other.digits := by
    rw [← wellFormed.takeWhile_digits, tail, otherWellFormed.takeWhile_digits]
  have rest : numeral.rest = other.rest := by
    rw [digits] at tail
    exact List.append_cancel_left tail
  cases numeral
  cases other
  simp_all

/-- The factor of a sign and digits that are in bounds multiply to a signed 64-bit integer. -/
theorem toInt_factor_mul_magnitude (small : numeral.magnitude ≤ 2 ^ 63 - 1) :
    (Int64.ofInt numeral.sign.factor * Int64.ofInt numeral.magnitude).toInt = numeral.value := by
  -- The product is as far from zero as the digits, so nothing of it is cut off.
  have factor : (Int64.ofInt numeral.sign.factor).toInt = numeral.sign.factor := by
    cases numeral.sign <;> rfl
  have magnitude : (Int64.ofInt numeral.magnitude).toInt = numeral.magnitude :=
    Int64.toInt_ofInt_of_le (by omega) (by omega)
  have bounded : -(2 ^ 63) ≤ numeral.value ∧ numeral.value < 2 ^ 63 := by
    unfold value
    cases numeral.sign with
    | absent => simp only [Sign.factor]; omega
    | plus => simp only [Sign.factor]; omega
    | minus => simp only [Sign.factor]; omega
  rw [Int64.toInt_mul, factor, magnitude, ← value]
  exact Int.bmod_eq_of_le (by omega) (by omega)

end Numeral

/-- An integer is read in exactly the texts that start with it, if its digits are in bounds. -/
theorem leadingInteger?_eq_some_iff {text : List Char} {read : Int} :
    leadingInteger? text = some read ↔
      ∃ numeral : Numeral, numeral.WellFormed ∧ numeral.text = text ∧
        numeral.magnitude < 2 ^ 63 ∧ numeral.value = read := by
  -- The parts of the text decide what is read.
  constructor
  · intro found
    obtain ⟨numeral, wellFormed, rfl⟩ := Numeral.exists_of_leadingInteger? found
    rw [wellFormed.leadingInteger?_text] at found
    by_cases small : numeral.magnitude < 2 ^ 63
    · rw [if_pos small] at found
      exact ⟨numeral, wellFormed, rfl, small, Option.some.inj found⟩
    · rw [if_neg small] at found
      cases found
  · rintro ⟨numeral, wellFormed, rfl, small, rfl⟩
    rw [wellFormed.leadingInteger?_text, if_pos small]

/--
Exactly the texts that start with an integer in bounds are read, as that integer.

A text starts with an integer in one way at most. The sign and the digits that it is read from
multiply to it in signed 64-bit words, without anything being cut off.
-/
theorem leading_integer_read_exactly (text : List Char) :
    (∀ number : Int, leadingInteger? text = some number ↔
      ∃ numeral : Numeral, numeral.WellFormed ∧ numeral.text = text ∧
        numeral.magnitude ≤ 2 ^ 63 - 1 ∧ number = numeral.value) ∧
    (∀ first second : Numeral, first.WellFormed → second.WellFormed → first.text = text →
      second.text = text → first = second) ∧
    ∀ numeral : Numeral, numeral.WellFormed → numeral.text = text →
      numeral.magnitude ≤ 2 ^ 63 - 1 →
      (Int64.ofInt numeral.sign.factor * Int64.ofInt numeral.magnitude).toInt = numeral.value := by
  refine ⟨fun number => ?_, fun first second wellFormed otherWellFormed shape otherShape => ?_,
    fun numeral _ _ small => Numeral.toInt_factor_mul_magnitude small⟩
  · -- The bound is the number after the largest one that is accepted.
    have bound : ∀ numeral : Numeral,
        numeral.magnitude < 2 ^ 63 ↔ numeral.magnitude ≤ 2 ^ 63 - 1 := by
      intro numeral
      omega
    simp only [leadingInteger?_eq_some_iff, bound, eq_comm]
  · exact wellFormed.eq_of_text_eq otherWellFormed (shape.trans otherShape.symm)

/-- The largest number of 63 bits is read behind blanks of two scripts, a minus and zeros. -/
theorem leading_integer_read_exactly_at_bound :
    let numeral : Numeral :=
      ⟨"\u00a0\u3000".toList, .minus, "009223372036854775807".toList, "٣7".toList⟩
    (numeral.WellFormed ∧ numeral.text = "\u00a0\u3000-009223372036854775807٣7".toList ∧
      numeral.magnitude ≤ 2 ^ 63 - 1) ∧
    leadingInteger? "\u00a0\u3000-009223372036854775807٣7".toList = some (-9223372036854775807) ∧
    (∀ other : Numeral, other.WellFormed →
      other.text = "\u00a0\u3000-009223372036854775807٣7".toList → other = numeral) ∧
    (Int64.ofInt (-1) * Int64.ofInt 9223372036854775807).toInt = -9223372036854775807 := by
  intro numeral
  have wellFormed : numeral.WellFormed := by
    refine ⟨List.all_eq_true.mp (by decide +kernel), List.all_eq_true.mp (by decide +kernel),
      by decide, ?_⟩
    rintro character ⟨⟩
    decide +kernel
  have shape : numeral.text = "\u00a0\u3000-009223372036854775807٣7".toList := by decide +kernel
  have small : numeral.magnitude ≤ 2 ^ 63 - 1 := by decide +kernel
  have value : numeral.value = -9223372036854775807 := by decide +kernel
  obtain ⟨grammar, unique, product⟩ :=
    leading_integer_read_exactly "\u00a0\u3000-009223372036854775807٣7".toList
  exact ⟨⟨wellFormed, shape, small⟩,
    (grammar _).mpr ⟨numeral, wellFormed, shape, small, value.symm⟩,
    fun other otherWellFormed otherShape =>
      unique other numeral otherWellFormed wellFormed otherShape shape,
    (product numeral wellFormed shape small).trans value⟩

/-- A number written behind blanks is read as itself if it is not too large. -/
theorem leadingInteger?_of_toDigits {blanks : List Char}
    (blank : ∀ character ∈ blanks, isBlank character) {number : Nat}
    (small : number ≤ maxDigitRun) {rest : List Char}
    (stops : rest.takeWhile isDecimalDigit = []) :
    leadingInteger? (blanks ++ Nat.toDigits 10 number ++ rest) = some (number : Int) := by
  -- A written number has at least one digit and no sign.
  let numeral : Numeral := ⟨blanks, .absent, Nat.toDigits 10 number, rest⟩
  have ends : ∀ character ∈ rest.head?, isDecimalDigit character = false := by
    cases rest with
    | nil => simp
    | cons first others => simpa [List.takeWhile_cons] using stops
  have wellFormed : numeral.WellFormed :=
    ⟨blank, fun _ => isDecimalDigit_of_mem_toDigits, Nat.toDigits_ne_nil, ends⟩
  have magnitude : numeral.magnitude = number := Nat.ofDigitChars_ten_toDigits
  have value : numeral.value = (number : Int) := by
    simp [Numeral.value, numeral, Sign.factor, magnitude]
  have bounded : numeral.magnitude < 2 ^ 63 := by
    unfold maxDigitRun at small
    omega
  rw [leadingInteger?_eq_some_iff]
  exact ⟨numeral, wellFormed, by simp [Numeral.text, numeral, Sign.text], bounded, value⟩

/-- What follows a sign is what follows it in a longer text. -/
theorem splitSign_append {character : Char} (text more : List Char) :
    splitSign (character :: text ++ more) =
      ((splitSign (character :: text)).1, (splitSign (character :: text)).2 ++ more) := by
  -- The sign is decided by the first character.
  simp only [List.cons_append]
  unfold splitSign
  split
  · rename_i same
    cases same
    rfl
  · rename_i same
    cases same
    rfl
  · rename_i notMinus notPlus
    split
    · rename_i same
      cases same
      exact absurd rfl (notMinus _)
    · rename_i same
      cases same
      exact absurd rfl (notPlus _)
    · rfl

/-- The integer at the start of a text stays when a text follows that does not go on with it. -/
theorem leadingInteger?_append (text : List Char) {more : List Char}
    (stops : more.takeWhile isDecimalDigit = []) (nothing : leadingInteger? more = none) :
    leadingInteger? (text ++ more) = leadingInteger? text := by
  -- Either the text is all blank, or the integer is decided before the added text begins.
  by_cases blank : ∀ character ∈ text, isBlank character
  · have empty : leadingInteger? text = none := by
      have trimmed : trimLeft text = [] := by
        simpa [trimLeft] using trimLeft_append blank []
      simp [leadingInteger?, trimmed, splitSign]
    rw [empty, ← nothing]
    simp only [leadingInteger?, trimLeft_append blank]
  · obtain ⟨first, rest, trimmed⟩ : ∃ first rest, trimLeft text = first :: rest := by
      refine List.exists_cons_of_ne_nil fun none_ => blank ?_
      exact List.dropWhile_eq_nil_iff.mp none_
    have trimmedMore : trimLeft (text ++ more) = first :: rest ++ more := by
      rw [trimLeft, List.dropWhile_append, show text.dropWhile isBlank = first :: rest from trimmed]
      simp
    have run : ∀ digits : List Char,
        (digits ++ more).takeWhile isDecimalDigit = digits.takeWhile isDecimalDigit := by
      intro digits
      rw [List.takeWhile_append]
      split
      · rename_i whole
        rw [stops, List.append_nil]
        exact ((List.takeWhile_prefix isDecimalDigit).eq_of_length whole).symm
      · rfl
    simp only [leadingInteger?, trimmed, trimmedMore, splitSign_append, run]

end LanguageServer

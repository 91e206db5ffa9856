import LanguageServer.Proofs.Diagnostic
import LanguageServer.Proofs.Text.LeadingInteger
import LanguageServer.Proofs.Text.Search

/-! An error text that names a line and a column is read as a diagnostic at that place. -/

namespace LanguageServer

/-- A blank at the end of a text is trimmed. -/
theorem trim_append_blank (text : List Char) {character : Char} (blank : isBlank character) :
    trim (text ++ [character]) = trim text := by
  -- Trimming the start leaves the blank at the end, unless nothing else is left.
  unfold trim trimLeft
  rw [List.dropWhile_append]
  split
  · rename_i empty
    simp [List.isEmpty_iff.mp empty, blank]
  · simp [blank]

/-- Blanks and a number behind them hold no character of a word without blanks and digits. -/
theorem gap_apart {gap word : List Char} (blank : ∀ character ∈ gap, isBlank character)
    (letters : word.all fun letter => !isBlank letter && !isDecimalDigit letter) (number : Nat) :
    ∀ character ∈ gap ++ Nat.toDigits 10 number, character ∉ word := by
  -- A character of the gap is a blank or a digit.
  intro character member inWord
  have letter := List.all_eq_true.mp letters character inWord
  rcases List.mem_append.mp member with inGap | inNumber
  · simp [blank character inGap] at letter
  · simp [isDecimalDigit_of_mem_toDigits inNumber] at letter

/-- How a text names a place, in its parts from behind the word "line" on. -/
structure Placement where
  /-- What stands between the word "line" and the number of the line. -/
  lineGap : List Char
  line : Nat
  /-- What stands between the number of the line and the word "column". -/
  between : List Char
  /-- What stands between the word "column" and the number of the column. -/
  columnGap : List Char
  column : Nat
  /-- What stands behind the number of the column. -/
  rest : List Char

namespace Placement

/-- The text by which a place is named. -/
def text (place : Placement) : List Char :=
  -- The two numbers are written in decimal digits.
  place.lineGap ++ Nat.toDigits 10 place.line ++ (place.between ++ ("column".toList ++
    (place.columnGap ++ Nat.toDigits 10 place.column ++ place.rest)))

/-- Whether the two numbers of a place stand by themselves and no other word is in their way. -/
structure Readable (place : Placement) : Prop where
  lineGap : ∀ character ∈ place.lineGap, isBlank character
  columnGap : ∀ character ∈ place.columnGap, isBlank character
  lineEnds : ∀ character ∈ place.between.head?, isDecimalDigit character = false
  columnEnds : ∀ character ∈ place.rest.head?, isDecimalDigit character = false
  noColumn : ¬ "column".toList <:+: place.between
  noEndBetween : ¬ "at".toList <:+: place.between
  noEndBehind : ¬ "at".toList <:+: place.rest

variable {place : Placement}

/-- The number of the line is read as it is written. -/
theorem Readable.leadingInteger?_line (readable : place.Readable) (small : place.line < 2 ^ 32) :
    leadingInteger? place.text = some (place.line : Int) := by
  -- Behind its digits comes something else, or at once the word "column".
  refine leadingInteger?_of_toDigits readable.lineGap ?_
    (takeWhile_digits_append readable.lineEnds ?_)
  · unfold maxDigitRun
    omega
  · intro character first
    cases first
    decide

/-- The number of the column is read as it is written. -/
theorem Readable.leadingInteger?_column (readable : place.Readable)
    (small : place.column < 2 ^ 32) :
    leadingInteger? (place.columnGap ++ Nat.toDigits 10 place.column ++ place.rest) =
      some (place.column : Int) := by
  -- Behind its digits comes something else, or nothing.
  refine leadingInteger?_of_toDigits readable.columnGap ?_ ?_
  · unfold maxDigitRun
    omega
  · have ends : (place.rest ++ []).takeWhile isDecimalDigit = [] :=
      takeWhile_digits_append readable.columnEnds (by simp)
    simpa using ends

/-- The word "column" of a place is found behind any text that does not hold that word. -/
theorem Readable.splitFirst?_column (readable : place.Readable) {before : List Char}
    (absent : ¬ "column".toList <:+: before) :
    ∃ early, splitFirst? "column".toList (before ++ place.text) =
      some (early, place.columnGap ++ Nat.toDigits 10 place.column ++ place.rest) := by
  -- Neither the number of the line nor a part of the word itself holds the word.
  refine ⟨before ++ (place.lineGap ++ Nat.toDigits 10 place.line ++ place.between), ?_⟩
  rw [splitFirst?_eq_some_iff (by decide)]
  refine ⟨by simp [text], ?_⟩
  have across : ¬ "column".toList <:+: place.between ++ "column".toList.dropLast :=
    not_infix_append_dropLast (by decide) readable.noColumn
  have apart : ∀ character ∈ place.lineGap ++ Nat.toDigits 10 place.line,
      character ∉ "column".toList := gap_apart readable.lineGap (by decide) place.line
  have free : ¬ "column".toList <:+: before ++ (place.lineGap ++ Nat.toDigits 10 place.line ++
      (place.between ++ "column".toList.dropLast)) := by
    rw [infix_append_apart (by decide) (by simp [Nat.toDigits_ne_nil]) apart]
    exact not_or.mpr ⟨absent, across⟩
  simpa using free

/-- The text of a place does not hold the word that ends a message. -/
theorem Readable.not_infix_end (readable : place.Readable) :
    ¬ "at".toList <:+: "t line".toList ++ place.text := by
  -- The numbers with their blanks and the word "column" part the places where it could stand.
  have lineApart : ∀ character ∈ place.lineGap ++ Nat.toDigits 10 place.line,
      character ∉ "at".toList := gap_apart readable.lineGap (by decide) place.line
  have columnApart : ∀ character ∈ "column".toList ++
      (place.columnGap ++ Nat.toDigits 10 place.column), character ∉ "at".toList := by
    intro character member
    rcases List.mem_append.mp member with inWord | inGap
    · have letters : ("column".toList.all fun letter => !"at".toList.contains letter) = true := by
        decide
      simpa using List.all_eq_true.mp letters character inWord
    · exact gap_apart readable.columnGap (by decide) place.column character inGap
  have behind : ¬ "at".toList <:+: place.between ++ ("column".toList ++
      (place.columnGap ++ Nat.toDigits 10 place.column) ++ place.rest) := by
    rw [infix_append_apart (by decide) (by simp) columnApart]
    exact not_or.mpr ⟨readable.noEndBetween, readable.noEndBehind⟩
  have whole : ¬ "at".toList <:+: "t line".toList ++
      (place.lineGap ++ Nat.toDigits 10 place.line ++ (place.between ++ ("column".toList ++
        (place.columnGap ++ Nat.toDigits 10 place.column) ++ place.rest))) := by
    rw [infix_append_apart (by decide) (by simp [Nat.toDigits_ne_nil]) lineApart]
    exact not_or.mpr ⟨by decide, behind⟩
  simpa [text] using whole

/-- A text that says something and then names a place. -/
def behind (place : Placement) (message : List Char) : List Char :=
  -- The words between the two are always the same.
  message ++ (" at line".toList ++ place.text)

/-- The message of a text that ends with a place is what comes before the place. -/
theorem Readable.errorMessage_behind (readable : place.Readable) (message : List Char) :
    errorMessage (place.behind message) = trim message := by
  -- Nothing behind the word "at" before the place holds that word again.
  have found : splitLast? "at".toList (place.behind message) =
      some (message ++ [' '], " line".toList ++ place.text) := by
    rw [splitLast?_eq_some_iff (by decide)]
    exact ⟨by simp [behind], by simpa using readable.not_infix_end⟩
  simp only [errorMessage, found]
  exact trim_append_blank message (by decide)

/-- A text is looked at behind the word "line" before its place if it holds no other one. -/
theorem splitFirst?_line (place : Placement) {message : List Char}
    (absent : ¬ "line".toList <:+: message) :
    splitFirst? "line".toList (place.behind message) =
      some (message ++ " at ".toList, place.text) := by
  -- No part of that word stands before it.
  rw [splitFirst?_eq_some_iff (by decide)]
  refine ⟨by simp [behind], ?_⟩
  have free : ¬ "line".toList <:+: message ++ ' ' :: "at lin".toList := by
    rw [infix_append_cons (by decide) (by decide)]
    exact not_or.mpr ⟨absent, by decide⟩
  simpa using free

/-- The place that a text names is found if the text does not name another one before. -/
theorem Readable.ofOutput_behind (readable : place.Readable) {message : List Char}
    (absent : ¬ "line".toList <:+: message) (line : place.line < 2 ^ 32)
    (column : place.column < 2 ^ 32) :
    Finding.ofOutput (place.behind message) = .located place.line place.column := by
  -- Both numbers are read behind their words.
  have nothing : ¬ "column".toList <:+: [] := by decide
  obtain ⟨early, columnFound⟩ := readable.splitFirst?_column nothing
  rw [List.nil_append] at columnFound
  simp only [Finding.ofOutput, splitFirst?_line place absent]
  rw [behindLine_eq_located_iff]
  refine ⟨readable.leadingInteger?_line line, ?_, line, column⟩
  rw [columnFound]
  exact readable.leadingInteger?_column column

end Placement

/--
Every error text that names its place is read.

The message may hold any words but "line", the numbers may have blanks before them and other text
behind them, and what comes between and behind them must not hold a word that is looked for.
-/
theorem error_text_diagnosed (message lineGap between columnGap rest : String) (line column : Nat)
    (unnamed : ¬ "line".toList <:+: message.toList)
    (lineBlank : ∀ character ∈ lineGap.toList, isBlank character)
    (columnBlank : ∀ character ∈ columnGap.toList, isBlank character)
    (lineEnds : ∀ character ∈ between.toList.head?, isDecimalDigit character = false)
    (noColumn : ¬ "column".toList <:+: between.toList)
    (noEndBetween : ¬ "at".toList <:+: between.toList)
    (columnEnds : ∀ character ∈ rest.toList.head?, isDecimalDigit character = false)
    (noEndBehind : ¬ "at".toList <:+: rest.toList)
    (lineSmall : line < 2 ^ 32) (columnSmall : column < 2 ^ 32) :
    diagnose (message ++ " at line" ++ lineGap ++ toString line ++ between ++ "column" ++
        columnGap ++ toString column ++ rest) =
      ⟨some ⟨⟨⟨line - 1, column - 1⟩, ⟨line - 1, column⟩⟩, String.ofList (trim message.toList)⟩,
        [.errorLocated (line - 1) (column - 1)]⟩ := by
  -- The text is the message with its place behind it.
  let place : Placement :=
    ⟨lineGap.toList, line, between.toList, columnGap.toList, column, rest.toList⟩
  have readable : place.Readable :=
    ⟨lineBlank, columnBlank, lineEnds, columnEnds, noColumn, noEndBetween, noEndBehind⟩
  have shape : (message ++ " at line" ++ lineGap ++ toString line ++ between ++ "column" ++
      columnGap ++ toString column ++ rest).toList = place.behind message.toList := by
    simp [Placement.behind, Placement.text, place]
  have located := readable.ofOutput_behind unnamed lineSmall columnSmall
  have said := readable.errorMessage_behind message.toList
  simp only [diagnose, shape, located, said]
  rfl

/-- Words that are looked for crowd around the largest line and a column of zero. -/
theorem error_text_diagnosed_crowded :
    (¬ "line".toList <:+: "no column at lin".toList ∧
      (∀ character ∈ "\u2003".toList, isBlank character) ∧
      (∀ character ∈ "tcolum".toList.head?, isDecimalDigit character = false) ∧
      ¬ "column".toList <:+: "tcolum".toList ∧ ¬ "at".toList <:+: "tcolum".toList ∧
      (∀ character ∈ "t line 2".toList.head?, isDecimalDigit character = false) ∧
      ¬ "at".toList <:+: "t line 2".toList ∧ 4294967295 < 2 ^ 32 ∧ 0 < 2 ^ 32) ∧
    diagnose "no column at lin at line\u20034294967295tcolumcolumn0t line 2" =
      ⟨some ⟨⟨⟨4294967294, 0⟩, ⟨4294967294, 0⟩⟩, "no column at lin"⟩,
        [.errorLocated 4294967294 0]⟩ := by
  have letter : isDecimalDigit 't' = false := by decide
  have unnamed : ¬ "line".toList <:+: "no column at lin".toList := by decide
  have lineBlank : ∀ character ∈ "\u2003".toList, isBlank character :=
    List.all_eq_true.mp (by decide)
  have columnBlank : ∀ character ∈ "".toList, isBlank character := List.all_eq_true.mp (by decide)
  have lineEnds : ∀ character ∈ "tcolum".toList.head?, isDecimalDigit character = false := by
    simpa using letter
  have noColumn : ¬ "column".toList <:+: "tcolum".toList := by decide
  have noEndBetween : ¬ "at".toList <:+: "tcolum".toList := by decide
  have columnEnds : ∀ character ∈ "t line 2".toList.head?, isDecimalDigit character = false := by
    simpa using letter
  have noEndBehind : ¬ "at".toList <:+: "t line 2".toList := by decide
  have read := error_text_diagnosed "no column at lin" "\u2003" "tcolum" "" "t line 2" 4294967295 0
    unnamed lineBlank columnBlank lineEnds noColumn noEndBetween columnEnds noEndBehind
    (by decide) (by decide)
  have written : "no column at lin" ++ " at line" ++ "\u2003" ++ toString 4294967295 ++ "tcolum" ++
      "column" ++ "" ++ toString 0 ++ "t line 2" =
      "no column at lin at line\u20034294967295tcolumcolumn0t line 2" := by
    decide
  have said : String.ofList (trim "no column at lin".toList) = "no column at lin" := by
    decide +kernel
  rw [written, said] at read
  exact ⟨⟨unnamed, lineBlank, lineEnds, noColumn, noEndBetween, columnEnds, noEndBehind, by decide,
    by decide⟩, read⟩

end LanguageServer

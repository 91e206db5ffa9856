import LanguageServer.Compiler.Embedded
import LanguageServer.Proofs.ErrorText

/-! A compile error put into words is read back as a diagnostic at its own position. -/

namespace LanguageServer

namespace CompileError

/-- What a compile error says before its position. -/
def words (error : CompileError) : String :=
  -- The kind comes first.
  error.kind ++ " error: " ++ error.message

/-- Whether the text behind a word "line" in an error's own words names the error's position. -/
def NamedAgain (error : CompileError) (behind : List Char) : Prop :=
  -- Zero is read as the first line, and without a column the one at the end of the text counts.
  (∃ line : Nat, leadingInteger? behind = some (line : Int) ∧ line - 1 = error.line - 1) ∧
    ∀ early late, splitFirst? "column".toList behind = some (early, late) →
      leadingInteger? late = some (error.column : Int)

/-- Whether an error's own words do not draw its position away from the end of the text. -/
def Unmistakable (error : CompileError) : Prop :=
  -- A position is looked for behind the first word "line".
  ¬ "line".toList <:+: error.words.toList ∨
    ∃ before behind, splitFirst? "line".toList error.words.toList = some (before, behind) ∧
      error.NamedAgain behind

/-- What stands behind the word "line" at the end of a rendered error. -/
def position (error : CompileError) : List Char :=
  -- The two numbers are written in decimal digits.
  ' ' :: Nat.toDigits 10 error.line ++ ' ' :: ("column".toList ++
    ' ' :: Nat.toDigits 10 error.column)

/-- The place that a rendered error names, with one blank wherever there can be some. -/
def place (error : CompileError) : Placement :=
  -- Nothing stands behind the number of the column.
  ⟨[' '], error.line, [' '], [' '], error.column, []⟩

/-- The text behind the word "line" at the end of a rendered error names its place. -/
theorem position_eq (error : CompileError) : error.position = error.place.text := by
  -- Only the grouping differs.
  simp [position, place, Placement.text]

/-- Nothing is in the way of the numbers at the end of a rendered error. -/
theorem place_readable (error : CompileError) : error.place.Readable where
  -- There is nothing but blanks around them.
  lineGap := by simp [place, isBlank, blankRuns]
  columnGap := by simp [place, isBlank, blankRuns]
  lineEnds := by simp [place, isDecimalDigit]
  columnEnds := by simp [place]
  noColumn := by simp only [place]; decide
  noEndBetween := by simp only [place]; decide
  noEndBehind := by simp only [place]; decide

/-- A rendered error is its words with its position at the end. -/
theorem render_toList (error : CompileError) :
    error.render.toList =
      error.words.toList ++ ' ' :: ("at".toList ++ ' ' :: ("line".toList ++ error.position)) := by
  -- Only the grouping differs.
  simp [render, words, position]

/-- A rendered error is its words with its place behind them. -/
theorem render_behind (error : CompileError) :
    error.render.toList = error.place.behind error.words.toList := by
  -- Only the grouping differs.
  simp [render_toList, Placement.behind, position_eq]

/-- The message of a rendered error is what it says before its position. -/
theorem errorMessage_render (error : CompileError) :
    errorMessage error.render.toList = trim error.words.toList := by
  -- Whatever the words are, they stand before the place.
  rw [render_behind]
  exact error.place_readable.errorMessage_behind error.words.toList

/-- The column of a rendered error is looked for behind its last "column" if there is no other. -/
theorem splitFirst?_column {text : List Char} (absent : ¬ "column".toList <:+: text)
    (error : CompileError) :
    ∃ before, splitFirst? "column".toList (text ++ error.position) =
      some (before, ' ' :: Nat.toDigits 10 error.column) := by
  -- The place holds that word once.
  have found := error.place_readable.splitFirst?_column absent
  simpa [position_eq, place] using found

/-- The number of the column at the end of a rendered error is read as it is. -/
theorem leadingInteger?_column {error : CompileError} (column : error.column < 2 ^ 32) :
    leadingInteger? (' ' :: Nat.toDigits 10 error.column) = some (error.column : Int) := by
  -- It stands behind one blank, and nothing follows it.
  have read := error.place_readable.leadingInteger?_column column
  simpa [place] using read

/-- An integer in an error's own words is read as it is when the position follows them. -/
theorem leadingInteger?_words (text behind : List Char) :
    leadingInteger? (text ++ ' ' :: ("at".toList ++ behind)) = leadingInteger? text := by
  -- A blank before a letter neither is nor goes on with an integer.
  apply leadingInteger?_append
  · exact List.takeWhile_cons_of_neg (by decide)
  · simp [leadingInteger?, trimLeft, isBlank, blankRuns, splitSign, isDecimalDigit]

/-- The column is read at the end of the text, unless the error's own words name one before. -/
theorem column_words {error : CompileError} (column : error.column < 2 ^ 32) (text : List Char) :
    ((splitFirst? "column".toList
        (text ++ ' ' :: ("at".toList ++ ' ' :: ("line".toList ++ error.position)))).bind
      fun parts => leadingInteger? parts.2) = some (error.column : Int) ↔
      ∀ early late, splitFirst? "column".toList text = some (early, late) →
        leadingInteger? late = some (error.column : Int) := by
  -- A column that the words name comes first and is read as they name it.
  cases named : splitFirst? "column".toList text with
  | some parts =>
    rcases parts with ⟨early, late⟩
    rw [splitFirst?_append (by decide) named]
    simp only [Option.bind_some, leadingInteger?_words, Option.some.injEq, Prod.mk.injEq]
    constructor
    · rintro read _ _ ⟨rfl, rfl⟩
      exact read
    · exact fun reads => reads early late ⟨rfl, rfl⟩
  | none =>
    have absent := (splitFirst?_eq_none_iff (by decide)).mp named
    have free : ¬ "column".toList <:+: text ++ ' ' :: "at line".toList := by
      rw [infix_append_cons (by decide) (by decide)]
      exact not_or.mpr ⟨absent, by decide⟩
    obtain ⟨before, split⟩ := splitFirst?_column free error
    have shape : text ++ ' ' :: ("at".toList ++ ' ' :: ("line".toList ++ error.position)) =
        text ++ ' ' :: "at line".toList ++ error.position := by simp
    rw [shape, split]
    simp [leadingInteger?_column column]

/-- The place of a rendered error is found where its own words leave it to be found. -/
theorem ofOutput_render {error : CompileError} (line : error.line < 2 ^ 32)
    (column : error.column < 2 ^ 32) :
    (∃ found, Finding.ofOutput error.render.toList = .located found error.column ∧
      found - 1 = error.line - 1) ↔ error.Unmistakable := by
  -- Either the words hold no "line", or they are read behind the first one in them.
  cases named : splitFirst? "line".toList error.words.toList with
  | none =>
    have absent := (splitFirst?_eq_none_iff (by decide)).mp named
    have located : Finding.ofOutput error.render.toList = .located error.line error.column := by
      rw [render_behind]
      exact error.place_readable.ofOutput_behind absent line column
    exact ⟨fun _ => .inl absent, fun _ => ⟨error.line, located, rfl⟩⟩
  | some parts =>
    rcases parts with ⟨before, behind⟩
    have holds : "line".toList <:+: error.words.toList := by
      rw [((splitFirst?_eq_some_iff (by decide)).mp named).1]
      exact List.infix_append _ _ _
    have split : Finding.ofOutput error.render.toList = Finding.behindLine
        (behind ++ ' ' :: ("at".toList ++ ' ' :: ("line".toList ++ error.position))) := by
      rw [render_toList, Finding.ofOutput, splitFirst?_append (by decide) named]
    have again : error.Unmistakable ↔ error.NamedAgain behind := by
      rw [Unmistakable, named]
      constructor
      · rintro (absent | ⟨_, _, same, agrees⟩)
        · exact absurd holds absent
        · cases same
          exact agrees
      · exact fun agrees => .inr ⟨before, behind, rfl, agrees⟩
    rw [split, again, NamedAgain, ← column_words column behind]
    simp only [behindLine_eq_located_iff, leadingInteger?_words]
    constructor
    · rintro ⟨found, ⟨lineRead, columnRead, -, -⟩, same⟩
      exact ⟨⟨found, lineRead, same⟩, columnRead⟩
    · rintro ⟨⟨found, lineRead, same⟩, columnRead⟩
      exact ⟨found, ⟨lineRead, columnRead, by omega, column⟩, same⟩

end CompileError

/--
An error of the in-process compiler is told in its own words, at its own place.

The place is the right one exactly when the words before it do not name another one.
-/
theorem embedded_error_diagnosed (error : CompileError) (mode : Mode) (checking : mode ≠ .print)
    (line : error.line < 2 ^ 32) (column : error.column < 2 ^ 32) :
    (embeddedAnswer mode (.failure error)).value = .ok error.render ∧
      (∀ diagnostic, (diagnose error.render).value = some diagnostic →
        diagnostic.message = String.ofList (trim error.words.toList)) ∧
      ((diagnose error.render).value =
          some ⟨⟨⟨error.line - 1, error.column - 1⟩, ⟨error.line - 1, error.column⟩⟩,
            String.ofList (trim error.words.toList)⟩ ↔
        error.Unmistakable) := by
  -- The message does not depend on the place that is found.
  refine ⟨by simp [embeddedAnswer, checking], ?_, ?_⟩
  · intro diagnostic given
    obtain ⟨_, _, _, rfl⟩ := diagnose_eq_some_iff.mp given
    rw [CompileError.errorMessage_render]
  · rw [← CompileError.ofOutput_render line column, diagnose_eq_some_iff,
      CompileError.errorMessage_render]
    constructor
    · rintro ⟨foundLine, foundColumn, located, same⟩
      simp only [Range.ofLineColumn, Diagnostic.mk.injEq, Range.mk.injEq, Position.mk.injEq] at same
      obtain ⟨⟨⟨sameLine, -⟩, -, sameColumn⟩, -⟩ := same
      exact ⟨foundLine, by rw [located, sameColumn], sameLine.symm⟩
    · rintro ⟨found, located, same⟩
      exact ⟨found, error.column, located, by rw [Range.ofLineColumn, same]⟩

/-- Words such as "column" and "at" do not move an error from its place. -/
theorem embedded_error_diagnosed_among_words :
    let error : CompileError := ⟨"Parser", "no column at end", 12, 40⟩
    (Mode.check ≠ .print ∧ error.line < 2 ^ 32 ∧ error.column < 2 ^ 32) ∧
      (embeddedAnswer .check (.failure error)).value =
        .ok "Parser error: no column at end at line 12 column 40" ∧
      (diagnose "Parser error: no column at end at line 12 column 40").value =
        some ⟨⟨⟨11, 39⟩, ⟨11, 40⟩⟩, "Parser error: no column at end"⟩ := by
  intro error
  have facts := embedded_error_diagnosed error .check (by decide) (by decide) (by decide)
  have rendered : error.render = "Parser error: no column at end at line 12 column 40" := by
    decide
  have said : String.ofList (trim error.words.toList) = "Parser error: no column at end" := by
    decide +kernel
  have free : error.Unmistakable := .inl (by decide)
  have located := facts.2.2.mpr free
  rw [rendered, said] at located
  rw [rendered] at facts
  exact ⟨by decide, facts.1, located⟩

/-- The word "newline" hides the place of an error, of which nothing is published. -/
theorem embedded_error_lost_behind_newline :
    let error : CompileError := ⟨"Parser", "unexpected newline", 1, 4⟩
    (embeddedAnswer .parse (.failure error)).value =
        .ok "Parser error: unexpected newline at line 1 column 4" ∧
      (diagnose "Parser error: unexpected newline at line 1 column 4").value = none := by
  intro error
  have rendered : error.render = "Parser error: unexpected newline at line 1 column 4" := by
    decide
  exact ⟨by rw [← rendered]; rfl, by decide +kernel⟩

end LanguageServer

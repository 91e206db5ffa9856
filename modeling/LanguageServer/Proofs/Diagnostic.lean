import Mathlib.Algebra.Ring.Int.Defs
import Mathlib.Algebra.Ring.Nat
import LanguageServer.Diagnostic
import LanguageServer.Proofs.Text.LeadingInteger
import LanguageServer.Proofs.Text.Search

/-!
An output calls for a diagnostic exactly when a line and a column can be read in it.

An output that speaks of a line and calls for none leaves one warning, which tells why.
-/

namespace LanguageServer

/-- A place is found behind the word "line" when both of its numbers are read and are in range. -/
theorem behindLine_eq_located_iff {text : List Char} {line column : Nat} :
    Finding.behindLine text = .located line column ↔
      leadingInteger? text = some (line : Int) ∧
        ((splitFirst? "column".toList text).bind fun parts => leadingInteger? parts.2) =
          some (column : Int) ∧ line < 2 ^ 32 ∧ column < 2 ^ 32 := by
  -- Numbers that are natural and below the bound are kept as they are.
  unfold Finding.behindLine
  cases leadingInteger? text with
  | none => simp
  | some lineRead =>
    cases (splitFirst? "column".toList text).bind fun parts => leadingInteger? parts.2 with
    | none => simp
    | some columnRead =>
      have bound : positionBound = 2 ^ 32 := rfl
      simp only [Option.some.injEq]
      split
      · rename_i inRange
        rw [Finding.located.injEq]
        omega
      · rename_i outOfRange
        simp only [reduceCtorEq, false_iff]
        omega

/-- A diagnostic comes from a place that was found, and its message from the whole output. -/
theorem diagnose_eq_some_iff {output : String} {diagnostic : Diagnostic} :
    (diagnose output).value = some diagnostic ↔
      ∃ line column, Finding.ofOutput output.toList = .located line column ∧
        diagnostic =
          ⟨Range.ofLineColumn line column, String.ofList (errorMessage output.toList)⟩ := by
  -- The other findings call for none.
  unfold diagnose
  cases Finding.ofOutput output.toList with
  | clean => simp
  | unusable => simp
  | negative => simp
  | located line column =>
    simp only [Option.some.injEq]
    constructor
    · exact fun same => ⟨line, column, rfl, same.symm⟩
    · rintro ⟨_, _, same, rfl⟩
      cases same
      rfl

/-- Whether an integer can be a line or a column. -/
def Numeral.Placeable (numeral : Numeral) : Prop :=
  -- Its sign counts, so that of the negative ones only zero is left.
  0 ≤ numeral.value ∧ numeral.value < 2 ^ 32

/-- Whether an integer can be a line or a column is seen from its value. -/
instance Numeral.Placeable.decidable (numeral : Numeral) : Decidable numeral.Placeable :=
  -- Both bounds are compared.
  inferInstanceAs (Decidable (0 ≤ numeral.value ∧ numeral.value < 2 ^ 32))

/-- Whether the digits of an integer are within what is read at all. -/
def Numeral.Legible (numeral : Numeral) : Prop :=
  -- The sign does not count.
  numeral.magnitude < 2 ^ 63

/-- Whether the digits of an integer are read is seen from what they write. -/
instance Numeral.Legible.decidable (numeral : Numeral) : Decidable numeral.Legible :=
  -- The bound is compared.
  inferInstanceAs (Decidable (numeral.magnitude < 2 ^ 63))

/-- An integer that can be a line or a column is read. -/
theorem Numeral.Placeable.legible {numeral : Numeral} (placeable : numeral.Placeable) :
    numeral.Legible := by
  -- Without its sign it is below the bound, and with a minus it is zero.
  obtain ⟨low, high⟩ := placeable
  unfold Numeral.value at low high
  unfold Numeral.Legible
  cases sign : numeral.sign with
  | absent | plus =>
    simp only [sign, Sign.factor, Int.one_mul] at high
    omega
  | minus =>
    simp only [sign, Sign.factor] at low
    omega

/-- The line and the column that a text names, the line first and the column behind its word. -/
structure NamesPosition (text : List Char) (line column : Numeral) : Prop where
  lineWellFormed : line.WellFormed
  lineWritten : line.text = text
  columnWellFormed : column.WellFormed
  columnWritten : ∃ before, FirstPlace "column".toList text before column.text

/-- The column that is read behind its word. -/
def columnRead? (text : List Char) : Option Int :=
  -- The first of these words counts.
  (splitFirst? "column".toList text).bind fun parts => leadingInteger? parts.2

/-- A column is read exactly behind the first word "column". -/
theorem columnRead?_eq_some_iff {text : List Char} {read : Int} :
    columnRead? text = some read ↔
      ∃ column : Numeral, column.WellFormed ∧
        (∃ before, FirstPlace "column".toList text before column.text) ∧
        column.Legible ∧ column.value = read := by
  -- The word is found at its first place, and the integer behind it.
  simp only [columnRead?, Option.bind_eq_some_iff, Prod.exists, leadingInteger?_eq_some_iff,
    splitFirst?_eq_some_iff_firstPlace (show "column".toList ≠ [] by decide), Numeral.Legible]
  constructor
  · rintro ⟨before, behind, place, column, wellFormed, rfl, legible, value⟩
    exact ⟨column, wellFormed, ⟨before, place⟩, legible, value⟩
  · rintro ⟨column, wellFormed, ⟨before, place⟩, legible, value⟩
    exact ⟨before, column.text, place, column, wellFormed, rfl, legible, value⟩

/-- Two integers are read exactly where a line and a column with legible digits are named. -/
theorem read_iff_namesPosition {text : List Char} {lineRead columnRead : Int} :
    leadingInteger? text = some lineRead ∧ columnRead? text = some columnRead ↔
      ∃ line column, NamesPosition text line column ∧ line.Legible ∧ column.Legible ∧
        line.value = lineRead ∧ column.value = columnRead := by
  -- Each of the two is read on its own.
  rw [leadingInteger?_eq_some_iff, columnRead?_eq_some_iff]
  constructor
  · rintro ⟨⟨line, lineWell, written, lineLegible, lineValue⟩,
      column, columnWell, placed, columnLegible, columnValue⟩
    exact ⟨line, column, ⟨lineWell, written, columnWell, placed⟩, lineLegible, columnLegible,
      lineValue, columnValue⟩
  · rintro ⟨line, column, ⟨lineWell, written, columnWell, placed⟩, lineLegible, columnLegible,
      lineValue, columnValue⟩
    exact ⟨⟨line, lineWell, written, lineLegible, lineValue⟩,
      column, columnWell, placed, columnLegible, columnValue⟩

/-- What is found behind the word "line", by the two integers that are read there. -/
theorem behindLine_eq (text : List Char) :
    Finding.behindLine text = match leadingInteger? text, columnRead? text with
      | some line, some column =>
        if 0 ≤ line ∧ line < 2 ^ 32 ∧ 0 ≤ column ∧ column < 2 ^ 32 then
          .located line.toNat column.toNat
        else .negative
      | _, _ => .unusable :=
  -- The bound of positions is that of 32-bit numbers.
  rfl

section Positions

variable {text : List Char} {line column : Numeral}

/-- A line and a column that can be a position are found as they are named. -/
theorem NamesPosition.behindLine_located (names : NamesPosition text line column)
    (linePlaceable : line.Placeable) (columnPlaceable : column.Placeable) :
    Finding.behindLine text = .located line.value.toNat column.value.toNat := by
  -- Both are read.
  obtain ⟨lineRead, columnRead⟩ := read_iff_namesPosition.mpr
    ⟨line, column, names, linePlaceable.legible, columnPlaceable.legible, rfl, rfl⟩
  have inRange : 0 ≤ line.value ∧ line.value < 2 ^ 32 ∧ 0 ≤ column.value ∧
      column.value < 2 ^ 32 :=
    ⟨linePlaceable.1, linePlaceable.2, columnPlaceable.1, columnPlaceable.2⟩
  simp only [behindLine_eq, lineRead, columnRead, if_pos inRange]

/-- A line and a column of which one cannot be a position are found to be out of range. -/
theorem NamesPosition.behindLine_negative (names : NamesPosition text line column)
    (lineLegible : line.Legible) (columnLegible : column.Legible)
    (outside : ¬ (line.Placeable ∧ column.Placeable)) :
    Finding.behindLine text = .negative := by
  -- Both are read.
  obtain ⟨lineRead, columnRead⟩ := read_iff_namesPosition.mpr
    ⟨line, column, names, lineLegible, columnLegible, rfl, rfl⟩
  have outOfRange : ¬ (0 ≤ line.value ∧ line.value < 2 ^ 32 ∧ 0 ≤ column.value ∧
      column.value < 2 ^ 32) := by
    rintro ⟨lineLow, lineHigh, columnLow, columnHigh⟩
    exact outside ⟨⟨lineLow, lineHigh⟩, columnLow, columnHigh⟩
  simp only [behindLine_eq, lineRead, columnRead, if_neg outOfRange]

/-- Without a line and a column that are read nothing usable is found. -/
theorem behindLine_unusable
    (nameless : ¬ ∃ line column, NamesPosition text line column ∧ line.Legible ∧ column.Legible) :
    Finding.behindLine text = .unusable := by
  -- One of the two is not read.
  rw [behindLine_eq]
  split
  · rename_i lineRead columnRead readLine readColumn
    obtain ⟨line, column, names, lineLegible, columnLegible, -, -⟩ :=
      read_iff_namesPosition.mp ⟨readLine, readColumn⟩
    exact absurd ⟨line, column, names, lineLegible, columnLegible⟩ nameless
  · rfl

end Positions

/-- Whether a text is what an error text says, which ends before its last word "at". -/
def IsMessage (output message : List Char) : Prop :=
  -- Without that word the whole text counts, and blanks at the ends never do.
  (∃ before behind, LastPlace "at".toList output before behind ∧ message = trim before) ∨
    (¬ "at".toList <:+: output ∧ message = trim output)

/-- The message that is made of an error text is what the text says. -/
theorem isMessage_errorMessage (output : List Char) : IsMessage output (errorMessage output) := by
  -- The word is found at its last place or not at all.
  have word : "at".toList ≠ [] := by decide
  unfold errorMessage
  cases found : splitLast? "at".toList output with
  | some parts =>
    exact .inl ⟨parts.1, parts.2, (splitLast?_eq_some_iff_lastPlace word).mp found, rfl⟩
  | none => exact .inr ⟨(splitLast?_eq_none_iff word).mp found, rfl⟩

/-- An output is read behind the first word "line". -/
theorem ofOutput_of_firstPlace {output before behind : List Char}
    (place : FirstPlace "line".toList output before behind) :
    Finding.ofOutput output = Finding.behindLine behind := by
  -- The search finds that place.
  rw [Finding.ofOutput, (splitFirst?_eq_some_iff_firstPlace (by decide)).mpr place]

section Outputs

variable {output : String} {before behind : List Char} {line column : Numeral}

/-- A position that is named behind the first word "line" is diagnosed with what the text says. -/
theorem NamesPosition.diagnose_located (names : NamesPosition behind line column)
    (place : FirstPlace "line".toList output.toList before behind)
    (linePlaceable : line.Placeable) (columnPlaceable : column.Placeable) :
    diagnose output =
      ⟨some ⟨Range.ofLineColumn line.value.toNat column.value.toNat,
          String.ofList (errorMessage output.toList)⟩,
        [.errorLocated (line.value.toNat - 1) (column.value.toNat - 1)]⟩ := by
  -- The one notice is no warning.
  have found := names.behindLine_located linePlaceable columnPlaceable
  simp only [diagnose, ofOutput_of_firstPlace place, found]
  rfl

/-- A position that is out of range leaves a warning that says so. -/
theorem NamesPosition.diagnose_negative (names : NamesPosition behind line column)
    (place : FirstPlace "line".toList output.toList before behind) (lineLegible : line.Legible)
    (columnLegible : column.Legible) (outside : ¬ (line.Placeable ∧ column.Placeable)) :
    diagnose output = ⟨none, [.positionNegative output]⟩ := by
  -- There is nothing to show.
  have found := names.behindLine_negative lineLegible columnLegible outside
  simp only [diagnose, ofOutput_of_firstPlace place, found]

/-- A position that cannot be read leaves a warning that says so. -/
theorem diagnose_unusable (place : FirstPlace "line".toList output.toList before behind)
    (nameless : ¬ ∃ line column, NamesPosition behind line column ∧
      line.Legible ∧ column.Legible) :
    diagnose output = ⟨none, [.positionUnusable output]⟩ := by
  -- There is nothing to show.
  have found := behindLine_unusable nameless
  simp only [diagnose, ofOutput_of_firstPlace place, found]

/-- An output is diagnosed exactly if it names a line and a column that can be a position. -/
theorem isSome_diagnose_iff (place : FirstPlace "line".toList output.toList before behind) :
    (diagnose output).value.isSome = true ↔
      ∃ line column, NamesPosition behind line column ∧ line.Placeable ∧ column.Placeable := by
  -- A position that is not placeable is out of range or cannot be read.
  constructor
  · intro some_
    by_contra unplaceable
    by_cases named : ∃ line column, NamesPosition behind line column ∧
        line.Legible ∧ column.Legible
    · obtain ⟨line, column, names, lineLegible, columnLegible⟩ := named
      have outside : ¬ (line.Placeable ∧ column.Placeable) := fun both =>
        unplaceable ⟨line, column, names, both⟩
      rw [names.diagnose_negative place lineLegible columnLegible outside] at some_
      cases some_
    · rw [diagnose_unusable place named] at some_
      cases some_
  · rintro ⟨line, column, names, linePlaceable, columnPlaceable⟩
    rw [names.diagnose_located place linePlaceable columnPlaceable]
    rfl

/-- A diagnostic spans a stretch of one line, from left to right. -/
theorem diagnose_range {diagnostic : Diagnostic}
    (given : (diagnose output).value = some diagnostic) :
    diagnostic.range.start.line = diagnostic.range.stop.line ∧
      diagnostic.range.start.character ≤ diagnostic.range.stop.character := by
  -- It starts one character before the column at which it stops.
  obtain ⟨line, column, -, rfl⟩ := diagnose_eq_some_iff.mp given
  exact ⟨rfl, Nat.sub_le column 1⟩

end Outputs

/--
Every output that speaks of a line is answered by a diagnostic or by one warning.

It is a diagnostic exactly if a line and a column are named that can be a position. Otherwise the
warning tells a position that is out of range from one that cannot be read. An output that does not
speak of a line is passed over in silence.
-/
theorem output_diagnosed_or_warned (output : String) :
    (¬ "line".toList <:+: output.toList → diagnose output = ⟨none, []⟩) ∧
    ("line".toList <:+: output.toList → ∃ before behind,
      FirstPlace "line".toList output.toList before behind ∧
      ((diagnose output).value.isSome = true ↔
        ∃ line column, NamesPosition behind line column ∧ line.Placeable ∧ column.Placeable) ∧
      (∀ line column, NamesPosition behind line column → line.Placeable → column.Placeable →
        (diagnose output).warnings = [] ∧ ∃ message, IsMessage output.toList message ∧
          (diagnose output).value = some ⟨⟨⟨line.value.toNat - 1, column.value.toNat - 1⟩,
            ⟨line.value.toNat - 1, column.value.toNat⟩⟩, String.ofList message⟩) ∧
      (∀ line column, NamesPosition behind line column → line.Legible → column.Legible →
        ¬ (line.Placeable ∧ column.Placeable) →
        (diagnose output).value = none ∧ (diagnose output).warnings.map Notice.message =
          ["Compiler error with a negative position: " ++ quoted output]) ∧
      ((¬ ∃ line column, NamesPosition behind line column ∧ line.Legible ∧ column.Legible) →
        (diagnose output).value = none ∧ (diagnose output).warnings.map Notice.message =
          ["Compiler error without a usable position: " ++ quoted output])) ∧
    ∀ diagnostic, (diagnose output).value = some diagnostic →
      diagnostic.range.start.line = diagnostic.range.stop.line ∧
        diagnostic.range.start.character ≤ diagnostic.range.stop.character := by
  -- The word "line" is found at its first place or not at all.
  have word : "line".toList ≠ [] := by decide
  refine ⟨?_, ?_, fun diagnostic given => diagnose_range given⟩
  · intro absent
    have nothing := (splitFirst?_eq_none_iff word).mpr absent
    simp only [diagnose, Finding.ofOutput, nothing]
  · intro speaks
    have found : splitFirst? "line".toList output.toList ≠ none := fun nothing =>
      (splitFirst?_eq_none_iff word).mp nothing speaks
    obtain ⟨⟨before, behind⟩, split⟩ := Option.ne_none_iff_exists'.mp found
    have place := (splitFirst?_eq_some_iff_firstPlace word).mp split
    refine ⟨before, behind, place, isSome_diagnose_iff place, ?_, ?_, ?_⟩
    · intro line column names linePlaceable columnPlaceable
      rw [names.diagnose_located place linePlaceable columnPlaceable]
      exact ⟨rfl, errorMessage output.toList, isMessage_errorMessage output.toList, rfl⟩
    · intro line column names lineLegible columnLegible outside
      rw [names.diagnose_negative place lineLegible columnLegible outside]
      exact ⟨rfl, rfl⟩
    · intro nameless
      rw [diagnose_unusable place nameless]
      exact ⟨rfl, rfl⟩

/-- A column that is one too large leaves a warning, although the line before it could be shown. -/
theorem output_diagnosed_or_warned_out_of_range :
    let output := "Parser error at line -0, column 4294967296"
    let line : Numeral := ⟨[' '], .minus, ['0'], ", column 4294967296".toList⟩
    let column : Numeral := ⟨[' '], .absent, "4294967296".toList, []⟩
    ("line".toList <:+: output.toList ∧
      NamesPosition " -0, column 4294967296".toList line column ∧ line.Legible ∧ column.Legible ∧
      line.Placeable ∧ ¬ column.Placeable) ∧
    (diagnose output).value = none ∧ (diagnose output).warnings.map Notice.message =
      ["Compiler error with a negative position: " ++ quoted output] := by
  intro output line column
  have speaks : "line".toList <:+: output.toList := by decide +kernel
  have split : splitFirst? "line".toList output.toList =
      some ("Parser error at ".toList, " -0, column 4294967296".toList) := by decide +kernel
  have columnSplit : splitFirst? "column".toList " -0, column 4294967296".toList =
      some (" -0, ".toList, column.text) := by decide +kernel
  have names : NamesPosition " -0, column 4294967296".toList line column :=
    { lineWellFormed := ⟨List.all_eq_true.mp (by decide), List.all_eq_true.mp (by decide),
        by decide, by simp [line, isDecimalDigit]⟩
      lineWritten := by decide +kernel
      columnWellFormed := ⟨List.all_eq_true.mp (by decide), List.all_eq_true.mp (by decide),
        by decide, by simp [column]⟩
      columnWritten := ⟨_, (splitFirst?_eq_some_iff_firstPlace (by decide)).mp columnSplit⟩ }
  have lineLegible : line.Legible := by decide +kernel
  have columnLegible : column.Legible := by decide +kernel
  have linePlaceable : line.Placeable := by decide +kernel
  have outside : ¬ column.Placeable := by decide +kernel
  refine ⟨⟨speaks, names, lineLegible, columnLegible, linePlaceable, outside⟩, ?_⟩
  obtain ⟨before, behind, place, -, -, warned, -⟩ := (output_diagnosed_or_warned output).2.1 speaks
  have found := (splitFirst?_eq_some_iff_firstPlace (by decide)).mpr place
  rw [split] at found
  cases found
  exact warned line column names lineLegible columnLegible fun both => outside both.2

end LanguageServer

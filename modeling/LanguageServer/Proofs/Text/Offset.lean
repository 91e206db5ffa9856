import LanguageServer.Proofs.Text.Position

/-! Where a position leads in a text, whether the text reaches that far or not. -/

namespace LanguageServer

/-- Positions are ordered by their lines and on one line by their characters. -/
instance : LE Position where
  -- This is the order in which they are passed in any text.
  le first second :=
    first.line < second.line ∨ first.line = second.line ∧ first.character ≤ second.character

/-- The order of positions, spelled out. -/
theorem Position.le_iff {first second : Position} :
    first ≤ second ↔
      first.line < second.line ∨ first.line = second.line ∧ first.character ≤ second.character :=
  -- It is defined so.
  Iff.rfl

/-- Of two positions one does not stand behind the other. -/
theorem Position.le_total (first second : Position) : first ≤ second ∨ second ≤ first := by
  -- Lines are compared first, then characters.
  simp only [Position.le_iff]
  omega

/-- The part of a text before a place that lies some lines and units ahead. -/
def passedText : List Char → Nat → Nat → List Char
  -- The walk is that of the offset, and it keeps the characters that the offset only counts.
  | [], _, _ => []
  | character :: rest, 0, ahead =>
    if ahead = 0 || isLineBreak character then []
    else character :: passedText rest 0 (ahead - units character)
  | character :: rest, lines + 1, ahead =>
    character :: passedText rest (if character = '\n' then lines else lines + 1) ahead

/-- The part of a text before a position. -/
def textBefore (text : List Char) (position : Position) : List Char :=
  -- The walk starts at the first character.
  passedText text position.line position.character

/-- An offset counts the bytes of the text that was passed. -/
private theorem offsetFrom_eq (text : List Char) (offset lines ahead : Nat) :
    offsetFrom offset text lines ahead = offset + byteCount (passedText text lines ahead) := by
  -- Both walks take the same steps.
  induction text generalizing offset lines ahead with
  | nil => simp [offsetFrom, passedText]
  | cons character rest ih =>
    cases lines with
    | zero =>
      simp only [offsetFrom, passedText]
      split
      · rfl
      · rw [ih, byteCount_cons, Nat.add_assoc]
    | succ lines =>
      simp only [offsetFrom, passedText]
      rw [ih, byteCount_cons, Nat.add_assoc]

/-- The offset of a position is the number of bytes before it. -/
theorem offsetOf_eq (text : List Char) (position : Position) :
    offsetOf text position = byteCount (textBefore text position) := by
  -- Nothing has been counted at the start.
  rw [offsetOf, offsetFrom_eq, Nat.zero_add, textBefore]

/-- What was passed starts the text. -/
private theorem passedText_start (text : List Char) (lines ahead : Nat) :
    passedText text lines ahead <+: text := by
  -- Characters are taken one after another until the walk stops.
  induction text generalizing lines ahead with
  | nil => exact List.prefix_refl _
  | cons character rest ih =>
    cases lines with
    | zero =>
      simp only [passedText]
      split
      · exact List.nil_prefix
      · exact List.cons_prefix_cons.mpr ⟨rfl, ih _ _⟩
    | succ lines => exact List.cons_prefix_cons.mpr ⟨rfl, ih _ _⟩

/-- What stands before a position starts the text. -/
theorem textBefore_start (text : List Char) (position : Position) :
    textBefore text position <+: text :=
  -- The walk passes the text from its start.
  passedText_start text position.line position.character

/-- A walk that is to go further passes at least as much. -/
private theorem passedText_mono (text : List Char) {firstLines firstAhead lines ahead : Nat}
    (further : firstLines < lines ∨ firstLines = lines ∧ firstAhead ≤ ahead) :
    passedText text firstLines firstAhead <+: passedText text lines ahead := by
  -- As long as neither walk stops, the second stays ahead of the first.
  induction text generalizing firstLines firstAhead lines ahead with
  | nil => exact List.prefix_refl _
  | cons character rest ih =>
    cases firstLines with
    | zero =>
      simp only [passedText]
      split
      · exact List.nil_prefix
      · rename_i goes
        obtain ⟨some_, inside⟩ : firstAhead ≠ 0 ∧ isLineBreak character = false := by
          simpa using goes
        cases lines with
        | zero =>
          have goesOn : ¬ ((ahead = 0 || isLineBreak character) = true) := by
            simp only [inside, Bool.or_false, decide_eq_true_eq]
            omega
          rw [passedText, if_neg goesOn]
          exact List.cons_prefix_cons.mpr ⟨rfl, ih (by omega)⟩
        | succ lines =>
          have notFeed : character ≠ '\n' := by
            rintro rfl
            cases inside
          rw [passedText, if_neg notFeed]
          exact List.cons_prefix_cons.mpr ⟨rfl, ih (by omega)⟩
    | succ firstLines =>
      cases lines with
      | zero => omega
      | succ lines =>
        simp only [passedText]
        refine List.cons_prefix_cons.mpr ⟨rfl, ih ?_⟩
        split <;> omega

/-- What stands before a position starts what stands before any later one. -/
theorem textBefore_mono (text : List Char) {first second : Position} (ordered : first ≤ second) :
    textBefore text first <+: textBefore text second :=
  -- The walk to the later position goes further.
  passedText_mono text ordered

/-- A longer start of a text has at least as many bytes. -/
theorem byteCount_le_of_start {first second : List Char} (start : first <+: second) :
    byteCount first ≤ byteCount second := by
  -- The bytes of what follows are added.
  obtain ⟨rest, rfl⟩ := start
  rw [byteCount_append]
  exact Nat.le_add_right _ _

/-- A later position leads to an offset that is not smaller. -/
theorem offsetOf_mono (text : List Char) {first second : Position} (ordered : first ≤ second) :
    offsetOf text first ≤ offsetOf text second := by
  -- More text stands before it.
  rw [offsetOf_eq, offsetOf_eq]
  exact byteCount_le_of_start (textBefore_mono text ordered)

/-- A line of a text by its number, between the lines before it and the lines behind it. -/
structure LineAt (text : List Char) (number : Nat) (before line behind : List Char) : Prop where
  parts : text = before ++ line ++ behind
  /-- As many line feeds stand before it as there are lines. -/
  counted : before.count '\n' = number
  /-- It starts the text or follows a line feed. -/
  starts : before = [] ∨ before.getLast? = some '\n'
  nonempty : line ≠ []
  /-- It ends with its only line feed, or with the text. -/
  ends : (∃ content, line = content ++ ['\n'] ∧ '\n' ∉ content) ∨ '\n' ∉ line ∧ behind = []

/-- What is written on a line. -/
def lineContent (line : List Char) : List Char :=
  -- A break of either kind ends it.
  line.takeWhile fun character => !isLineBreak character

/-- The shortest start of a text that has some number of units, or the whole text. -/
structure ShortestReaching (content : List Char) (ahead : Nat) (reached : List Char) : Prop where
  start : reached <+: content
  reaches : ahead ≤ unitCount reached ∨ reached = content
  shortest : ∀ other, other <+: content → ahead ≤ unitCount other →
    reached.length ≤ other.length

/-- On one line a walk passes the shortest start of the content that has enough units. -/
theorem shortestReaching_passedText (text : List Char) (ahead : Nat) :
    ShortestReaching (lineContent text) ahead (passedText text 0 ahead) := by
  -- Each character that is passed takes its units from those that are still ahead.
  induction text generalizing ahead with
  | nil => exact ⟨List.prefix_refl _, .inr rfl, fun _ _ _ => Nat.zero_le _⟩
  | cons character rest ih =>
    simp only [passedText]
    split
    · rename_i stops
      refine ⟨List.nil_prefix, ?_, fun _ _ _ => Nat.zero_le _⟩
      rcases Bool.or_eq_true_iff.mp stops with arrived | ended
      · rw [of_decide_eq_true arrived]
        exact .inl (Nat.zero_le _)
      · exact .inr (by simp [lineContent, ended])
    · rename_i goes
      obtain ⟨some_, inside⟩ : ahead ≠ 0 ∧ isLineBreak character = false := by simpa using goes
      have content : lineContent (character :: rest) = character :: lineContent rest := by
        simp [lineContent, inside]
      obtain ⟨start, reaches, shortest⟩ := ih (ahead - units character)
      rw [content]
      refine ⟨List.cons_prefix_cons.mpr ⟨rfl, start⟩, ?_, ?_⟩
      · rcases reaches with enough | whole
        · refine .inl ?_
          simp only [unitCount, List.map_cons, List.sum_cons] at enough ⊢
          omega
        · exact .inr (by rw [whole])
      · intro other otherStart enough
        cases other with
        | nil =>
          simp only [unitCount, List.map_nil, List.sum_nil] at enough
          omega
        | cons first others =>
          obtain ⟨rfl, othersStart⟩ := List.cons_prefix_cons.mp otherStart
          have enoughLeft : ahead - units first ≤ unitCount others := by
            simp only [unitCount, List.map_cons, List.sum_cons] at enough ⊢
            omega
          have shorter := shortest others othersStart enoughLeft
          simp only [List.length_cons]
          omega

/-- A walk passes the lines before its own one as a whole. -/
private theorem passedText_append {before : List Char}
    (starts : before = [] ∨ before.getLast? = some '\n') (rest : List Char) (ahead : Nat) :
    passedText (before ++ rest) (before.count '\n') ahead = before ++ passedText rest 0 ahead := by
  -- Each line feed takes one line from those that are still ahead, and the last character is one.
  induction before with
  | nil => rfl
  | cons character others ih =>
    have last : (character :: others).getLast? = some '\n' := by simpa using starts
    have feeds : 0 < (character :: others).count '\n' :=
      List.count_pos_iff.mpr (List.mem_of_getLast? last)
    obtain ⟨lines, counted⟩ := Nat.exists_eq_succ_of_ne_zero (Nat.pos_iff_ne_zero.mp feeds)
    have startsOthers : others = [] ∨ others.getLast? = some '\n' := by
      cases others with
      | nil => exact .inl rfl
      | cons next more => exact .inr (by simpa using last)
    rw [counted, List.cons_append, passedText, lines_left counted, ih startsOthers,
      List.cons_append]

/-- What follows a line does not add to its content. -/
theorem lineContent_append {line behind : List Char}
    (ends : (∃ content, line = content ++ ['\n'] ∧ '\n' ∉ content) ∨ '\n' ∉ line ∧ behind = []) :
    lineContent (line ++ behind) = lineContent line := by
  -- The line feed at the end of the line ends the content, or nothing follows.
  rcases ends with ⟨content, rfl, -⟩ | ⟨-, rfl⟩
  · have stops : ¬ ((content ++ ['\n']).takeWhile fun character =>
        !isLineBreak character).length = (content ++ ['\n']).length := by
      intro whole
      have all := (List.takeWhile_prefix _).eq_of_length whole
      have passed := List.takeWhile_eq_self_iff.mp all '\n' (by simp)
      cases passed
    rw [lineContent, List.takeWhile_append, if_neg stops, lineContent]
  · rw [List.append_nil]

/-- A position on a line of the text leads behind the shortest start that has enough units. -/
theorem LineAt.offsetOf_eq {text before line behind : List Char} {position : Position}
    (lineAt : LineAt text position.line before line behind) :
    ∃ reached, ShortestReaching (lineContent line) position.character reached ∧
      offsetOf text position = byteCount before + byteCount reached := by
  -- The lines before it are passed first.
  refine ⟨passedText (line ++ behind) 0 position.character, ?_, ?_⟩
  · rw [← lineContent_append lineAt.ends]
    exact shortestReaching_passedText (line ++ behind) position.character
  · rw [LanguageServer.offsetOf_eq, textBefore, lineAt.parts, ← lineAt.counted, List.append_assoc,
      passedText_append lineAt.starts, byteCount_append]

/-- A text that is not empty has a first line. -/
theorem exists_firstLine {text : List Char} (nonempty : text ≠ []) :
    ∃ line behind, LineAt text 0 [] line behind := by
  -- It reaches to the first line feed, or to the end of the text.
  by_cases feeds : '\n' ∈ text
  · obtain ⟨content, behind, rfl, plain⟩ := List.eq_append_cons_of_mem feeds
    exact ⟨content ++ ['\n'], behind, by simp, rfl, .inl rfl, by simp,
      .inl ⟨content, rfl, plain⟩⟩
  · exact ⟨text, [], by simp, rfl, .inl rfl, nonempty, .inr ⟨feeds, rfl⟩⟩

/-- A character more before a line is on the same line as what follows it, or ends a line. -/
private theorem LineAt.cons {text before line behind : List Char} {number lines : Nat}
    (lineAt : LineAt text number before line behind) {character : Char}
    (remaining : number = if character = '\n' then lines else lines + 1) :
    LineAt (character :: text) (lines + 1) (character :: before) line behind where
  -- If nothing stood before the line, the character is the line feed that ends the line before.
  parts := by simp [lineAt.parts]
  counted := by
    have counted := lineAt.counted
    by_cases feed : character = '\n'
    · rw [if_pos feed] at remaining
      simp [feed, counted, remaining]
    · rw [if_neg feed] at remaining
      rw [List.count_cons_of_ne feed, counted, remaining]
  starts := by
    refine .inr ?_
    rcases lineAt.starts with nothing | last
    · have none_ : number = 0 := by rw [← lineAt.counted, nothing]; rfl
      by_cases feed : character = '\n'
      · simp [nothing, feed]
      · rw [if_neg feed] at remaining
        omega
    · simp [List.getLast?_cons, last]
  nonempty := lineAt.nonempty
  ends := lineAt.ends

/-- A walk to a line passes the whole text, unless the text has that line. -/
private theorem passedText_eq_or_exists_lineAt (text : List Char) (number ahead : Nat) :
    passedText text number ahead = text ∨
      ∃ before line behind, LineAt text number before line behind := by
  -- The first line of what is left is there as soon as anything is left.
  induction text generalizing number with
  | nil => exact .inl rfl
  | cons character rest ih =>
    cases number with
    | zero =>
      obtain ⟨line, behind, first⟩ := exists_firstLine (List.cons_ne_nil character rest)
      exact .inr ⟨[], line, behind, first⟩
    | succ lines =>
      rcases ih (if character = '\n' then lines else lines + 1) with whole | found
      · exact .inl (by rw [passedText, whole])
      · obtain ⟨before, line, behind, lineAt⟩ := found
        exact .inr ⟨character :: before, line, behind, lineAt.cons rfl⟩

/-- A position on a line that the text does not have leads to the end of the text. -/
theorem offsetOf_of_no_line {text : List Char} {position : Position}
    (absent : ¬ ∃ before line behind, LineAt text position.line before line behind) :
    offsetOf text position = byteCount text := by
  -- The walk does not stop before.
  have walk := passedText_eq_or_exists_lineAt text position.line position.character
  rw [offsetOf_eq, textBefore, walk.resolve_right absent]

end LanguageServer

import Mathlib.Algebra.Ring.Nat
import Mathlib.Data.List.TakeWhile
import LanguageServer.Text.Position

/-! The position behind a stretch of text leads back to the byte offset where the stretch ends. -/

namespace LanguageServer

/-- The part of a text behind its last line feed. -/
def lastLine : List Char → List Char
  -- A line feed further on leaves nothing of what stands before it.
  | [] => []
  | character :: rest => if '\n' ∈ character :: rest then lastLine rest else character :: rest

/-- The number of UTF-16 units of a text. -/
def unitCount (text : List Char) : Nat :=
  -- Characters are counted one after another.
  (text.map units).sum

/-- Every character takes at least one unit. -/
theorem units_pos (character : Char) : 0 < units character := by
  -- A character is one unit or a surrogate pair.
  unfold units
  split <;> omega

/-- A text without a line feed is a single line. -/
theorem lastLine_of_plain {text : List Char} (plain : '\n' ∉ text) : lastLine text = text := by
  -- No suffix of the text holds a line feed either.
  cases text with
  | nil => rfl
  | cons character rest => simp only [lastLine, if_neg plain]

/-- A byte count may start from any number. -/
private theorem foldl_utf8Size (text : List Char) (count : Nat) :
    text.foldl (fun count character => count + character.utf8Size) count =
      count + byteCount text := by
  -- Both sides add the same sizes in the same order.
  unfold byteCount
  induction text generalizing count with
  | nil => simp
  | cons character rest ih =>
    simp only [List.foldl_cons]
    rw [ih, ih (0 + character.utf8Size)]
    omega

/-- An empty text has no bytes. -/
@[simp] theorem byteCount_nil : byteCount [] = 0 := rfl

/-- A text has the bytes of its first character and those of the rest. -/
@[simp] theorem byteCount_cons (character : Char) (rest : List Char) :
    byteCount (character :: rest) = character.utf8Size + byteCount rest := by
  -- The count of the rest starts from the first character's size.
  rw [byteCount, List.foldl_cons, foldl_utf8Size, Nat.zero_add]

/-- The bytes of two texts in a row are those of both. -/
@[simp] theorem byteCount_append (first second : List Char) :
    byteCount (first ++ second) = byteCount first + byteCount second := by
  -- The characters of the first text come first.
  induction first with
  | nil => simp
  | cons character rest ih =>
    simp only [List.cons_append, byteCount_cons, ih]
    omega

/-- A walk from any position counts line feeds, and units behind the last of them. -/
private theorem foldl_advance (text : List Char) (line character : Nat) :
    text.foldl Position.advance ⟨line, character⟩ =
      ⟨line + text.count '\n',
        (if '\n' ∈ text then 0 else character) + unitCount (lastLine text)⟩ := by
  -- A line feed forgets the units counted so far, any other character adds to them.
  induction text generalizing line character with
  | nil => simp [lastLine, unitCount]
  | cons first rest ih =>
    rw [List.foldl_cons]
    by_cases feed : first = '\n'
    · subst feed
      simp only [Position.advance, if_true, ih]
      simp [lastLine]
      omega
    · have counted : (first :: rest).count '\n' = rest.count '\n' := List.count_cons_of_ne feed
      have same : '\n' ∈ first :: rest ↔ '\n' ∈ rest := by simp [Ne.symm feed]
      simp only [Position.advance, if_neg feed, ih, counted, same, lastLine]
      split
      · rfl
      · rename_i plain
        rw [lastLine_of_plain plain]
        simp only [unitCount, List.map_cons, List.sum_cons]
        congr 1
        omega

/-- The position behind a text is its number of line feeds and the units of its last line. -/
theorem positionAfter_eq (text : List Char) :
    positionAfter text = ⟨text.count '\n', unitCount (lastLine text)⟩ := by
  -- The walk starts at the first unit of the first line.
  simp [positionAfter, foldl_advance]

/-- On one line, a walk over all of its units stops at its end or at its first carriage return. -/
private theorem offsetFrom_line (line behind : List Char) (offset : Nat) (plain : '\n' ∉ line) :
    offsetFrom offset (line ++ behind) 0 (unitCount line) +
      byteCount (line.dropWhile (· ≠ '\r')) = offset + byteCount line := by
  -- Each character before the stop takes as many units as it adds to the count.
  induction line generalizing offset with
  | nil =>
    cases behind with
    | nil => simp [offsetFrom]
    | cons character rest => simp [offsetFrom, unitCount]
  | cons character rest ih =>
    obtain ⟨notFeed, plainRest⟩ := not_or.mp (mt List.mem_cons.mpr plain)
    have some_ : unitCount (character :: rest) ≠ 0 := by
      have := units_pos character
      simp only [unitCount, List.map_cons, List.sum_cons]
      omega
    have left : unitCount (character :: rest) - units character = unitCount rest := by
      simp [unitCount]
    by_cases stop : character = '\r'
    · subst stop
      simp [offsetFrom, some_, isLineBreak]
    · have goes : isLineBreak character = false := by simp [isLineBreak, stop, Ne.symm notFeed]
      have walk := ih (offset + character.utf8Size) plainRest
      simp only [List.cons_append, offsetFrom, some_, goes, left, decide_false, Bool.or_self,
        Bool.false_eq_true, if_false, byteCount_cons]
      rw [List.dropWhile_cons_of_pos (by simp [stop]), walk]
      omega

/-- A line feed takes one from the lines that are still to be passed, any other character none. -/
theorem lines_left {character : Char} {rest : List Char} {lines : Nat}
    (counted : (character :: rest).count '\n' = lines + 1) :
    (if character = '\n' then lines else lines + 1) = rest.count '\n' := by
  -- The character is counted if it is a line feed.
  by_cases feed : character = '\n'
  · simp only [List.count_cons, feed, beq_self_eq_true, if_true] at counted ⊢
    omega
  · simp only [List.count_cons_of_ne feed] at counted
    simp [feed, counted]

/--
The position behind a text leads to the end of it, in whatever text it stands at the start.

If the last line holds a carriage return, the walk stops at the first one of them instead.
-/
theorem offsetOf_positionAfter_add (text behind : List Char) :
    offsetOf (text ++ behind) (positionAfter text) +
      byteCount ((lastLine text).dropWhile (· ≠ '\r')) = byteCount text := by
  -- Whole lines are passed first, each of them taking one line feed from the count.
  have general : ∀ offset, offsetFrom offset (text ++ behind) (text.count '\n')
      (unitCount (lastLine text)) + byteCount ((lastLine text).dropWhile (· ≠ '\r')) =
        offset + byteCount text := by
    induction text with
    | nil => exact fun offset => offsetFrom_line [] behind offset (by simp)
    | cons first rest ih =>
      intro offset
      by_cases feeds : '\n' ∈ first :: rest
      · obtain ⟨lines, counted⟩ := Nat.exists_eq_succ_of_ne_zero
          (Nat.pos_iff_ne_zero.mp (List.count_pos_iff.mpr feeds))
        have remaining := lines_left counted
        have walk := ih (offset + first.utf8Size)
        simp only [lastLine, if_pos feeds, counted, List.cons_append, offsetFrom, remaining,
          byteCount_cons]
        rw [walk]
        omega
      · rw [List.count_eq_zero.mpr feeds, lastLine_of_plain feeds]
        exact offsetFrom_line (first :: rest) behind offset feeds
  simpa [offsetOf, positionAfter_eq] using general 0

/-- Where no carriage return stands on its last line, a text ends at the offset of its position. -/
theorem offsetOf_positionAfter (text behind : List Char) (clear : '\r' ∉ lastLine text) :
    offsetOf (text ++ behind) (positionAfter text) = byteCount text := by
  -- Nothing of the last line is dropped.
  have walk := offsetOf_positionAfter_add text behind
  have nothing : (lastLine text).dropWhile (· ≠ '\r') = [] := by
    rw [List.dropWhile_eq_nil_iff]
    intro character member
    have apart : character ≠ '\r' := fun same => clear (same ▸ member)
    simp [apart]
  rw [nothing] at walk
  simpa using walk

/-- The last line of a text holds no line feed, and whole lines stand before it. -/
theorem exists_lines_append_lastLine (text : List Char) :
    ∃ lines, text = lines ++ lastLine text ∧ (lines = [] ∨ lines.getLast? = some '\n') ∧
      '\n' ∉ lastLine text := by
  -- The last line feed is the last character of the lines before.
  induction text with
  | nil => exact ⟨[], rfl, .inl rfl, by simp [lastLine]⟩
  | cons character rest ih =>
    by_cases feeds : '\n' ∈ character :: rest
    · obtain ⟨lines, parts, starts, plain⟩ := ih
      have line : lastLine (character :: rest) = lastLine rest := by simp only [lastLine, if_pos feeds]
      refine ⟨character :: lines, by rw [line, List.cons_append, ← parts], .inr ?_, line ▸ plain⟩
      rcases starts with nothing | last
      · have alone : '\n' ∉ rest := by
          rw [parts, nothing]
          exact plain
        have feed : character = '\n' := by simpa [alone, eq_comm] using feeds
        simp [nothing, feed]
      · simp [List.getLast?_cons, last]
    · exact ⟨[], by rw [lastLine_of_plain feeds, List.nil_append], .inl rfl,
        by rwa [lastLine_of_plain feeds]⟩

/-- If a carriage return stands on its last line, a text is left at the first of them. -/
theorem offsetOf_positionAfter_of_return {text lines content rest : List Char}
    (parts : text = lines ++ lastLine text) (line : lastLine text = content ++ '\r' :: rest)
    (first : '\r' ∉ content) (behind : List Char) :
    offsetOf (text ++ behind) (positionAfter text) = byteCount (lines ++ content) := by
  -- What is not reached starts with that carriage return.
  have walk := offsetOf_positionAfter_add text behind
  have dropped : (content ++ '\r' :: rest).dropWhile (· ≠ '\r') = '\r' :: rest := by
    rw [List.dropWhile_append_of_pos]
    · simp
    · intro character member
      have apart : character ≠ '\r' := fun same => first (same ▸ member)
      simp [apart]
  have counted : byteCount text = byteCount (lines ++ content) + byteCount ('\r' :: rest) := by
    rw [← byteCount_append, List.append_assoc, ← line, ← parts]
  rw [line, dropped, counted] at walk
  exact Nat.add_right_cancel walk

/--
The position behind a text leads back to its end exactly if its last line has no carriage return.

Otherwise it leads to the first carriage return on that line, whatever follows the text.
-/
theorem position_leads_back_iff (text behind : List Char) :
    (offsetOf (text ++ behind) (positionAfter text) = byteCount text ↔ '\r' ∉ lastLine text) ∧
    ('\r' ∈ lastLine text → ∃ lines content rest, text = lines ++ lastLine text ∧
      lastLine text = content ++ '\r' :: rest ∧ '\r' ∉ content ∧
      offsetOf (text ++ behind) (positionAfter text) = byteCount (lines ++ content)) := by
  obtain ⟨lines, parts, -, -⟩ := exists_lines_append_lastLine text
  refine ⟨⟨fun inverse holds => ?_, offsetOf_positionAfter text behind⟩, fun holds => ?_⟩
  · -- The carriage return has a byte of its own, which the offset does not reach.
    obtain ⟨content, rest, line, first⟩ := List.eq_append_cons_of_mem holds
    have counted : byteCount text = byteCount (lines ++ content) + byteCount ('\r' :: rest) := by
      rw [← byteCount_append, List.append_assoc, ← line, ← parts]
    have positive := Char.utf8Size_pos '\r'
    rw [offsetOf_positionAfter_of_return parts line first, counted, byteCount_cons] at inverse
    omega
  · obtain ⟨content, rest, line, first⟩ := List.eq_append_cons_of_mem holds
    exact ⟨lines, content, rest, parts, line, first,
      offsetOf_positionAfter_of_return parts line first behind⟩

/-- A position behind two carriage returns of a second line leads back to the first of them. -/
theorem position_leads_back_to_first_return :
    '\r' ∈ lastLine "é\n😀\rb\rc".toList ∧
    ∃ lines content rest, "é\n😀\rb\rc".toList = lines ++ lastLine "é\n😀\rb\rc".toList ∧
      lastLine "é\n😀\rb\rc".toList = content ++ '\r' :: rest ∧ '\r' ∉ content ∧
      offsetOf ("é\n😀\rb\rc".toList ++ "d\n".toList) (positionAfter "é\n😀\rb\rc".toList) =
        byteCount (lines ++ content) :=
  have holds : '\r' ∈ lastLine "é\n😀\rb\rc".toList := by decide +kernel
  ⟨holds, (position_leads_back_iff _ _).2 holds⟩

/-- Passing over the characters of a stretch cuts a text behind it. -/
private theorem cutFrom_append (passed before behind : List Char) :
    cutFrom passed (before ++ behind) (byteCount before) =
      some (passed.reverse ++ before, behind) := by
  -- Every character has at least one byte, so the walk does not stop before the offset is used up.
  induction before generalizing passed with
  | nil => cases behind <;> simp [cutFrom]
  | cons character rest ih =>
    have positive := Char.utf8Size_pos character
    obtain ⟨bytes, sum⟩ : ∃ bytes, byteCount (character :: rest) = bytes + 1 :=
      ⟨byteCount (character :: rest) - 1, by rw [byteCount_cons]; omega⟩
    rw [List.cons_append, sum, cutFrom, ← sum, byteCount_cons, if_pos (by omega),
      Nat.add_sub_cancel_left, ih]
    · simp
    · omega

/-- A text is cut in two at the byte count of its first part. -/
theorem cut?_append (before behind : List Char) :
    cut? (before ++ behind) (byteCount before) = some (before, behind) := by
  -- Nothing has been passed at the start.
  simpa [cut?] using cutFrom_append [] before behind

/-- What a cut takes are the passed characters and as many more as have the bytes of the offset. -/
private theorem cutFrom_eq_some {passed text before behind : List Char} {offset : Nat}
    (found : cutFrom passed text offset = some (before, behind)) :
    ∃ taken, before = passed.reverse ++ taken ∧ text = taken ++ behind ∧
      byteCount taken = offset := by
  -- Each character that is passed takes its bytes from the offset.
  fun_induction cutFrom passed text offset with
  | case1 passed rest =>
    cases found
    exact ⟨[], by simp⟩
  | case2 => cases found
  | case3 passed character rest offset _ fits ih =>
    obtain ⟨taken, rfl, rfl, counted⟩ := ih found
    refine ⟨character :: taken, by simp, rfl, ?_⟩
    rw [byteCount_cons, counted]
    omega
  | case4 => cases found

/-- A text is cut at an offset exactly if that many bytes are some of its first characters. -/
theorem cut?_eq_some_iff {text before behind : List Char} {offset : Nat} :
    cut? text offset = some (before, behind) ↔
      text = before ++ behind ∧ byteCount before = offset := by
  -- The characters that are passed are the first part.
  constructor
  · intro found
    obtain ⟨taken, rfl, shape, counted⟩ := cutFrom_eq_some found
    exact ⟨shape, counted⟩
  · rintro ⟨rfl, rfl⟩
    exact cut?_append before behind

/-- Replacing the bytes of the middle part of a text replaces that part. -/
theorem splice?_middle (before replaced behind inserted : List Char) :
    splice? (before ++ replaced ++ behind) (byteCount before) (byteCount (before ++ replaced))
      inserted = some (before ++ inserted ++ behind) := by
  -- The second cut is counted from the first one, so that it falls behind the replaced part.
  have first : cut? (before ++ replaced ++ behind) (byteCount before) =
      some (before, replaced ++ behind) := by
    rw [List.append_assoc, cut?_append]
  have ordered : (guard (byteCount before ≤ byteCount (before ++ replaced)) : Option Unit) =
      some () := if_pos (by simp)
  rw [splice?, ordered, first]
  simp [cut?_append]

end LanguageServer

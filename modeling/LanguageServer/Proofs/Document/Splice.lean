import LanguageServer.Document.Basic
import LanguageServer.Proofs.Text.Offset

/-! A change of any range cuts a text between characters and keeps all that it does not replace. -/

namespace LanguageServer

section Ranges

variable (text inserted : List Char) {start stop : Position}

/-- Between two positions in order, exactly what stands between them is replaced. -/
theorem splice?_ordered (ordered : start ≤ stop) :
    ∃ before replaced behind, text = before ++ replaced ++ behind ∧
      byteCount before = offsetOf text start ∧
      byteCount (before ++ replaced) = offsetOf text stop ∧
      splice? text (offsetOf text start) (max (offsetOf text stop) (offsetOf text start))
        inserted = some (before ++ inserted ++ behind) := by
  -- What stands before the first position starts what stands before the second.
  obtain ⟨replaced, within⟩ := textBefore_mono text ordered
  obtain ⟨behind, whole⟩ := textBefore_start text stop
  rw [← within] at whole
  have first : byteCount (textBefore text start) = offsetOf text start :=
    (offsetOf_eq text start).symm
  have second : byteCount (textBefore text start ++ replaced) = offsetOf text stop := by
    rw [within, offsetOf_eq]
  refine ⟨textBefore text start, replaced, behind, whole.symm, first, second, ?_⟩
  have spliced := splice?_middle (textBefore text start) replaced behind inserted
  rw [whole, first, second] at spliced
  rw [Nat.max_eq_left (offsetOf_mono text ordered), spliced]

/-- Between two positions in reverse, nothing is replaced and the first of them is inserted at. -/
theorem splice?_reversed (reversed : stop ≤ start) :
    ∃ before behind, text = before ++ behind ∧ byteCount before = offsetOf text start ∧
      splice? text (offsetOf text start) (max (offsetOf text stop) (offsetOf text start))
        inserted = some (before ++ inserted ++ behind) := by
  -- The end is raised to the start, so that an empty stretch is replaced.
  obtain ⟨behind, whole⟩ := textBefore_start text start
  have first : byteCount (textBefore text start) = offsetOf text start :=
    (offsetOf_eq text start).symm
  refine ⟨textBefore text start, behind, whole.symm, first, ?_⟩
  have spliced := splice?_middle (textBefore text start) [] behind inserted
  rw [List.append_nil, whole, first] at spliced
  rw [Nat.max_eq_right (offsetOf_mono text reversed), spliced]

end Ranges

/-- A change of a range puts into the text what the splice of the range gives. -/
theorem apply_of_splice? {text : String} {range : Range} {inserted : String}
    {spliced : List Char}
    (given : splice? text.toList (offsetOf text.toList range.start)
      (max (offsetOf text.toList range.stop) (offsetOf text.toList range.start))
      inserted.toList = some spliced) :
    (Change.apply text { range := some range, text := inserted }).toList = spliced := by
  -- The offsets are those of the range.
  simp only [Change.apply, replaceRange, given, String.toList_ofList]

/--
Every position leads to a place between two characters of a text, and every change can be made.

A position on a line of the text leads behind the shortest start of the line's content that has
enough units, or to the end of the content. Any other position leads to the end of the text. Later
positions lead no further back. So the stretch between two positions in order is replaced, and if
they are in reverse the text is inserted at the first of them.
-/
theorem changes_spliced_exactly (text : String) :
    (∀ position : Position,
      ((¬ ∃ before line behind, LineAt text.toList position.line before line behind) →
        offsetOf text.toList position = byteCount text.toList) ∧
      (∀ before line behind, LineAt text.toList position.line before line behind →
        ∃ reached, ShortestReaching (lineContent line) position.character reached ∧
          offsetOf text.toList position = byteCount before + byteCount reached) ∧
      ∃ before behind, text.toList = before ++ behind ∧
        offsetOf text.toList position = byteCount before) ∧
    (∀ first second : Position, first ≤ second →
      offsetOf text.toList first ≤ offsetOf text.toList second) ∧
    ∀ (range : Range) (inserted : String),
      splice? text.toList (offsetOf text.toList range.start)
          (max (offsetOf text.toList range.stop) (offsetOf text.toList range.start))
          inserted.toList =
        some (Change.apply text { range := some range, text := inserted }).toList ∧
      (range.start ≤ range.stop → ∃ before replaced behind,
        text.toList = before ++ replaced ++ behind ∧
        byteCount before = offsetOf text.toList range.start ∧
        byteCount (before ++ replaced) = offsetOf text.toList range.stop ∧
        (Change.apply text { range := some range, text := inserted }).toList =
          before ++ inserted.toList ++ behind) ∧
      (¬ range.start ≤ range.stop → ∃ before behind, text.toList = before ++ behind ∧
        byteCount before = offsetOf text.toList range.start ∧
        (Change.apply text { range := some range, text := inserted }).toList =
          before ++ inserted.toList ++ behind) := by
  refine ⟨fun position => ⟨offsetOf_of_no_line, fun _ _ _ lineAt => lineAt.offsetOf_eq, ?_⟩,
    fun first second ordered => offsetOf_mono text.toList ordered, fun range inserted => ?_⟩
  · -- What stands before the position is a whole number of characters.
    obtain ⟨behind, whole⟩ := textBefore_start text.toList position
    exact ⟨_, behind, whole.symm, offsetOf_eq text.toList position⟩
  · -- The two positions are in order or in reverse.
    by_cases ordered : range.start ≤ range.stop
    · obtain ⟨before, replaced, behind, parts, first, second, spliced⟩ :=
        splice?_ordered text.toList inserted.toList ordered
      have applied := apply_of_splice? spliced
      rw [applied]
      exact ⟨spliced, fun _ => ⟨before, replaced, behind, parts, first, second, rfl⟩,
        fun reversed => absurd ordered reversed⟩
    · have reversed := (Position.le_total range.start range.stop).resolve_left ordered
      obtain ⟨before, behind, parts, first, spliced⟩ :=
        splice?_reversed text.toList inserted.toList reversed
      have applied := apply_of_splice? spliced
      rw [applied]
      exact ⟨spliced, fun inOrder => absurd inOrder ordered,
        fun _ => ⟨before, behind, parts, first, rfl⟩⟩

/-- A change from the second line back into a surrogate pair on the first inserts and takes none. -/
theorem changes_spliced_exactly_inside_pair :
    let text := "a😀\r\nb"
    let range : Range := ⟨⟨1, 0⟩, ⟨0, 2⟩⟩
    (LineAt text.toList 0 [] "a😀\r\n".toList ['b'] ∧ ¬ range.start ≤ range.stop) ∧
    (∃ reached, ShortestReaching "a😀".toList 2 reached ∧
      offsetOf text.toList range.stop = byteCount reached) ∧
    ∃ before behind, text.toList = before ++ behind ∧ byteCount before = 7 ∧
      (Change.apply text { range := some range, text := "x" }).toList =
        before ++ ['x'] ++ behind := by
  intro text range
  have lineAt : LineAt text.toList 0 [] "a😀\r\n".toList ['b'] :=
    ⟨by decide +kernel, rfl, .inl rfl, by decide, .inl ⟨"a😀\r".toList, by decide, by decide⟩⟩
  have reversed : ¬ range.start ≤ range.stop := by
    rw [Position.le_iff]
    decide
  have offset : offsetOf text.toList range.start = 7 := by decide +kernel
  have content : lineContent "a😀\r\n".toList = "a😀".toList := by decide +kernel
  obtain ⟨positions, -, changes⟩ := changes_spliced_exactly text
  obtain ⟨reached, shortest, leads⟩ := (positions range.stop).2.1 _ _ _ lineAt
  rw [content] at shortest
  rw [byteCount_nil, Nat.zero_add] at leads
  obtain ⟨before, behind, parts, first, applied⟩ := (changes range "x").2.2 reversed
  exact ⟨⟨lineAt, reversed⟩, ⟨reached, shortest, leads⟩, before, behind, parts,
    first.trans offset, applied⟩

end LanguageServer

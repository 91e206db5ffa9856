import LanguageServer.Formatting
import LanguageServer.Proofs.Document.Mirror

/-! What a store makes of the edit that formatting returns, when the client sends it back. -/

namespace LanguageServer

/-- The change by which a client sends an edit that it was given. -/
def TextEdit.change (edit : TextEdit) : Change :=
  -- Nothing but the range and the text is sent.
  { range := some edit.range, text := edit.newText }

/-- What a replacement of a whole text does not reach. -/
def unreached (text : List Char) : List Char :=
  -- The position behind the text leads no further than the first carriage return on its last line.
  (lastLine text).dropWhile (· ≠ '\r')

/-- The last line ends a text. -/
theorem lastLine_suffix (text : List Char) : lastLine text <:+ text := by
  -- The search for the last line feed only drops characters from the front.
  induction text with
  | nil => exact List.suffix_refl _
  | cons character rest ih =>
    simp only [lastLine]
    split
    · exact ih.trans (List.suffix_cons character rest)
    · exact List.suffix_refl _

/-- What is not reached ends the text. -/
theorem unreached_suffix (text : List Char) : unreached text <:+ text :=
  -- It ends the last line.
  (List.dropWhile_suffix _).trans (lastLine_suffix text)

/-- All of a text is reached if and only if no carriage return stands on its last line. -/
theorem unreached_eq_nil_iff (text : List Char) : unreached text = [] ↔ '\r' ∉ lastLine text := by
  -- The walk over the line stops at a carriage return and nowhere else.
  rw [unreached, List.dropWhile_eq_nil_iff]
  constructor
  · intro passed member
    simpa using passed '\r' member
  · intro absent character member
    have apart : character ≠ '\r' := fun same => absent (same ▸ member)
    simpa using apart

/-- Replacing a text from its first position to the one behind it leaves what is not reached. -/
theorem replaceRange_whole (text inserted : String) :
    replaceRange text ⟨⟨0, 0⟩, positionAfter text.toList⟩ inserted =
      inserted ++ String.ofList (unreached text.toList) := by
  -- The text is cut where the position behind it leads.
  obtain ⟨reached, parts⟩ := unreached_suffix text.toList
  have start : offsetOf text.toList ⟨0, 0⟩ = 0 := by
    unfold offsetOf
    cases text.toList with
    | nil => rfl
    | cons character rest => simp [offsetFrom]
  have stop : offsetOf text.toList (positionAfter text.toList) = byteCount reached := by
    have walk := offsetOf_positionAfter_add text.toList []
    have counted := congrArg byteCount parts
    rw [byteCount_append] at counted
    rw [List.append_nil, ← unreached] at walk
    omega
  have spliced : splice? text.toList 0 (byteCount reached) inserted.toList =
      some (inserted.toList ++ unreached text.toList) := by
    have middle := splice?_middle [] reached (unreached text.toList) inserted.toList
    rwa [List.nil_append, List.nil_append, parts] at middle
  simp only [replaceRange, start, stop, Nat.max_zero, spliced, String.ofList_append,
    String.ofList_toList]

/-- Formatting returns no edit, or the one that puts the output in place of the whole text. -/
theorem replacingEdits_eq (text output : String) :
    (replacingEdits text output).value = [] ∨
      (replacingEdits text output).value = [⟨⟨⟨0, 0⟩, positionAfter text.toList⟩, output⟩] := by
  -- The two refusals come first.
  unfold replacingEdits
  split
  · exact .inl rfl
  · split
    · exact .inl rfl
    · exact .inr rfl

/--
A store that is sent the edit of a formatting holds the output, if all of its text was reached.

Otherwise the output is followed by the last line from its first carriage return on. The document is
at the version that was sent and is in all else what it was.
-/
theorem formatted_text_eq_output_iff {store : DocumentStore} {uri : Uri} {document : Document}
    (held : store.find? uri = some document) {output : String}
    (edited : (replacingEdits document.text output).value ≠ []) (version : Int) :
    (store.change uri version
        ((replacingEdits document.text output).value.map TextEdit.change)).value.1.find? uri =
      some { document with
        version, text := output ++ String.ofList (unreached document.text.toList) } ∧
    (((store.change uri version
        ((replacingEdits document.text output).value.map TextEdit.change)).value.1.find? uri).map
          Document.text = some output ↔ EndsClear document.text) := by
  -- The only edit replaces the whole text.
  have edits := (replacingEdits_eq document.text output).resolve_left edited
  have stored : (store.change uri version
      ((replacingEdits document.text output).value.map TextEdit.change)).value.1.find? uri =
        some { document with
          version, text := output ++ String.ofList (unreached document.text.toList) } := by
    rw [DocumentStore.find?_change, if_pos rfl, held, edits]
    simp [Document.edit, TextEdit.change, Change.apply, replaceRange_whole]
  refine ⟨stored, ?_⟩
  rw [stored, EndsClear, ← unreached_eq_nil_iff]
  simp

/-- A document with line ends of two characters and a surrogate pair is replaced as a whole. -/
theorem formatted_text_eq_output_two_lines :
    let document : Document :=
      ⟨⟨"file:///main.mypl"⟩, "mypl", 1, "if x then  1\r\ns = \"😀\"  ", 1⟩
    let output := "if x then 1\ns = \"😀\"\n"
    let store := ({} : DocumentStore).add document.uri "mypl" 1 document.text
    (store.find? document.uri = some document ∧
        (replacingEdits document.text output).value ≠ [] ∧ EndsClear document.text) ∧
      ((store.change document.uri 2
        ((replacingEdits document.text output).value.map TextEdit.change)).value.1.find?
          document.uri).map Document.text = some output := by
  intro document output store
  have held : store.find? document.uri = some document := by
    simp [store, document, DocumentStore.incoming]
  have edited : (replacingEdits document.text output).value ≠ [] := by decide +kernel
  have clear : EndsClear document.text := by decide +kernel
  exact ⟨⟨held, edited, clear⟩, (formatted_text_eq_output_iff held edited 2).2.mpr clear⟩

/-- What stands behind a carriage return on the last line survives its own replacement. -/
theorem formatted_text_keeps_line_behind_return :
    let uri : Uri := ⟨"file:///main.mypl"⟩
    let store := ({} : DocumentStore).add uri "mypl" 1 "a\rb"
    (replacingEdits "a\rb" "x").value = [⟨⟨⟨0, 0⟩, ⟨0, 3⟩⟩, "x"⟩] ∧
      ((store.change uri 2
        ((replacingEdits "a\rb" "x").value.map TextEdit.change)).value.1.find? uri).map
          Document.text = some "x\rb" := by
  decide +kernel

end LanguageServer

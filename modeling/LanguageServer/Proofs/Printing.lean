import Mathlib.Data.List.Forall2
import LanguageServer.Compiler.Bridge
import LanguageServer.Formatting
import LanguageServer.Proofs.Text.Position

/-! A document is edited only when the compiler has printed it, and then by what was printed. -/

namespace LanguageServer

/-- Two characters are alike if they are equal or the two cases of one of the 26 ASCII letters. -/
def Alike (first second : Char) : Prop :=
  -- Letters of other scripts are alike only to themselves.
  first = second ∨ ∃ letter < 26,
    (first.toNat = 'A'.toNat + letter ∧ second.toNat = 'a'.toNat + letter) ∨
      (first.toNat = 'a'.toNat + letter ∧ second.toNat = 'A'.toNat + letter)

/-- The lower case of a character lies 32 behind it if it is one of the capital ASCII letters. -/
theorem toNat_toLower (character : Char) :
    character.toLower.toNat =
      if 65 ≤ character.toNat ∧ character.toNat ≤ 90 then character.toNat + 32
      else character.toNat := by
  -- The test of the conversion is on the same code points.
  have capital : (character.val ≥ 'A'.val ∧ character.val ≤ 'Z'.val) ↔
      65 ≤ character.toNat ∧ character.toNat ≤ 90 := by
    simp only [ge_iff_le, UInt32.le_iff_toNat_le]
    rfl
  unfold Char.toLower
  split
  · rename_i inside
    obtain ⟨low, high⟩ := capital.mp inside
    have moved : (character.val + 32).toNat = (character.toNat + 32) % 2 ^ 32 :=
      UInt32.toNat_add character.val 32
    rw [Nat.mod_eq_of_lt (by omega)] at moved
    rw [if_pos ⟨low, high⟩]
    exact moved
  · rename_i outside
    rw [if_neg (mt capital.mpr outside)]

/-- Characters have the same lower case exactly if they are alike. -/
theorem toLower_eq_iff {first second : Char} :
    first.toLower = second.toLower ↔ Alike first second := by
  -- Of two characters that differ one is a capital letter and the other lies 32 behind it.
  have lower : 'a'.toNat = 97 := rfl
  have upper : 'A'.toNat = 65 := rfl
  rw [← Char.toNat_inj, toNat_toLower, toNat_toLower, Alike, ← Char.toNat_inj, lower, upper]
  constructor
  · intro same
    by_cases firstCapital : 65 ≤ first.toNat ∧ first.toNat ≤ 90
    · by_cases secondCapital : 65 ≤ second.toNat ∧ second.toNat ≤ 90
      · rw [if_pos firstCapital, if_pos secondCapital] at same
        exact .inl (by omega)
      · rw [if_pos firstCapital, if_neg secondCapital] at same
        exact .inr ⟨first.toNat - 65, by omega, .inl ⟨by omega, by omega⟩⟩
    · by_cases secondCapital : 65 ≤ second.toNat ∧ second.toNat ≤ 90
      · rw [if_neg firstCapital, if_pos secondCapital] at same
        exact .inr ⟨second.toNat - 65, by omega, .inr ⟨by omega, by omega⟩⟩
      · rw [if_neg firstCapital, if_neg secondCapital] at same
        exact .inl same
  · rintro (same | ⟨letter, small, ⟨one, other⟩ | ⟨one, other⟩⟩)
    · rw [same]
    · rw [if_pos (by omega), if_neg (by omega)]
      omega
    · rw [if_neg (by omega), if_pos (by omega)]
      omega

/-- A text begins like a word if its first characters are alike to those of the word. -/
def BeginsLike (word text : List Char) : Prop :=
  -- They are compared one by one.
  ∃ start rest, text = start ++ rest ∧ List.Forall₂ Alike start word

/-- Texts have the same lower case exactly if their characters are alike one by one. -/
theorem map_toLower_eq_iff {first second : List Char} :
    first.map Char.toLower = second.map Char.toLower ↔ List.Forall₂ Alike first second := by
  -- Equal lists are equal one by one.
  rw [← List.forall₂_eq_eq_eq, List.forall₂_map_left_iff, List.forall₂_map_right_iff]
  simp only [toLower_eq_iff]

/-- The comparison with a word holds of the texts that begin like it. -/
theorem beginsWith_iff {word text : List Char} :
    beginsWith word text = true ↔ BeginsLike word text := by
  -- As many characters are compared as the word has.
  rw [beginsWith, beq_iff_eq, map_toLower_eq_iff]
  constructor
  · intro alike
    exact ⟨text.take word.length, text.drop word.length,
      (List.take_append_drop word.length text).symm, alike⟩
  · rintro ⟨start, rest, rfl, alike⟩
    rwa [List.take_left' alike.length_eq]

/-- A character that is alike to one of a single byte has a single byte. -/
theorem Alike.utf8Size_eq {first second : Char} (alike : Alike first second)
    (single : second.toNat < 128) : first.utf8Size = 1 := by
  -- It is below the same bound.
  have lower : 'a'.toNat = 97 := rfl
  have upper : 'A'.toNat = 65 := rfl
  have small : first.toNat < 128 := by
    rcases alike with rfl | ⟨letter, small, ⟨one, -⟩ | ⟨one, -⟩⟩
    · exact single
    · omega
    · omega
  exact Char.utf8Size_eq_one_iff.mpr (UInt32.le_iff_toNat_le.mpr (Nat.le_of_lt_succ small))

/-- Texts that are alike one by one to a word of single bytes have as many bytes as it. -/
theorem byteCount_of_alike {start word : List Char} (alike : List.Forall₂ Alike start word)
    (single : ∀ character ∈ word, character.toNat < 128) :
    byteCount start = byteCount word := by
  -- Every character on either side has one byte.
  induction alike with
  | nil => rfl
  | cons first others ih =>
    rename_i one other ones rest
    have own : other.utf8Size = 1 :=
      Alike.utf8Size_eq (.inl rfl) (single other List.mem_cons_self)
    rw [byteCount_cons, byteCount_cons, ih fun character member => single character
      (List.mem_cons_of_mem other member), first.utf8Size_eq (single other List.mem_cons_self),
      own]

/--
Whether a text begins like a word of single bytes can be seen from as many of its bytes.

If these end inside a character or the text is too short, it does not begin like the word.
-/
theorem beginsLike_iff_cut? {word text : List Char}
    (single : ∀ character ∈ word, character.toNat < 128) :
    BeginsLike word text ↔ ∃ start rest, cut? text (byteCount word) = some (start, rest) ∧
      List.Forall₂ Alike start word := by
  -- Alike characters have the same number of bytes.
  simp only [cut?_eq_some_iff]
  constructor
  · rintro ⟨start, rest, shape, alike⟩
    exact ⟨start, rest, ⟨shape, byteCount_of_alike alike single⟩, alike⟩
  · rintro ⟨start, rest, ⟨shape, -⟩, alike⟩
    exact ⟨start, rest, shape, alike⟩

/-- Whether a printed text takes the place of a document. -/
def Replaces (text output : String) : Prop :=
  -- It is no report of an error, and it is not empty unless the document was.
  (∀ head ∈ ["Parser Error", "Lexer Error", "Print Error"],
    ¬ BeginsLike head.toList output.toList) ∧ (output ≠ "" ∨ text = "")

/-- A printed text is an error report exactly if it begins like one of the heads. -/
theorem reportsFailure_iff {output : List Char} :
    reportsFailure output = true ↔
      ∃ head ∈ ["Parser Error", "Lexer Error", "Print Error"], BeginsLike head.toList output := by
  -- The heads are tried one after another.
  simp only [reportsFailure, failureHeads, List.any_eq_true, beginsWith_iff]

/-- The edit that puts a printed text in the place of a whole document. -/
def wholeEdit (text output : String) : TextEdit :=
  -- It reaches from the first position to the one behind the last character.
  ⟨⟨⟨0, 0⟩, positionAfter text.toList⟩, output⟩

/-- A printed text that takes the document's place is the one edit. -/
theorem replacingEdits_of_replaces {text output : String} (replaces : Replaces text output) :
    (replacingEdits text output).value = [wholeEdit text output] := by
  -- Neither of the two refusals applies.
  obtain ⟨notReport, notNothing⟩ := replaces
  have accepted : ¬ reportsFailure output.toList = true := by
    rw [reportsFailure_iff]
    rintro ⟨head, member, begins⟩
    exact notReport head member begins
  have printed : ¬ (output.isEmpty && !text.isEmpty) = true := by
    rcases notNothing with some_ | empty
    · simp [some_]
    · simp [empty]
  rw [replacingEdits, if_neg accepted, if_neg printed, wholeEdit]

/-- A printed text that does not take the document's place leaves no edit. -/
theorem replacingEdits_of_not_replaces {text output : String} (refused : ¬ Replaces text output) :
    (replacingEdits text output).value = [] := by
  -- One of the two refusals applies.
  unfold replacingEdits
  split
  · rfl
  · rename_i notReport
    split
    · rfl
    · rename_i notNothing
      refine absurd ⟨?_, ?_⟩ refused
      · intro head member begins
        exact notReport (reportsFailure_iff.mpr ⟨head, member, begins⟩)
      · by_cases empty : output = ""
        · exact .inr (by simpa [empty] using notNothing)
        · exact .inl empty

/-- The edits of a formatting are one or none, by how the order to print was answered. -/
theorem formatAnswer_eq_iff (text : String) (answer : Except InvocationError String) :
    ((formatAnswer text answer).value = [] ∨ ∃ edit, (formatAnswer text answer).value = [edit]) ∧
      ∀ edit, (formatAnswer text answer).value = [edit] ↔
        ∃ output, answer = .ok output ∧ Replaces text output ∧ edit = wholeEdit text output := by
  -- Only an output can take the document's place.
  cases answer with
  | error error => exact ⟨.inl rfl, by simp [formatAnswer]⟩
  | ok output =>
    by_cases replaces : Replaces text output
    · have given : (formatAnswer text (.ok output)).value = [wholeEdit text output] :=
        replacingEdits_of_replaces replaces
      rw [given]
      refine ⟨.inr ⟨_, rfl⟩, fun edit => ?_⟩
      constructor
      · intro same
        exact ⟨output, rfl, replaces, (List.head_eq_of_cons_eq same).symm⟩
      · rintro ⟨other, same, -, rfl⟩
        cases same
        rfl
    · have given : (formatAnswer text (.ok output)).value = [] :=
        replacingEdits_of_not_replaces replaces
      rw [given]
      refine ⟨.inl rfl, fun edit => ?_⟩
      constructor
      · intro impossible
        cases impossible
      · rintro ⟨other, same, otherReplaces, -⟩
        cases same
        exact absurd otherReplaces replaces

/-- In the printing mode an in-process compiler gives an output exactly if it has one. -/
theorem embeddedAnswer_print_eq_ok_iff {reply : CompilerReply} {output : String} :
    (embeddedAnswer .print reply).value = .ok output ↔ reply = .output output := by
  -- Errors and breakdowns are failed invocations.
  cases reply with
  | output text => simp [embeddedAnswer]
  | failure error => simp [embeddedAnswer]
  | panic => simp [embeddedAnswer]

/--
Formatting edits a document only if the compiler has printed it, and then by one edit.

The edit replaces the whole document by the output as it is. An output that begins like an error
report changes nothing, and neither does an empty one unless the document is empty. Whether it does
begin so can be seen from as many bytes as the report's head has. The same holds of any other way in
which the order to print is answered.
-/
theorem edited_by_print_alone (text : String) :
    (∀ (run : Runner) (compiler : Compiler),
      let edits := (formatAnswer text
        ((Bridge.embedded compiler).invoke run .print text).value).value
      (edits = [] ∨ ∃ edit, edits = [edit]) ∧
      ∀ edit, edits = [edit] ↔ ∃ output, compiler .print text = .output output ∧
        Replaces text output ∧ edit = ⟨⟨⟨0, 0⟩, positionAfter text.toList⟩, output⟩) ∧
    (∀ answer : Except InvocationError String,
      let edits := (formatAnswer text answer).value
      (edits = [] ∨ ∃ edit, edits = [edit]) ∧
      ∀ edit, edits = [edit] ↔ ∃ output, answer = .ok output ∧
        Replaces text output ∧ edit = ⟨⟨⟨0, 0⟩, positionAfter text.toList⟩, output⟩) ∧
    ∀ output : String, ∀ head ∈ ["Parser Error", "Lexer Error", "Print Error"],
      BeginsLike head.toList output.toList ↔ ∃ start rest,
        cut? output.toList (byteCount head.toList) = some (start, rest) ∧
          List.Forall₂ Alike start head.toList := by
  refine ⟨fun run compiler => ?_, formatAnswer_eq_iff text, fun output head member => ?_⟩
  · -- The compiler's reply is the answer, as far as it is an output.
    have edits := formatAnswer_eq_iff text (embeddedAnswer .print (compiler .print text)).value
    simp only [embeddedAnswer_print_eq_ok_iff] at edits
    exact edits
  · -- The heads are written in ASCII.
    have ascii : (["Parser Error", "Lexer Error", "Print Error"].all fun head =>
        head.toList.all fun character => character.toNat < 128) = true := by decide +kernel
    refine beginsLike_iff_cut? fun character within => ?_
    have letters := List.all_eq_true.mp ascii head member
    exact of_decide_eq_true (List.all_eq_true.mp letters character within)

/-- An output that a report's head would cut inside a character takes the document's place. -/
theorem edited_by_print_alone_inside_character :
    let output := "Parser Erroé"
    let compiler : Compiler := fun _ source => if source = "😀\n" then .output output else .panic
    let refused : Runner := fun _ _ _ => .error .notFound
    (Replaces "😀\n" output ∧ cut? output.toList (byteCount "Parser Error".toList) = none) ∧
    (formatAnswer "😀\n" ((Bridge.embedded compiler).invoke refused .print "😀\n").value).value =
      [⟨⟨⟨0, 0⟩, ⟨1, 0⟩⟩, output⟩] := by
  intro output compiler refused
  have accepted : ¬ reportsFailure output.toList = true := by decide +kernel
  have replaces : Replaces "😀\n" output := by
    refine ⟨fun head member begins => ?_, .inl (by decide)⟩
    exact accepted (reportsFailure_iff.mpr ⟨head, member, begins⟩)
  have replied : compiler .print "😀\n" = .output output := if_pos rfl
  have edits := (edited_by_print_alone "😀\n").1 refused compiler
  have behind : positionAfter "😀\n".toList = ⟨1, 0⟩ := by decide +kernel
  rw [behind] at edits
  exact ⟨⟨replaces, by decide +kernel⟩, (edits.2 _).mpr ⟨output, replied, replaces, rfl⟩⟩

end LanguageServer

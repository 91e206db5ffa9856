import LanguageServer.Compiler.Capture
import LanguageServer.Proofs.Text.Offset
import LanguageServer.Proofs.Text.Utf8

/-! What is captured of a compiler's output, in whatever reads its bytes arrive. -/

namespace LanguageServer

/-- The longest start of a text whose bytes fit into a number of bytes. -/
structure LongestFitting (text : List Char) (count : Nat) (kept : List Char) : Prop where
  start : kept <+: text
  fits : byteCount kept ≤ count
  longest : ∀ other, other <+: text → byteCount other ≤ count → other.length ≤ kept.length

/-- Whether the first bytes of a text, of some number, end inside a character. -/
def EndsInside (text : List Char) (count : Nat) : Prop :=
  -- At least one byte of the character is there and at least one is not.
  ∃ before character behind, text = before ++ character :: behind ∧
    byteCount before < count ∧ count < byteCount before + character.utf8Size

/-- The first character fits, so that the longest fitting start goes on behind it. -/
theorem LongestFitting.cons {rest kept : List Char} {count : Nat} {character : Char}
    (fitting : LongestFitting rest (count - character.utf8Size) kept)
    (room : character.utf8Size ≤ count) :
    LongestFitting (character :: rest) count (character :: kept) where
  -- Its bytes are no longer there for the rest.
  start := List.cons_prefix_cons.mpr ⟨rfl, fitting.start⟩
  fits := by
    have := fitting.fits
    rw [byteCount_cons]
    omega
  longest := by
    intro other start fits
    cases other with
    | nil => exact Nat.zero_le _
    | cons first others =>
      obtain ⟨rfl, within⟩ := List.cons_prefix_cons.mp start
      rw [byteCount_cons] at fits
      have shorter := fitting.longest others within (by omega)
      simpa using shorter

/-- Nothing fits where there is no room for the first character. -/
theorem longestFitting_nil {rest : List Char} {count : Nat} {character : Char}
    (narrow : count < character.utf8Size) : LongestFitting (character :: rest) count [] where
  -- Every other start holds the first character.
  start := List.nil_prefix
  fits := Nat.zero_le _
  longest := by
    intro other start fits
    cases other with
    | nil => exact Nat.le_refl _
    | cons first others =>
      obtain ⟨rfl, -⟩ := List.cons_prefix_cons.mp start
      rw [byteCount_cons] at fits
      omega

/-- Bytes end inside a character exactly if the characters that fit are not all of them. -/
theorem LongestFitting.endsInside_iff {text kept : List Char} {count : Nat}
    (fitting : LongestFitting text count kept) (there : count ≤ byteCount text) :
    EndsInside text count ↔ byteCount kept ≠ count := by
  obtain ⟨behind, rfl⟩ := fitting.start
  constructor
  · -- A start of as many bytes would end before the character or behind it.
    rintro ⟨before, character, rest, parts, begun, unended⟩ exact_
    have whole : before ++ [character] <+: kept ++ behind := ⟨rest, by simp [parts]⟩
    rcases Nat.lt_or_ge before.length kept.length with longer | shorter
    · have within : before ++ [character] <+: kept :=
        List.prefix_of_prefix_length_le whole (List.prefix_append kept behind)
          (by rw [List.length_append, List.length_singleton]; exact longer)
      have := byteCount_le_of_start within
      rw [byteCount_append, byteCount_cons, byteCount_nil] at this
      omega
    · have within : kept <+: before :=
        List.prefix_of_prefix_length_le (List.prefix_append kept behind)
          ((List.prefix_append before [character]).trans whole) shorter
      have := byteCount_le_of_start within
      omega
  · -- The next character does not fit, and it is there because bytes are left.
    intro less
    have fits := fitting.fits
    cases behind with
    | nil =>
      rw [List.append_nil] at there
      omega
    | cons character rest =>
      refine ⟨kept, character, rest, rfl, by omega, ?_⟩
      by_contra room
      have longer := fitting.longest (kept ++ [character]) ⟨rest, by simp⟩
        (by rw [byteCount_append, byteCount_cons, byteCount_nil]; omega)
      rw [List.length_append, List.length_singleton] at longer
      omega

/-- The first bytes of a text are read as the characters that fit, and what is begun as replaced. -/
theorem exists_decodeLossy_take (text : List Char) (count : Nat) (there : count ≤ byteCount text) :
    ∃ kept, LongestFitting text count kept ∧
      decodeLossy ((encode text).take count) =
        kept ++ if byteCount kept = count then [] else [replacement] := by
  -- Each character takes its bytes from those that are there, until one does not fit.
  induction text generalizing count with
  | nil =>
    have none_ : count = 0 := Nat.le_zero.mp there
    subst none_
    exact ⟨[], ⟨List.prefix_refl _, Nat.le_refl _, fun other start _ => start.length_le⟩, rfl⟩
  | cons character rest ih =>
    have bytes : encode (character :: rest) = String.utf8EncodeChar character ++ encode rest :=
      List.flatMap_cons
    have size : (String.utf8EncodeChar character).length = character.utf8Size :=
      String.length_utf8EncodeChar character
    rw [byteCount_cons] at there
    by_cases room : character.utf8Size ≤ count
    · obtain ⟨kept, fitting, decoded⟩ := ih (count - character.utf8Size) (by omega)
      refine ⟨character :: kept, fitting.cons room, ?_⟩
      have same : byteCount (character :: kept) = count ↔
          byteCount kept = count - character.utf8Size := by
        rw [byteCount_cons]
        omega
      rw [bytes, List.take_append, List.take_of_length_le (by omega), size,
        decodeLossy_utf8EncodeChar_append, decoded, List.cons_append]
      simp only [same]
    · refine ⟨[], longestFitting_nil (Nat.lt_of_not_le room), ?_⟩
      rw [bytes, List.take_append_of_le_length (by omega)]
      by_cases nothing : count = 0
      · simp [nothing, decodeLossy, Decoder.finish]
      · obtain ⟨unfinished, inside⟩ := exists_inside
          (List.take_append_drop count (String.utf8EncodeChar character)).symm
          (by rw [← List.length_pos_iff, List.length_take]; omega)
          (by rw [← List.length_pos_iff, List.length_drop]; omega)
        rw [inside.decodeLossy_eq, if_neg (by simpa using Ne.symm nothing)]
        rfl

/--
Output is captured as the text that was written, in whatever reads its bytes arrive.

A first read is captured as the longest start of the text that fits into it, with one replacement
behind it if the read ends inside a character. Bytes that are no text are captured with one
replacement for each maximal invalid part of all of them together.
-/
theorem capture_faithful_to_text :
    (∀ (text : String) (reads : List (List UInt8)), reads.flatten = encode text.toList →
      Capture.full.take reads = text.toList ∧
      (∃ kept, LongestFitting text.toList ((reads.headD []).take 65536).length kept ∧
        (EndsInside text.toList ((reads.headD []).take 65536).length →
          Capture.firstChunk.take reads = kept ++ ['\uFFFD']) ∧
        (¬ EndsInside text.toList ((reads.headD []).take 65536).length →
          Capture.firstChunk.take reads = kept)) ∧
      ((reads.headD []).take 65536 = encode text.toList →
        Capture.firstChunk.take reads = Capture.full.take reads)) ∧
    ∀ reads : List (List UInt8),
      (∀ text, LossyText reads.flatten text ↔ Capture.full.take reads = text) ∧
      ∀ others : List (List UInt8), others.flatten = reads.flatten →
        Capture.full.take others = Capture.full.take reads := by
  refine ⟨fun text reads delivered => ?_, fun reads => ⟨fun text => ?_, fun others same => ?_⟩⟩
  · have full : Capture.full.take reads = text.toList := by
      rw [Capture.take, delivered, decodeLossy_encode]
    refine ⟨full, ?_, fun all => ?_⟩
    · -- The first read starts the bytes of the text.
      have start : (reads.headD []).take 65536 <+: encode text.toList := by
        rw [← delivered]
        cases reads with
        | nil => exact List.prefix_refl _
        | cons first rest =>
          exact (List.take_prefix _ first).trans (List.prefix_append first rest.flatten)
      have bytes := List.prefix_iff_eq_take.mp start
      have there := start.length_le
      rw [length_encode] at there
      obtain ⟨kept, fitting, decoded⟩ := exists_decodeLossy_take text.toList _ there
      have inside := fitting.endsInside_iff there
      rw [← bytes] at decoded
      refine ⟨kept, fitting, fun ends => ?_, fun between => ?_⟩
      · rw [if_neg (inside.mp ends)] at decoded
        exact decoded
      · have exact_ := not_not.mp (mt inside.mpr between)
        rw [if_pos exact_, List.append_nil] at decoded
        exact decoded
    · rw [full, Capture.take, firstReadLimit, all, decodeLossy_encode]
  · exact ⟨LossyText.decodeLossy_eq, fun same => same ▸ lossyText_decodeLossy reads.flatten⟩
  · rw [Capture.take, Capture.take, same]

/-- Reads that divide two characters, and one read of everything, capture the same text. -/
theorem capture_faithful_to_text_divided :
    let text := "a😀é"
    let reads : List (List UInt8) := [[0x61, 0xF0, 0x9F], [0x98, 0x80, 0xC3], [0xA9]]
    let whole := [encode text.toList]
    (reads.flatten = encode text.toList ∧
      EndsInside text.toList ((reads.headD []).take 65536).length ∧
      (whole.headD []).take 65536 = encode text.toList ∧ whole.flatten = reads.flatten) ∧
    Capture.full.take reads = text.toList ∧
    (∃ kept, LongestFitting text.toList 3 kept ∧
      Capture.firstChunk.take reads = kept ++ ['\uFFFD']) ∧
    Capture.firstChunk.take whole = Capture.full.take whole ∧
    Capture.full.take whole = Capture.full.take reads ∧
    LossyText reads.flatten text.toList := by
  intro text reads whole
  have delivered : reads.flatten = encode text.toList := by decide +kernel
  have ends : EndsInside text.toList ((reads.headD []).take 65536).length :=
    ⟨['a'], '😀', ['é'], by decide +kernel, by decide +kernel, by decide +kernel⟩
  have all : (whole.headD []).take 65536 = encode text.toList := by decide +kernel
  have wholeDelivered : whole.flatten = encode text.toList := by decide +kernel
  have same : whole.flatten = reads.flatten := wholeDelivered.trans delivered.symm
  obtain ⟨texts, chunkings⟩ := capture_faithful_to_text
  obtain ⟨full, ⟨kept, fitting, inside, -⟩, -⟩ := texts text reads delivered
  obtain ⟨lossy, independent⟩ := chunkings reads
  exact ⟨⟨delivered, ends, all, same⟩, full, ⟨kept, fitting, inside ends⟩,
    (texts text whole wholeDelivered).2.2 all, independent whole same, (lossy _).mpr full⟩

end LanguageServer

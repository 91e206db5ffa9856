import Mathlib.Data.Nat.Find
import LanguageServer.Proofs.Text.Position
import LanguageServer.Text.Utf8

/-! Bytes are read as the characters that they encode, and invalid parts as one replacement each. -/

namespace LanguageServer

/-- The byte of a character that has one byte only. -/
theorem Lead.ofByte_eq_whole_iff {byte : Nat} {character : Char} :
    Lead.ofByte byte = .whole character ↔ byte < 0x80 ∧ character = Char.ofNat byte := by
  -- Every other branch begins a longer character or none.
  unfold Lead.ofByte
  repeat' split
  all_goals grind

/-- The bytes that begin a longer character, with what each of them says about the rest of it. -/
theorem Lead.ofByte_eq_begun_iff {byte : Nat} {unfinished : Unfinished} :
    Lead.ofByte byte = .begun unfinished ↔
      (0xC2 ≤ byte ∧ byte < 0xE0 ∧ unfinished = ⟨byte - 0xC0, 1, 0x80, 0xBF⟩) ∨
      (0xE0 ≤ byte ∧ byte < 0xF0 ∧ unfinished =
        ⟨byte - 0xE0, 2, if byte = 0xE0 then 0xA0 else 0x80,
          if byte = 0xED then 0x9F else 0xBF⟩) ∨
      (0xF0 ≤ byte ∧ byte < 0xF5 ∧ unfinished =
        ⟨byte - 0xF0, 3, if byte = 0xF0 then 0x90 else 0x80,
          if byte = 0xF4 then 0x8F else 0xBF⟩) := by
  -- The branches with a narrower range are members of the families of three and four bytes.
  unfold Lead.ofByte
  repeat' split
  all_goals grind

/-- A code point that exists is that of its character. -/
theorem toNat_ofNat_of_isValidChar {code : Nat} (valid : code.isValidChar) :
    (Char.ofNat code).toNat = code := by
  -- No other character is put in its place.
  rw [Char.ofNat, dif_pos valid]
  rfl

/-- The bytes of a character by its code point. -/
theorem utf8EncodeChar_ofNat {code : Nat} (valid : code.isValidChar) :
    String.utf8EncodeChar (Char.ofNat code) =
      if code ≤ 0x7F then [UInt8.ofNat code]
      else if code ≤ 0x7FF then
        [UInt8.ofNat (code / 64 % 32 + 0xC0), UInt8.ofNat (code % 64 + 0x80)]
      else if code ≤ 0xFFFF then
        [UInt8.ofNat (code / 4096 % 16 + 0xE0), UInt8.ofNat (code / 64 % 64 + 0x80),
          UInt8.ofNat (code % 64 + 0x80)]
      else
        [UInt8.ofNat (code / 262144 % 8 + 0xF0), UInt8.ofNat (code / 4096 % 64 + 0x80),
          UInt8.ofNat (code / 64 % 64 + 0x80), UInt8.ofNat (code % 64 + 0x80)] := by
  -- Six bits go into each byte behind the first.
  have same : (Char.ofNat code).val.toNat = code := toNat_ofNat_of_isValidChar valid
  simp only [String.utf8EncodeChar, same]

/-- The first bytes of a character, with what the decoder knows about it behind them. -/
inductive Inside : List UInt8 → Unfinished → Prop where
  | begun {byte : UInt8} {unfinished : Unfinished} :
    Lead.ofByte byte.toNat = .begun unfinished → Inside [byte] unfinished
  | continued {part : List UInt8} {unfinished : Unfinished} {byte : UInt8} :
    Inside part unfinished → unfinished.low ≤ byte.toNat → byte.toNat ≤ unfinished.high →
    1 < unfinished.owed →
    Inside (part ++ [byte])
      ⟨64 * unfinished.bits + (byte.toNat - 0x80), unfinished.owed - 1, 0x80, 0xBF⟩

namespace Inside

variable {part : List UInt8} {unfinished : Unfinished}

/-- The decoder has read no character while it is inside one. -/
theorem foldl_step (inside : Inside part unfinished) (read : List Char) :
    part.foldl Decoder.step ⟨read, none⟩ = ⟨read, some unfinished⟩ := by
  -- Each further byte is in the range that was announced.
  induction inside with
  | begun lead => simp [Decoder.step, Decoder.start, lead]
  | continued _ low high owed ih =>
    have more : ¬ _ ≤ 1 := Nat.not_le_of_lt owed
    simp [List.foldl_append, ih, Decoder.step, low, high, more]

/-- At least one byte was read, and a character has four bytes at most. -/
theorem length_add_owed_le (inside : Inside part unfinished) :
    1 ≤ part.length ∧ part.length + unfinished.owed ≤ 4 := by
  -- Each byte that is read is no longer owed.
  induction inside with
  | begun lead =>
    obtain ⟨-, -, rfl⟩ | ⟨-, -, rfl⟩ | ⟨-, -, rfl⟩ := Lead.ofByte_eq_begun_iff.mp lead <;> simp
  | continued _ _ _ owed ih =>
    simp only [List.length_append, List.length_singleton]
    omega

/-- The range of the next byte is not empty. -/
theorem range_nonempty (inside : Inside part unfinished) :
    unfinished.low ≤ unfinished.high ∧ unfinished.high < 256 := by
  -- The narrowest range is that behind the last of the first bytes.
  cases inside with
  | begun lead =>
    obtain ⟨-, -, rfl⟩ | ⟨-, -, rfl⟩ | ⟨-, -, rfl⟩ := Lead.ofByte_eq_begun_iff.mp lead
    · simp
    · dsimp only
      split <;> split <;> omega
    · dsimp only
      split <;> split <;> omega
  | continued _ _ _ _ => simp

/--
The last byte that is owed finishes the bytes of the character that is read.

The range of the second byte keeps out overlong forms, surrogates and code points that are too
large.
-/
theorem utf8EncodeChar_eq (inside : Inside part unfinished) {byte : UInt8}
    (low : unfinished.low ≤ byte.toNat) (high : byte.toNat ≤ unfinished.high)
    (last : unfinished.owed ≤ 1) :
    String.utf8EncodeChar (Char.ofNat (64 * unfinished.bits + (byte.toNat - 0x80))) =
      part ++ [byte] := by
  -- The first byte says how many bytes there are, so that three shapes are left.
  cases inside with
  | begun lead =>
    obtain ⟨least, most, rfl⟩ | ⟨-, -, rfl⟩ | ⟨-, -, rfl⟩ := Lead.ofByte_eq_begun_iff.mp lead
    · dsimp only at low high ⊢
      rw [utf8EncodeChar_ofNat (by unfold Nat.isValidChar; omega), if_neg (by omega),
        if_pos (by omega)]
      simp only [List.cons_append, List.nil_append, List.cons.injEq, and_true,
        ← UInt8.toNat_inj, UInt8.toNat_ofNat']
      omega
    · simp at last
    · simp at last
  | @continued _ _ middle inside lower higher owed =>
    dsimp only at low high last
    cases inside with
    | @begun first _ lead =>
      obtain ⟨-, -, rfl⟩ | ⟨least, most, rfl⟩ | ⟨-, -, rfl⟩ := Lead.ofByte_eq_begun_iff.mp lead
      · simp at owed
      · have narrow : 0x80 ≤ middle.toNat ∧ middle.toNat ≤ 0xBF ∧
            (first.toNat = 0xE0 → 0xA0 ≤ middle.toNat) ∧
            (first.toNat = 0xED → middle.toNat ≤ 0x9F) := by
          dsimp only at lower higher
          split at lower <;> split at higher <;> omega
        dsimp only
        rw [utf8EncodeChar_ofNat (by unfold Nat.isValidChar; omega), if_neg (by omega),
          if_neg (by omega), if_pos (by omega)]
        simp only [List.cons_append, List.nil_append, List.cons.injEq, and_true,
          ← UInt8.toNat_inj, UInt8.toNat_ofNat']
        omega
      · simp at last
    | @continued _ _ second inside lowest highest owing =>
      dsimp only at lower higher owed last
      cases inside with
      | @begun first _ lead =>
        obtain ⟨-, -, rfl⟩ | ⟨-, -, rfl⟩ | ⟨least, most, rfl⟩ := Lead.ofByte_eq_begun_iff.mp lead
        · simp at owing
        · simp at owed
        · have narrow : 0x80 ≤ second.toNat ∧ second.toNat ≤ 0xBF ∧
              (first.toNat = 0xF0 → 0x90 ≤ second.toNat) ∧
              (first.toNat = 0xF4 → second.toNat ≤ 0x8F) := by
            dsimp only at lowest highest
            split at lowest <;> split at highest <;> omega
          dsimp only
          rw [utf8EncodeChar_ofNat (by unfold Nat.isValidChar; omega), if_neg (by omega),
            if_neg (by omega), if_neg (by omega)]
          simp only [List.cons_append, List.nil_append, List.cons.injEq, and_true,
            ← UInt8.toNat_inj, UInt8.toNat_ofNat']
          omega
      | continued inside _ _ _ =>
        have := inside.length_add_owed_le
        dsimp only at owing owed
        omega

/-- What the decoder is inside of can be finished to the bytes of a character. -/
theorem exists_character {part : List UInt8} {unfinished : Unfinished}
    (inside : Inside part unfinished) :
    ∃ character tail, tail ≠ [] ∧ String.utf8EncodeChar character = part ++ tail := by
  -- The lowest byte of each range goes on until the last one that is owed.
  obtain ⟨ordered, small⟩ := inside.range_nonempty
  have lowest : (UInt8.ofNat unfinished.low).toNat = unfinished.low := by
    rw [UInt8.toNat_ofNat']
    omega
  by_cases last : unfinished.owed ≤ 1
  · exact ⟨_, _, List.cons_ne_nil _ _,
      inside.utf8EncodeChar_eq lowest.ge (lowest.le.trans ordered) last⟩
  · have further :=
      inside.continued lowest.ge (lowest.le.trans ordered) (Nat.lt_of_not_le last)
    obtain ⟨character, tail, -, bytes⟩ := further.exists_character
    exact ⟨character, UInt8.ofNat unfinished.low :: tail, List.cons_ne_nil _ _, by simp [bytes]⟩
termination_by unfinished.owed

/-- A byte in the announced range goes on with a character. -/
theorem begins_of_byte (inside : Inside part unfinished) {byte : UInt8}
    (low : unfinished.low ≤ byte.toNat) (high : byte.toNat ≤ unfinished.high) :
    ∃ character, part ++ [byte] <+: String.utf8EncodeChar character := by
  -- It is the last byte of the character, or more can follow.
  by_cases last : unfinished.owed ≤ 1
  · exact ⟨_, [], by rw [inside.utf8EncodeChar_eq low high last, List.append_nil]⟩
  · obtain ⟨character, tail, -, bytes⟩ :=
      (inside.continued low high (Nat.lt_of_not_le last)).exists_character
    exact ⟨character, tail, bytes.symm⟩

/-- The decoder was inside the character behind each of the bytes that it has read of it. -/
theorem of_start (inside : Inside part unfinished) {start : List UInt8} (starts : start <+: part)
    (nonempty : start ≠ []) : ∃ earlier, Inside start earlier := by
  -- A start is the whole or a start of what was read before the last byte.
  induction inside with
  | begun lead =>
    rcases List.prefix_concat_iff.mp (show start <+: [] ++ [_] from starts) with rfl | within
    · exact ⟨_, .begun lead⟩
    · exact absurd (List.prefix_nil.mp within) nonempty
  | continued inside low high owed ih =>
    rcases List.prefix_concat_iff.mp starts with rfl | within
    · exact ⟨_, inside.continued low high owed⟩
    · exact ih within

end Inside

/-- The bytes of a character are one byte, or bytes inside it and the last one that is owed. -/
theorem utf8EncodeChar_cases (character : Char) :
    (∃ byte, String.utf8EncodeChar character = [byte] ∧
      Lead.ofByte byte.toNat = .whole character) ∨
    ∃ part unfinished byte, String.utf8EncodeChar character = part ++ [byte] ∧
      Inside part unfinished ∧ unfinished.low ≤ byte.toNat ∧ byte.toNat ≤ unfinished.high ∧
      unfinished.owed ≤ 1 ∧
      Char.ofNat (64 * unfinished.bits + (byte.toNat - 0x80)) = character := by
  -- The number of bytes depends on the code point, and surrogates are none.
  obtain ⟨code, valid, rfl⟩ : ∃ code, Nat.isValidChar code ∧ Char.ofNat code = character :=
    ⟨character.toNat, character.valid, Char.ofNat_toNat character⟩
  rw [utf8EncodeChar_ofNat valid]
  unfold Nat.isValidChar at valid
  split
  · refine .inl ⟨_, rfl, ?_⟩
    rw [Lead.ofByte_eq_whole_iff, UInt8.toNat_ofNat']
    exact ⟨by omega, congrArg Char.ofNat (by omega)⟩
  split
  · refine .inr ⟨[UInt8.ofNat (code / 64 % 32 + 0xC0)], _, UInt8.ofNat (code % 64 + 0x80), rfl,
      .begun (Lead.ofByte_eq_begun_iff.mpr (.inl ⟨?_, ?_, rfl⟩)), ?_, ?_, Nat.le_refl _,
      congrArg Char.ofNat ?_⟩
    all_goals simp only [UInt8.toNat_ofNat']
    all_goals omega
  split
  · refine .inr ⟨[UInt8.ofNat (code / 4096 % 16 + 0xE0)] ++ [UInt8.ofNat (code / 64 % 64 + 0x80)],
      _, UInt8.ofNat (code % 64 + 0x80), rfl,
      .continued (.begun (Lead.ofByte_eq_begun_iff.mpr (.inr (.inl ⟨?_, ?_, rfl⟩)))) ?_ ?_ ?_,
      ?_, ?_, Nat.le_refl _, congrArg Char.ofNat ?_⟩
    all_goals simp only [UInt8.toNat_ofNat']
    all_goals (try split)
    all_goals omega
  · refine .inr ⟨[UInt8.ofNat (code / 262144 % 8 + 0xF0)] ++
        [UInt8.ofNat (code / 4096 % 64 + 0x80)] ++ [UInt8.ofNat (code / 64 % 64 + 0x80)],
      _, UInt8.ofNat (code % 64 + 0x80), rfl,
      .continued (.continued (.begun (Lead.ofByte_eq_begun_iff.mpr (.inr (.inr ⟨?_, ?_, rfl⟩))))
        ?_ ?_ ?_) ?_ ?_ ?_,
      ?_, ?_, Nat.le_refl _, congrArg Char.ofNat ?_⟩
    all_goals simp only [UInt8.toNat_ofNat']
    all_goals (try split)
    all_goals omega

/-- Some of the bytes of a character, but not all of them, leave the decoder inside it. -/
theorem exists_inside {character : Char} {part tail : List UInt8}
    (bytes : String.utf8EncodeChar character = part ++ tail) (begun : part ≠ [])
    (unended : tail ≠ []) : ∃ unfinished, Inside part unfinished := by
  -- They are bytes before the last one.
  obtain ⟨last, rest, rfl⟩ : ∃ last rest, tail = rest ++ [last] :=
    ⟨_, _, (List.dropLast_concat_getLast unended).symm⟩
  rw [← List.append_assoc] at bytes
  rcases utf8EncodeChar_cases character with ⟨byte, shape, -⟩ | ⟨whole, _, byte, shape, inside, -⟩
  · have nothing : part ++ rest = [] := by
      have ended : [] ++ [byte] = part ++ rest ++ [last] := shape.symm.trans bytes
      exact (List.append_inj_left' ended rfl).symm
    exact absurd (List.append_eq_nil_iff.mp nothing).1 begun
  · have same : whole = part ++ rest := by
      exact List.append_inj_left' (shape.symm.trans bytes) rfl
    exact inside.of_start (same ▸ List.prefix_append part rest) begun

/-- Reading the bytes of a character reads the character. -/
theorem foldl_step_utf8EncodeChar (character : Char) (read : List Char) :
    (String.utf8EncodeChar character).foldl Decoder.step ⟨read, none⟩ =
      ⟨character :: read, none⟩ := by
  rcases utf8EncodeChar_cases character with ⟨byte, shape, whole⟩ | ⟨part, unfinished, byte, shape,
    inside, low, high, last, same⟩
  · simp [shape, Decoder.step, Decoder.start, whole]
  · rw [shape, List.foldl_append, inside.foldl_step]
    simp [Decoder.step, low, high, last, same]

/-- Characters that were read before stay in front of what is read. -/
private theorem Decoder.foldl_step_eq (bytes : List UInt8) (read : List Char)
    (unfinished : Option Unfinished) :
    bytes.foldl Decoder.step ⟨read, unfinished⟩ =
      ⟨(bytes.foldl Decoder.step ⟨[], unfinished⟩).read ++ read,
        (bytes.foldl Decoder.step ⟨[], unfinished⟩).unfinished⟩ := by
  -- No step looks at the characters that were read.
  have start : ∀ (read : List Char) (byte : Nat), Decoder.start read byte =
      ⟨(Decoder.start [] byte).read ++ read, (Decoder.start [] byte).unfinished⟩ := by
    intro read byte
    unfold Decoder.start
    split <;> rfl
  have step : ∀ (read : List Char) (unfinished : Option Unfinished) (byte : UInt8),
      Decoder.step ⟨read, unfinished⟩ byte =
        ⟨(Decoder.step ⟨[], unfinished⟩ byte).read ++ read,
          (Decoder.step ⟨[], unfinished⟩ byte).unfinished⟩ := by
    intro read unfinished byte
    cases unfinished with
    | none => exact start read byte.toNat
    | some unfinished =>
      simp only [Decoder.step]
      split
      · split <;> rfl
      · rw [start, start [replacement]]
        simp
  induction bytes generalizing read unfinished with
  | nil => rfl
  | cons byte rest ih =>
    simp only [List.foldl_cons]
    rw [step, ih, ih (Decoder.step ⟨[], unfinished⟩ byte).read]
    simp

/-- What was read before a character starts stays in front of the rest of the text. -/
private theorem Decoder.finish_foldl_step (bytes : List UInt8) (read : List Char) :
    (bytes.foldl Decoder.step ⟨read, none⟩).finish = read.reverse ++ decodeLossy bytes := by
  -- The end of the bytes is the same for both.
  rw [Decoder.foldl_step_eq, decodeLossy]
  unfold Decoder.finish
  dsimp only
  split <;> simp

/-- The bytes of a character are read as the character, whatever follows. -/
theorem decodeLossy_utf8EncodeChar_append (character : Char) (rest : List UInt8) :
    decodeLossy (String.utf8EncodeChar character ++ rest) = character :: decodeLossy rest := by
  -- The decoder stands between two characters behind them.
  rw [decodeLossy, List.foldl_append, foldl_step_utf8EncodeChar, Decoder.finish_foldl_step]
  rfl

/-- Bytes that end inside a character are read as one replacement. -/
theorem Inside.decodeLossy_eq {part : List UInt8} {unfinished : Unfinished}
    (inside : Inside part unfinished) : decodeLossy part = [replacement] := by
  -- Nothing was read before.
  rw [decodeLossy, inside.foldl_step]
  rfl

/-- A byte that cannot go on with a character ends an invalid part. -/
theorem Inside.decodeLossy_append {part : List UInt8} {unfinished : Unfinished}
    (inside : Inside part unfinished) {byte : UInt8}
    (outside : ¬ (unfinished.low ≤ byte.toNat ∧ byte.toNat ≤ unfinished.high))
    (rest : List UInt8) :
    decodeLossy (part ++ byte :: rest) = replacement :: decodeLossy (byte :: rest) := by
  -- The byte starts anew behind the replacement.
  have step : Decoder.step ⟨[], some unfinished⟩ byte =
      Decoder.step ⟨[replacement], none⟩ byte := by
    simp only [Decoder.step, if_neg outside]
  rw [decodeLossy, List.foldl_append, inside.foldl_step, List.foldl_cons, step,
    ← List.foldl_cons, Decoder.finish_foldl_step]
  rfl

/-- A byte with which no character starts is an invalid part of its own. -/
theorem decodeLossy_cons_of_none {byte : UInt8} (lead : Lead.ofByte byte.toNat = .none)
    (rest : List UInt8) : decodeLossy (byte :: rest) = replacement :: decodeLossy rest := by
  -- The decoder stands between two characters behind it.
  have step : Decoder.step {} byte = ⟨[replacement], none⟩ := by
    simp [Decoder.step, Decoder.start, lead]
  rw [decodeLossy, List.foldl_cons, step, Decoder.finish_foldl_step]
  rfl

/-- The bytes of a text are read as the text. -/
@[simp] theorem decodeLossy_encode (text : List Char) : decodeLossy (encode text) = text := by
  -- Each character is read from its own bytes.
  induction text with
  | nil => rfl
  | cons character rest ih =>
    rw [encode, List.flatMap_cons, decodeLossy_utf8EncodeChar_append, ← encode, ih]

/-- The bytes of a text are valid. -/
@[simp] theorem decode?_encode (text : List Char) : decode? (encode text) = some text := by
  -- They are the encoding of what is read from them.
  simp [decode?]

/-- A text is encoded by as many bytes as it has. -/
@[simp] theorem length_encode (text : List Char) : (encode text).length = byteCount text := by
  -- Each character is encoded on its own.
  induction text with
  | nil => rfl
  | cons character rest ih =>
    rw [encode, List.flatMap_cons, List.length_append, String.length_utf8EncodeChar, ← encode, ih,
      byteCount_cons]

/-- Whether bytes are the first bytes of a character, or all of them. -/
def Begins (part : List UInt8) : Prop :=
  -- The character may have more bytes.
  ∃ character, part <+: String.utf8EncodeChar character

/--
The longest part at the start of bytes that could have begun a character, none of which is there.

If not even the first byte could have begun one, the part is that byte.
-/
structure MaximalInvalid (part rest : List UInt8) : Prop where
  nonempty : part ≠ []
  /-- No character stands at the start of the bytes. -/
  unreadable : ∀ character, ¬ String.utf8EncodeChar character <+: part ++ rest
  begins : Begins part ∨ part.length = 1
  longest : ∀ other, other <+: part ++ rest → Begins other ∨ other.length = 1 →
    other.length ≤ part.length

/-- The text of bytes, with one replacement for each maximal invalid part. -/
inductive LossyText : List UInt8 → List Char → Prop where
  | nil : LossyText [] []
  | character {character : Char} {rest : List UInt8} {text : List Char} :
    LossyText rest text → LossyText (String.utf8EncodeChar character ++ rest) (character :: text)
  | replaced {part rest : List UInt8} {text : List Char} :
    MaximalInvalid part rest → LossyText rest text → LossyText (part ++ rest) ('\uFFFD' :: text)

/-- Bytes with which a character could start have a first byte that says so. -/
theorem begins_singleton_of_ne_none {byte : UInt8} (lead : Lead.ofByte byte.toNat ≠ .none) :
    Begins [byte] := by
  -- The byte is a whole character, or more bytes can follow it.
  cases shape : Lead.ofByte byte.toNat with
  | whole character =>
    obtain ⟨small, rfl⟩ := Lead.ofByte_eq_whole_iff.mp shape
    refine ⟨Char.ofNat byte.toNat, [], ?_⟩
    rw [utf8EncodeChar_ofNat (by unfold Nat.isValidChar; omega), if_pos (by omega),
      UInt8.ofNat_toNat]
    rfl
  | begun unfinished =>
    obtain ⟨character, tail, -, bytes⟩ := (Inside.begun shape).exists_character
    exact ⟨character, tail, bytes.symm⟩
  | none => exact absurd shape lead

/-- A maximal invalid part is read as one replacement. -/
theorem MaximalInvalid.decodeLossy_append {part rest : List UInt8}
    (invalid : MaximalInvalid part rest) :
    decodeLossy (part ++ rest) = replacement :: decodeLossy rest := by
  by_cases begins : Begins part
  · -- The decoder is inside a character behind it, and what follows does not go on with it.
    obtain ⟨character, tail, bytes⟩ := begins
    have unended : tail ≠ [] := by
      rintro rfl
      rw [List.append_nil] at bytes
      exact invalid.unreadable character (bytes ▸ List.prefix_append part rest)
    obtain ⟨unfinished, inside⟩ := exists_inside bytes.symm invalid.nonempty unended
    cases rest with
    | nil => rw [List.append_nil, inside.decodeLossy_eq]; rfl
    | cons byte others =>
      refine inside.decodeLossy_append (fun within => ?_) others
      have longer := invalid.longest (part ++ [byte]) ⟨others, by simp⟩
        (.inl (inside.begins_of_byte within.1 within.2))
      rw [List.length_append, List.length_singleton] at longer
      omega
  · -- No character starts with the only byte of the part.
    obtain ⟨byte, rfl⟩ := List.length_eq_one_iff.mp (invalid.begins.resolve_left begins)
    have lead : Lead.ofByte byte.toNat = .none := by
      by_contra other
      exact begins (begins_singleton_of_ne_none other)
    exact decodeLossy_cons_of_none lead rest

/-- Bytes that start with no character start with a maximal invalid part. -/
theorem exists_maximalInvalid {bytes : List UInt8} (nonempty : bytes ≠ [])
    (unreadable : ∀ character, ¬ String.utf8EncodeChar character <+: bytes) :
    ∃ part rest, bytes = part ++ rest ∧ MaximalInvalid part rest := by
  classical
  -- It is the longest of the finitely many starts that can be taken.
  let fits (count : Nat) : Prop := Begins (bytes.take count) ∨ (bytes.take count).length = 1
  have some_ : 1 ≤ bytes.length := List.length_pos_iff.mpr nonempty
  have first : fits 1 := .inr (by simp; omega)
  have found : fits (Nat.findGreatest fits bytes.length) := Nat.findGreatest_spec some_ first
  have positive : 1 ≤ Nat.findGreatest fits bytes.length := Nat.le_findGreatest some_ first
  have bounded : Nat.findGreatest fits bytes.length ≤ bytes.length := Nat.findGreatest_le _
  refine ⟨_, _, (List.take_append_drop (Nat.findGreatest fits bytes.length) bytes).symm, ?_, ?_,
    found, ?_⟩
  · rw [← List.length_pos_iff, List.length_take]
    omega
  · rwa [List.take_append_drop]
  · intro other start eligible
    rw [List.take_append_drop] at start
    have same : bytes.take other.length = other := (List.prefix_iff_eq_take.mp start).symm
    have greatest : other.length ≤ Nat.findGreatest fits bytes.length :=
      Nat.le_findGreatest start.length_le (by simpa only [fits, same] using eligible)
    rw [List.length_take]
    omega

/-- Decoding replaces each maximal invalid part and nothing else. -/
theorem lossyText_decodeLossy (bytes : List UInt8) : LossyText bytes (decodeLossy bytes) := by
  -- What stands at the start of the bytes is a character or a maximal invalid part.
  by_cases nothing : bytes = []
  · rw [nothing]
    exact .nil
  by_cases readable : ∃ character, String.utf8EncodeChar character <+: bytes
  · obtain ⟨character, rest, rfl⟩ := readable
    rw [decodeLossy_utf8EncodeChar_append]
    exact .character (lossyText_decodeLossy rest)
  · obtain ⟨part, rest, rfl, invalid⟩ :=
      exists_maximalInvalid nothing (fun character start => readable ⟨character, start⟩)
    rw [invalid.decodeLossy_append]
    exact .replaced invalid (lossyText_decodeLossy rest)
termination_by bytes.length
decreasing_by
  · have := Char.utf8Size_pos character
    subst bytes
    rw [List.length_append, String.length_utf8EncodeChar]
    omega
  · have := List.length_pos_iff.mpr invalid.nonempty
    subst bytes
    rw [List.length_append]
    omega

/-- Bytes have one text only in which each maximal invalid part is replaced. -/
theorem LossyText.decodeLossy_eq {bytes : List UInt8} {text : List Char}
    (lossy : LossyText bytes text) : decodeLossy bytes = text := by
  -- The parts of the bytes are read one after another.
  induction lossy with
  | nil => rfl
  | character _ ih => rw [decodeLossy_utf8EncodeChar_append, ih]
  | replaced invalid _ ih =>
    rw [invalid.decodeLossy_append, ih]
    rfl

end LanguageServer

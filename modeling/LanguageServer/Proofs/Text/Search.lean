import Mathlib.Data.List.Infix
import LanguageServer.Text.Search

/-! A search finds a word at its first place, or at its last, and nowhere else. -/

namespace LanguageServer

variable {word text before behind : List Char}

/-- Characters that were passed over stand before whatever the search finds. -/
private theorem splitFrom_eq (word passed text : List Char) :
    splitFrom word passed text =
      (splitFirst? word text).map fun parts => (passed.reverse ++ parts.1, parts.2) := by
  -- The passed characters are only carried along.
  unfold splitFirst?
  induction text generalizing passed with
  | nil =>
    simp only [splitFrom]
    split <;> simp
  | cons character rest ih =>
    simp only [splitFrom]
    cases word.isPrefixOf? (character :: rest) with
    | some after => simp
    | none =>
      rw [ih (character :: passed), ih [character]]
      cases splitFrom word [] rest <;> simp

/-- A word that stands at the start of a text is found there. -/
theorem splitFirst?_of_start (nonempty : word ≠ []) (after : List Char) :
    splitFirst? word (word ++ after) = some ([], after) := by
  -- The start is looked at before anything is passed over.
  obtain ⟨character, rest, shape⟩ := List.exists_cons_of_ne_nil
    (show word ++ after ≠ [] by simp [nonempty])
  have found : word.isPrefixOf? (character :: rest) = some after := by
    rw [List.isPrefixOf?_eq_some_iff_append_eq, shape]
  rw [shape]
  simp [splitFirst?, splitFrom, found]

/-- A search passes over a character at which the word does not start. -/
theorem splitFirst?_of_not_start {character : Char} {rest : List Char}
    (elsewhere : ¬ word <+: character :: rest) :
    splitFirst? word (character :: rest) =
      (splitFirst? word rest).map fun parts => (character :: parts.1, parts.2) := by
  -- The search goes on behind the character.
  have missing : word.isPrefixOf? (character :: rest) = none := by
    rw [Option.eq_none_iff_forall_ne_some]
    intro after found
    rw [List.isPrefixOf?_eq_some_iff_append_eq] at found
    exact elsewhere ⟨after, found⟩
  have step := splitFrom_eq word [character] rest
  simpa [splitFirst?, splitFrom, missing] using step

/-- Between two starts of one text, the shorter one is a start of the longer one. -/
private theorem start_of_first {after : List Char} (same : before ++ word ++ behind = word ++ after)
    (passed : before ≠ []) : word <+: before ++ word.dropLast := by
  -- At least one character before the place makes up for the one that is dropped.
  have inText : before ++ word.dropLast <+: word ++ after := by
    rw [← same, List.append_assoc]
    exact List.prefix_append_right_inj before |>.mpr
      ((List.dropLast_prefix word).trans (List.prefix_append word behind))
  have long : word.length ≤ (before ++ word.dropLast).length := by
    have := List.length_pos_iff.mpr passed
    simp only [List.length_append, List.length_dropLast]
    omega
  exact List.prefix_of_prefix_length_le (List.prefix_append word after) inText long

/--
A search finds a word where the text is cut around it, if the word does not stand earlier.

It would end before the last character of its found place if it did.
-/
theorem splitFirst?_eq_some_iff (nonempty : word ≠ []) :
    splitFirst? word text = some (before, behind) ↔
      text = before ++ word ++ behind ∧ ¬ word <:+: before ++ word.dropLast := by
  -- The induction passes over the characters before the place.
  induction text generalizing before with
  | nil => simp [splitFirst?, splitFrom, nonempty]
  | cons character rest ih =>
    by_cases starts : word <+: character :: rest
    · obtain ⟨after, shape⟩ := starts
      rw [← shape, splitFirst?_of_start nonempty]
      constructor
      · intro found
        cases found
        refine ⟨by simp, fun inside => ?_⟩
        have short := inside.length_le
        have := List.length_pos_iff.mpr nonempty
        simp only [List.nil_append, List.length_dropLast] at short
        omega
      · rintro ⟨cutHere, first⟩
        by_cases passed : before = []
        · subst passed
          simp only [List.nil_append] at cutHere
          rw [List.append_cancel_left cutHere]
        · exact absurd (start_of_first cutHere.symm passed).isInfix first
    · rw [splitFirst?_of_not_start starts]
      constructor
      · intro found
        obtain ⟨⟨early, late⟩, foundLater, shape⟩ := Option.map_eq_some_iff.mp found
        cases shape
        obtain ⟨cutThere, first⟩ := ih.mp foundLater
        refine ⟨by simp [cutThere], fun inside => ?_⟩
        rw [List.cons_append, List.infix_cons_iff] at inside
        rcases inside with atStart | later
        · refine starts (atStart.trans ?_)
          rw [cutThere, ← List.cons_append, List.append_assoc]
          exact List.prefix_append_right_inj (character :: early) |>.mpr
            ((List.dropLast_prefix word).trans (List.prefix_append word late))
        · exact first later
      · rintro ⟨cutHere, first⟩
        cases before with
        | nil => exact absurd ⟨behind, by simpa using cutHere.symm⟩ starts
        | cons passed early =>
          obtain ⟨rfl, cutThere⟩ : character = passed ∧ rest = early ++ word ++ behind := by
            simpa using cutHere
          have firstThere : ¬ word <:+: early ++ word.dropLast := fun inside =>
            first (List.infix_cons_iff.mpr (.inr inside))
          rw [ih.mpr ⟨cutThere, firstThere⟩]
          rfl

/-- A search finds nothing exactly in a text that does not hold the word. -/
theorem splitFirst?_eq_none_iff (nonempty : word ≠ []) :
    splitFirst? word text = none ↔ ¬ word <:+: text := by
  -- The word is at the start of the text or in what follows its first character.
  induction text with
  | nil => simp [splitFirst?, splitFrom, nonempty]
  | cons character rest ih =>
    rw [List.infix_cons_iff]
    by_cases starts : word <+: character :: rest
    · obtain ⟨after, shape⟩ := starts
      rw [← shape, splitFirst?_of_start nonempty]
      simp
    · rw [splitFirst?_of_not_start starts, Option.map_eq_none_iff, ih]
      simp [starts]

/-- A word that was found is found at the same place when more text follows. -/
theorem splitFirst?_append (nonempty : word ≠ [])
    (found : splitFirst? word text = some (before, behind)) (more : List Char) :
    splitFirst? word (text ++ more) = some (before, behind ++ more) := by
  -- What follows cannot bring the word to an earlier place.
  obtain ⟨shape, first⟩ := (splitFirst?_eq_some_iff nonempty).mp found
  rw [splitFirst?_eq_some_iff nonempty]
  exact ⟨by simp [shape], first⟩

/-- A search from the back is a search from the front of the reversed text. -/
theorem splitLast?_eq_some_iff_reverse :
    splitLast? word text = some (before, behind) ↔
      splitFirst? word.reverse text.reverse = some (behind.reverse, before.reverse) := by
  -- The two parts are turned around and change their places.
  simp only [splitLast?, Option.map_eq_some_iff, Prod.mk.injEq, Prod.exists]
  constructor
  · rintro ⟨early, late, found, rfl, rfl⟩
    simpa using found
  · exact fun found => ⟨_, _, found, by simp, by simp⟩

/-- A search from the back finds a word behind which the word does not start again. -/
theorem splitLast?_eq_some_iff (nonempty : word ≠ []) :
    splitLast? word text = some (before, behind) ↔
      text = before ++ word ++ behind ∧ ¬ word <:+: word.tail ++ behind := by
  -- Everything is the first place in the reversed text.
  have shape : text.reverse = behind.reverse ++ word.reverse ++ before.reverse ↔
      text = before ++ word ++ behind := by
    rw [← List.reverse_inj]
    simp
  have inside : word.reverse <:+: behind.reverse ++ word.tail.reverse ↔
      word <:+: word.tail ++ behind := by
    rw [← List.reverse_append, List.reverse_infix]
  rw [splitLast?_eq_some_iff_reverse, splitFirst?_eq_some_iff (by simpa using nonempty),
    List.dropLast_reverse, shape, inside]

/-- A search from the back finds nothing exactly in a text that does not hold the word. -/
theorem splitLast?_eq_none_iff (nonempty : word ≠ []) :
    splitLast? word text = none ↔ ¬ word <:+: text := by
  -- The reversed text holds the reversed word.
  rw [splitLast?, Option.map_eq_none_iff, splitFirst?_eq_none_iff (by simpa using nonempty),
    List.reverse_infix]

/-- The first place of a word in a text, between what stands before and behind it. -/
structure FirstPlace (word text before behind : List Char) : Prop where
  parts : text = before ++ word ++ behind
  /-- At every other place of the word more stands before it. -/
  first : ∀ early late, text = early ++ word ++ late → before.length ≤ early.length

/-- The last place of a word in a text, between what stands before and behind it. -/
structure LastPlace (word text before behind : List Char) : Prop where
  parts : text = before ++ word ++ behind
  /-- At every other place of the word more stands behind it. -/
  last : ∀ early late, text = early ++ word ++ late → behind.length ≤ late.length

/-- A search finds the first place of a word. -/
theorem splitFirst?_eq_some_iff_firstPlace (nonempty : word ≠ []) :
    splitFirst? word text = some (before, behind) ↔ FirstPlace word text before behind := by
  -- A place with less before it would end before the last character of the found one.
  have long := List.length_pos_iff.mpr nonempty
  rw [splitFirst?_eq_some_iff nonempty]
  constructor
  · rintro ⟨shape, alone⟩
    refine ⟨shape, fun early late other => Nat.le_of_not_lt fun shorter => alone ?_⟩
    have ends : early ++ word <+: text := ⟨late, other.symm⟩
    have reaches : before ++ word.dropLast <+: text := by
      rw [shape, List.append_assoc]
      exact List.prefix_append_right_inj before |>.mpr
        ((List.dropLast_prefix word).trans (List.prefix_append word behind))
    have fits : (early ++ word).length ≤ (before ++ word.dropLast).length := by
      simp only [List.length_append, List.length_dropLast]
      omega
    exact (List.suffix_append early word).isInfix.trans
      (List.prefix_of_prefix_length_le ends reaches fits).isInfix
  · rintro ⟨shape, first⟩
    refine ⟨shape, ?_⟩
    rintro ⟨early, late, inside⟩
    have whole : text = early ++ word ++ (late ++ ([word.getLast nonempty] ++ behind)) := by
      rw [shape, ← List.append_assoc (early ++ word), inside]
      simp only [List.append_assoc]
      rw [← List.append_assoc word.dropLast, List.dropLast_append_getLast]
    have shorter := first _ _ whole
    have counted := congrArg List.length inside
    simp only [List.length_append, List.length_dropLast] at counted
    omega

/-- The last place of a word is its first one when both are read backwards. -/
theorem lastPlace_iff_reverse :
    LastPlace word text before behind ↔
      FirstPlace word.reverse text.reverse behind.reverse before.reverse := by
  -- Every way to cut the text is turned around.
  have turned : ∀ early late : List Char, text.reverse = late ++ word.reverse ++ early ↔
      text = early.reverse ++ word ++ late.reverse := by
    intro early late
    rw [← List.reverse_inj]
    simp
  constructor
  · rintro ⟨shape, last⟩
    refine ⟨(turned _ _).mpr (by simpa using shape), fun late early other => ?_⟩
    simpa using last _ _ ((turned early late).mp other)
  · rintro ⟨shape, first⟩
    refine ⟨by simpa using (turned _ _).mp shape, fun early late other => ?_⟩
    have placed := first late.reverse early.reverse ((turned _ _).mpr (by simpa using other))
    simpa using placed

/-- A search from the back finds the last place of a word. -/
theorem splitLast?_eq_some_iff_lastPlace (nonempty : word ≠ []) :
    splitLast? word text = some (before, behind) ↔ LastPlace word text before behind := by
  -- It is the first place in the reversed text.
  rw [splitLast?_eq_some_iff_reverse, lastPlace_iff_reverse,
    splitFirst?_eq_some_iff_firstPlace (by simpa using nonempty)]

/-- A word does not reach across a character that it does not hold. -/
theorem infix_append_cons {separator : Char} (nonempty : word ≠ []) (apart : separator ∉ word) :
    word <:+: before ++ separator :: behind ↔ word <:+: before ∨ word <:+: behind := by
  -- A start of the second part that the word reaches into begins with the separator.
  have notStart : ∀ part, part ≠ [] → part ⊆ word → ¬ part <+: separator :: behind := by
    intro part some_ inside start
    obtain ⟨character, rest, rfl⟩ := List.exists_cons_of_ne_nil some_
    obtain ⟨rfl, -⟩ := List.cons_prefix_cons.mp start
    exact apart (inside (by simp))
  rw [List.infix_append_iff_ne_nil, List.infix_cons_iff]
  constructor
  · rintro (left | (start | right) | ⟨first, second, -, some_, rfl, -, start⟩)
    · exact .inl left
    · exact absurd start (notStart word nonempty (List.Subset.refl _))
    · exact .inr right
    · exact absurd start (notStart second some_ (List.subset_append_right _ _))
  · rintro (left | right)
    · exact .inl left
    · exact .inr (.inl (.inr right))

/-- A word does not reach across a stretch of characters none of which it holds. -/
theorem infix_append_apart {middle : List Char} (nonempty : word ≠ []) (some_ : middle ≠ [])
    (apart : ∀ character ∈ middle, character ∉ word) :
    word <:+: before ++ (middle ++ behind) ↔ word <:+: before ∨ word <:+: behind := by
  -- The first character of the stretch parts the text, and the others stand behind nothing.
  induction middle generalizing before with
  | nil => exact absurd rfl some_
  | cons character rest ih =>
    rw [List.cons_append, infix_append_cons nonempty (apart character (by simp))]
    by_cases last : rest = []
    · rw [last, List.nil_append]
    · have later : word <:+: [] ++ (rest ++ behind) ↔ word <:+: [] ∨ word <:+: behind :=
        ih last fun other member => apart other (by simp [member])
      rw [List.nil_append, List.infix_nil] at later
      rw [later]
      simp [nonempty]

/-- A word that starts with a letter that it holds once does not stand across its own start. -/
theorem not_infix_append_dropLast {first : Char} {rest : List Char} (once : first ∉ rest)
    (absent : ¬ first :: rest <:+: text) :
    ¬ first :: rest <:+: text ++ (first :: rest).dropLast := by
  -- The part of the word behind the seam would start with that letter again.
  rw [List.infix_append_iff_ne_nil]
  rintro (early | late | ⟨left, right, passed, some_, split, -, start⟩)
  · exact absent early
  · have short := late.length_le
    simp only [List.length_dropLast, List.length_cons] at short
    omega
  · obtain ⟨letter, others, rfl⟩ := List.exists_cons_of_ne_nil some_
    have same : letter = first :=
      (List.cons_prefix_cons.mp (start.trans (List.dropLast_prefix _))).1
    obtain ⟨head, tail, rfl⟩ := List.exists_cons_of_ne_nil passed
    obtain ⟨-, behindHead⟩ := List.cons.inj split
    refine once ?_
    rw [behindHead, same]
    simp

end LanguageServer

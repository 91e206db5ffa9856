import LanguageServer.Proofs.Json.Value

/-! A builder that refuses no string takes the tokens of every value. -/

namespace LanguageServer

/-- Every part but the first stands behind a separator. -/
theorem intercalate_cons_eq {α : Type} (separator part : List α) (parts : List (List α)) :
    separator.intercalate (part :: parts) = part ++ parts.flatMap (separator ++ ·) := by
  -- The induction is on the parts behind the first one.
  induction parts generalizing part with
  | nil => simp
  | cons next others ih =>
    rw [List.intercalate_cons_cons, ih, List.flatMap_cons, List.append_assoc, List.append_assoc]

namespace Builder

variable {readString : Option String → Option String}

/-- Tokens are taken one part behind the other. -/
theorem foldlM_step_append {first second : List Token} {origin middle stop : Builder}
    (front : first.foldlM (step readString) origin = some middle)
    (later : second.foldlM (step readString) middle = some stop) :
    (first ++ second).foldlM (step readString) origin = some stop := by
  -- The second part starts where the first one ends.
  rw [List.foldlM_append, front]
  exact later

/-- Whether tokens are taken in any place of a value and make a finished one. -/
def Takes (readString : Option String → Option String) (made : List Token) : Prop :=
  -- Containers outside of the value stay as they are.
  ∀ frames, ∃ json, made.foldlM (step readString) ⟨frames, .value⟩ = some (place frames json)

/-- The first value of an array is taken like any other. -/
theorem foldlM_step_valueOrEnd {made : List Token} (value : ValueTokens made)
    (frames : List Frame) :
    made.foldlM (step readString) ⟨frames, .valueOrEnd⟩ =
      made.foldlM (step readString) ⟨frames, .value⟩ := by
  -- No value begins with the end of an array.
  cases value <;> rfl

/-- Items behind commas go into the array around them. -/
theorem exists_foldlM_items (frames : List Frame) {items : List (List Token)}
    (each : ∀ item ∈ items, Takes readString item) (read : List Json) :
    ∃ whole, (items.flatMap ([Token.comma] ++ ·)).foldlM (step readString)
      ⟨.array read :: frames, .commaOrEnd⟩ = some ⟨.array whole :: frames, .commaOrEnd⟩ := by
  -- A comma leads to the place of a value, and a value back to that of a comma.
  induction items generalizing read with
  | nil => exact ⟨read, rfl⟩
  | cons item others ih =>
    obtain ⟨json, taken⟩ := each item (by simp) (.array read :: frames)
    obtain ⟨whole, later⟩ :=
      ih (fun other member => each other (List.mem_cons_of_mem item member)) (json :: read)
    exact ⟨whole, foldlM_step_append taken later⟩

/-- A member goes into the object around it. -/
theorem exists_foldlM_member (total : ∀ text, (readString text).isSome) (frames : List Frame)
    {member : Option String × List Token} (value : Takes readString member.2)
    (read : List (String × Json)) :
    ∃ whole name, (memberTokens member).foldlM (step readString) ⟨frames, .name read⟩ =
      some ⟨.object whole name :: frames, .commaOrEnd⟩ := by
  -- The name is read, and its value is put behind the members before it.
  obtain ⟨name, named⟩ := Option.isSome_iff_exists.mp (total member.1)
  obtain ⟨json, taken⟩ := value (.object read name :: frames)
  refine ⟨(name, json) :: read, name, ?_⟩
  simp only [memberTokens, List.foldlM_cons, step, named]
  exact taken

/-- Members behind commas go into the object around them. -/
theorem exists_foldlM_members (total : ∀ text, (readString text).isSome) (frames : List Frame)
    {members : List (Option String × List Token)}
    (each : ∀ member ∈ members, Takes readString member.2) (read : List (String × Json))
    (name : String) :
    ∃ whole last, ((members.map memberTokens).flatMap ([Token.comma] ++ ·)).foldlM
      (step readString) ⟨.object read name :: frames, .commaOrEnd⟩ =
        some ⟨.object whole last :: frames, .commaOrEnd⟩ := by
  -- A comma leads to the place of a name, and a member back to that of a comma.
  induction members generalizing read name with
  | nil => exact ⟨read, name, rfl⟩
  | cons member others ih =>
    obtain ⟨first, next, taken⟩ := exists_foldlM_member total frames (each member (by simp)) read
    obtain ⟨whole, last, later⟩ :=
      ih (fun other held => each other (List.mem_cons_of_mem member held)) first next
    exact ⟨whole, last, foldlM_step_append taken later⟩

/-- A builder that has finished takes no token. -/
theorem step_eq_none_of_finished {builder : Builder}
    (finished : builder.finished?.isSome) (token : Token) :
    builder.step readString token = none := by
  -- Nothing is expected any more.
  obtain ⟨frames, expected⟩ := builder
  cases expected <;> simp [finished?] at finished
  simp [step]

end Builder

/-- The tokens of every value are taken. -/
theorem ValueTokens.takes {readString : Option String → Option String}
    (total : ∀ text, (readString text).isSome) {made : List Token} (value : ValueTokens made) :
    Builder.Takes readString made := by
  -- Containers are opened, filled by the induction and closed.
  induction value with
  | null => exact fun frames => ⟨_, rfl⟩
  | bool value => exact fun frames => ⟨_, rfl⟩
  | number value => exact fun frames => ⟨_, rfl⟩
  | string value =>
    intro frames
    obtain ⟨text, read⟩ := Option.isSome_iff_exists.mp (total value)
    exact ⟨.string text, by simp [Builder.step, Builder.startValue, read]⟩
  | @array items each ih =>
    intro frames
    cases items with
    | nil => exact ⟨_, rfl⟩
    | cons item others =>
      obtain ⟨json, taken⟩ := ih item (by simp) (.array [] :: frames)
      obtain ⟨whole, later⟩ := Builder.exists_foldlM_items frames
        (fun other member => ih other (List.mem_cons_of_mem item member)) [json]
      rw [← Builder.foldlM_step_valueOrEnd (each item (by simp))] at taken
      refine ⟨.array whole.reverse, ?_⟩
      rw [arrayTokens, intercalate_cons_eq, List.append_assoc]
      exact Builder.foldlM_step_append taken (Builder.foldlM_step_append later rfl)
  | @object members each ih =>
    intro frames
    cases members with
    | nil => exact ⟨_, rfl⟩
    | cons member others =>
      obtain ⟨first, name, taken⟩ :=
        Builder.exists_foldlM_member total frames (ih member (by simp)) []
      obtain ⟨whole, last, later⟩ := Builder.exists_foldlM_members total frames
        (fun other held => ih other (List.mem_cons_of_mem member held)) first name
      refine ⟨.object whole.reverse, ?_⟩
      rw [objectTokens, List.map_cons, intercalate_cons_eq, List.append_assoc]
      exact Builder.foldlM_step_append taken (Builder.foldlM_step_append later rfl)

end LanguageServer

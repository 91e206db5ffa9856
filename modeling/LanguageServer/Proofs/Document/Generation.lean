import LanguageServer.Proofs.Document.Store

/-! Opens are numbered in order, and a number stands for its own open until that open ends. -/

namespace LanguageServer.DocumentStore

/-- Whether an operation opens a document. -/
def Step.isAdd : Step → Bool
  -- Edits need an open document and do not make one.
  | .add _ _ _ _ => true
  | .change _ _ _ | .remove _ | .clear => false

/-- The number of opens among operations. -/
def opens (steps : List Step) : Nat :=
  -- Opens of all documents count.
  steps.countP Step.isAdd

/-- Whether an operation ends the open of a document that is open. -/
def Step.ends (uri : Uri) : Step → Bool
  -- Opening an open document once more ends the open before it.
  | .add other _ _ _ => other = uri
  | .change _ _ _ => false
  | .remove other => other = uri
  | .clear => true

/-- The number of the open in which a document is. -/
def generation? (store : DocumentStore) (uri : Uri) : Option Nat :=
  -- A document that is not open is in none.
  (store.find? uri).map Document.generation

variable {store : DocumentStore} {uri : Uri} {generation : Nat}

/-- A document is in an open when it is in it at some version. -/
theorem exists_holds_iff :
    (∃ version, store.holds uri generation version = true) ↔
      store.generation? uri = some generation := by
  -- The version is the one that the document has.
  simp only [holds_iff, generation?, Option.map_eq_some_iff]
  constructor
  · rintro ⟨_, document, found, inOpen, -⟩
    exact ⟨document, found, inOpen⟩
  · rintro ⟨document, found, inOpen⟩
    exact ⟨document.version, document, found, inOpen, rfl⟩

/-- An edit leaves every document in the open in which it is. -/
theorem generation?_change (store : DocumentStore) (uri other : Uri) (version : Int)
    (changes : List Change) :
    (store.change uri version changes).value.1.generation? other = store.generation? other := by
  -- An edited document keeps its number.
  unfold generation?
  rw [find?_change]
  split
  · rename_i same
    rw [same, Option.map_map]
    rfl
  · rfl

/-- An operation puts a document into a new open, takes it out of its open, or leaves it there. -/
theorem generation?_perform (store : DocumentStore) (step : Step) (uri : Uri) :
    (store.perform step).value.1.generation? uri =
      if step.ends uri then (if step.isAdd then some (store.opened + 1) else none)
      else store.generation? uri := by
  -- Only its own address can be touched, except by dropping all documents.
  cases step with
  | add other languageId version text =>
    by_cases same : other = uri
    · simp [perform, generation?, Step.ends, Step.isAdd, same, incoming]
    · simp [perform, generation?, Step.ends, same, Ne.symm same]
  | change other version changes => exact generation?_change store other uri version changes
  | remove other =>
    by_cases same : other = uri
    · simp [perform, generation?, Step.ends, Step.isAdd, same]
    · simp [perform, generation?, Step.ends, same, Ne.symm same]
  | clear => rfl

/-- An operation counts as an open if it is one. -/
theorem opened_perform (store : DocumentStore) (step : Step) :
    (store.perform step).value.1.opened = store.opened + opens [step] := by
  -- No other operation touches the number of opens.
  cases step with
  | add other languageId version text => rfl
  | change other version changes => exact opened_change store other version changes
  | remove other => rfl
  | clear => rfl

/-- Operations are counted one after another. -/
theorem opens_cons (step : Step) (steps : List Step) :
    opens (step :: steps) = opens [step] + opens steps := by
  -- The first one is counted by itself.
  unfold opens
  rw [← List.countP_append, List.singleton_append]

/-- The first of some operations is performed before the others. -/
theorem run_cons (store : DocumentStore) (step : Step) (steps : List Step) :
    store.run (step :: steps) = (store.perform step).value.1.run steps := rfl

/-- Operations in two parts are the second part performed after the first. -/
theorem run_append (store : DocumentStore) (first second : List Step) :
    store.run (first ++ second) = (store.run first).run second :=
  -- They are performed in order.
  List.foldl_append

/-- The store counts all opens. -/
theorem opened_run (store : DocumentStore) (steps : List Step) :
    (store.run steps).opened = store.opened + opens steps := by
  -- Every operation counts for itself.
  induction steps generalizing store with
  | nil => rfl
  | cons step rest ih => rw [run_cons, ih, opened_perform, Nat.add_assoc, ← opens_cons]

/-- Every operation keeps the store sound. -/
theorem Sound.perform (sound : store.Sound) (step : Step) :
    (store.perform step).value.1.Sound := by
  -- Each has its own reason.
  cases step with
  | add uri languageId version text => exact sound.add uri languageId version text
  | change uri version changes => exact sound.change uri version changes
  | remove uri => exact sound.remove uri
  | clear => exact .clear

/-- The number of an open in which a document is has been given. -/
theorem Sound.generation_le (sound : store.Sound) (inOpen : store.generation? uri = some generation) :
    generation ≤ store.opened := by
  -- The document that is held has that number.
  obtain ⟨document, found, rfl⟩ := Option.map_eq_some_iff.mp inOpen
  exact sound.numbered found

/-- No two addresses have documents in one open. -/
def Separate (store : DocumentStore) : Prop :=
  -- The number of an open belongs to the address that was opened.
  ∀ {uri other generation}, store.generation? uri = some generation →
    store.generation? other = some generation → uri = other

/-- A document is in an open after an operation that opened it or that left it there. -/
theorem generation?_perform_some {step : Step}
    (inOpen : (store.perform step).value.1.generation? uri = some generation) :
    (step.isAdd = true ∧ step.ends uri = true ∧ generation = store.opened + 1) ∨
      (step.ends uri = false ∧ store.generation? uri = some generation) := by
  -- Operations that end an open without a new one leave the document in none.
  rw [generation?_perform] at inOpen
  split at inOpen
  · rename_i ending
    split at inOpen
    · rename_i adding
      exact .inl ⟨adding, ending, (Option.some.inj inOpen).symm⟩
    · cases inOpen
  · rename_i lasting
    exact .inr ⟨by simpa using lasting, inOpen⟩

/-- An open is about one address. -/
theorem Step.ends_unique {step : Step} (adding : step.isAdd = true) {other : Uri}
    (ending : step.ends uri = true) (alsoEnding : step.ends other = true) : uri = other := by
  -- It ends the open of the address that it opens.
  cases step with
  | add added languageId version text =>
    simp only [Step.ends, decide_eq_true_eq] at ending alsoEnding
    exact ending.symm.trans alsoEnding
  | change | remove | clear => cases adding

/-- Every operation keeps documents in opens of their own. -/
theorem Separate.perform (separate : store.Separate) (sound : store.Sound) (step : Step) :
    (store.perform step).value.1.Separate := by
  -- A new open has a number that no document has.
  intro uri other generation inOpen alsoInOpen
  rcases generation?_perform_some inOpen with ⟨adding, ending, new⟩ | ⟨-, former⟩
  · rcases generation?_perform_some alsoInOpen with ⟨-, alsoEnding, -⟩ | ⟨-, former⟩
    · exact Step.ends_unique adding ending alsoEnding
    · have given := sound.generation_le former
      omega
  · rcases generation?_perform_some alsoInOpen with ⟨-, -, new⟩ | ⟨-, alsoFormer⟩
    · have given := sound.generation_le former
      omega
    · exact separate former alsoFormer

/-- A store stays sound and its documents stay in opens of their own throughout operations. -/
theorem Separate.run (separate : store.Separate) (sound : store.Sound) (steps : List Step) :
    (store.run steps).Sound ∧ (store.run steps).Separate := by
  -- Every operation keeps both.
  induction steps generalizing store with
  | nil => exact ⟨sound, separate⟩
  | cons step rest ih => exact ih (separate.perform sound step) (sound.perform step)

/-- No operation brings a document back into an open that was given and in which it is not. -/
theorem generation?_perform_ne (given : generation ≤ store.opened) {step : Step}
    (gone : step.ends uri = true ∨ store.generation? uri ≠ some generation) :
    (store.perform step).value.1.generation? uri ≠ some generation := by
  -- A new open has a greater number.
  intro inOpen
  rcases generation?_perform_some inOpen with ⟨-, -, new⟩ | ⟨lasting, former⟩
  · omega
  · rcases gone with ending | absent
    · rw [ending] at lasting
      cases lasting
    · exact absent former

/-- Operations never bring a document back into an open that was given and in which it is not. -/
theorem generation?_run_ne (given : generation ≤ store.opened)
    (gone : store.generation? uri ≠ some generation) (steps : List Step) :
    (store.run steps).generation? uri ≠ some generation := by
  -- No operation does, and none takes a number back.
  induction steps generalizing store with
  | nil => exact gone
  | cons step rest ih =>
    refine ih ?_ (generation?_perform_ne given (.inr gone))
    rw [opened_perform]
    omega

/-- A document stays in its open exactly until an operation ends it. -/
theorem Sound.generation?_run_iff (sound : store.Sound)
    (inOpen : store.generation? uri = some generation) (steps : List Step) :
    (store.run steps).generation? uri = some generation ↔
      ∀ step ∈ steps, step.ends uri = false := by
  -- What an operation has ended stays ended.
  induction steps generalizing store with
  | nil => simpa [run] using inOpen
  | cons step rest ih =>
    rw [run_cons, List.forall_mem_cons]
    cases ending : step.ends uri with
    | true =>
      have given := sound.generation_le inOpen
      have gone := generation?_perform_ne given (.inl ending)
      have later := generation?_run_ne (by rw [opened_perform]; omega) gone rest
      simpa using later
    | false =>
      have lasting : (store.perform step).value.1.generation? uri = some generation := by
        rw [generation?_perform, ending]
        exact inOpen
      simpa using ih (sound.perform step) lasting

/-- No two documents of a sound and separate store are in one open. -/
theorem Separate.nodup_generations {store : DocumentStore} (separate : store.Separate)
    (sound : store.Sound) : (store.all.map Document.generation).Nodup := by
  -- Their addresses would be the same.
  refine Table.nodup_map_values sound.ordered ?_
  intro uri other document held found alsoFound same
  have inOpen : store.generation? uri = some document.generation :=
    Option.map_eq_some_iff.mpr ⟨document, found, rfl⟩
  have alsoInOpen : store.generation? other = some document.generation :=
    Option.map_eq_some_iff.mpr ⟨held, alsoFound, same.symm⟩
  exact separate inOpen alsoInOpen

/-- No two documents of an empty store are in one open. -/
theorem separate_empty : ({} : DocumentStore).Separate := by
  -- There are no documents.
  intro uri other generation inOpen
  cases inOpen

/-- An open of a run lasts exactly until an operation behind it ends it. -/
theorem exists_holds_run_iff (before behind : List Step) (uri : Uri) (languageId : String)
    (version : Int) (text : String) :
    (∃ current, (({} : DocumentStore).run
        (before ++ .add uri languageId version text :: behind)).holds uri (opens before + 1)
          current = true) ↔
      ∀ step ∈ behind, step.ends uri = false := by
  -- The document is in that open when it is opened.
  have counted : (({} : DocumentStore).run before).opened = opens before := by
    simpa using opened_run {} before
  have inOpen : ((({} : DocumentStore).run before).perform
      (.add uri languageId version text)).value.1.generation? uri = some (opens before + 1) := by
    rw [generation?_perform, counted]
    simp [Step.ends, Step.isAdd]
  have sound := (separate_empty.run sound_empty before).1
  have lasts := (sound.perform (.add uri languageId version text)).generation?_run_iff inOpen behind
  rwa [← run_cons, ← run_append, ← exists_holds_iff] at lasts

/--
The numbers of opens are never reused, and an open that has ended is never current again.

Opens are numbered from one in their order, documents are held under their own addresses in opens
of their own, edits do not touch the number, and a document is in an open exactly until the
document is closed or opened again or all documents are dropped.
-/
theorem generations_never_reused (steps : List Step) :
    (({} : DocumentStore).run steps).opened = opens steps ∧
    (∀ uri document, (({} : DocumentStore).run steps).find? uri = some document →
      document.uri = uri ∧ document.generation ≤ (({} : DocumentStore).run steps).opened) ∧
    ((({} : DocumentStore).run steps).all.map Document.generation).Nodup ∧
    (∀ uri version changes other,
      ((({} : DocumentStore).run steps).change uri version changes).value.1.generation? other =
        (({} : DocumentStore).run steps).generation? other) ∧
    ∀ before uri languageId version text behind,
      steps = before ++ .add uri languageId version text :: behind →
        ((({} : DocumentStore).run before).perform (.add uri languageId version text)).value.2 =
            some ⟨uri, languageId, version, text, opens before + 1⟩ ∧
          ((∃ ending ∈ behind, ending.ends uri = true) → ∀ version,
            (({} : DocumentStore).run steps).holds uri (opens before + 1) version = false) ∧
          ((∀ step ∈ behind, step.ends uri = false) → ∃ version,
            (({} : DocumentStore).run steps).holds uri (opens before + 1) version = true) := by
  -- The store is sound and separate after every operation.
  obtain ⟨sound, separate⟩ := separate_empty.run sound_empty steps
  refine ⟨by simpa using opened_run {} steps, ?_, separate.nodup_generations sound, ?_, ?_⟩
  · intro uri document found
    exact ⟨sound.filed found, sound.numbered found⟩
  · intro uri version changes other
    exact generation?_change _ uri other version changes
  · rintro before uri languageId version text behind rfl
    have counted : (({} : DocumentStore).run before).opened = opens before := by
      simpa using opened_run {} before
    have lasts := exists_holds_run_iff before behind uri languageId version text
    refine ⟨by simp [perform, incoming, counted], ?_, lasts.mpr⟩
    rintro ⟨ending, member, ended⟩ version
    rw [← Bool.not_eq_true]
    intro current
    have lasting := lasts.mp ⟨version, current⟩ ending member
    rw [ended] at lasting
    cases lasting

/-- A document is opened over itself, closed and dropped, and another one is edited meanwhile. -/
theorem generations_never_reused_mixed :
    let main : Uri := ⟨"file:///main.mypl"⟩
    let other : Uri := ⟨"file:///other.mypl"⟩
    let before : List Step := [.add other "mypl" 3 "y"]
    let behind : List Step :=
      [.change main 5 [⟨none, "z"⟩], .add main "mypl" 2 "x", .change other 4 [⟨none, "w"⟩],
        .remove main, .clear, .add main "mypl" 2 "x"]
    let store := ({} : DocumentStore).run (before ++ .add main "mypl" 2 "x" :: behind)
    (∃ ending ∈ behind, ending.ends main = true) ∧ store.generation? main = some 4 ∧
      ∀ version, store.holds main 2 version = false := by
  intro main other before behind store
  have ended : ∃ ending ∈ behind, ending.ends main = true := by decide
  have reopened : store.generation? main = some 4 := by decide +kernel
  obtain ⟨-, -, -, -, opened⟩ :=
    generations_never_reused (before ++ .add main "mypl" 2 "x" :: behind)
  exact ⟨ended, reopened, (opened before main "mypl" 2 "x" behind rfl).2.1 ended⟩

end LanguageServer.DocumentStore

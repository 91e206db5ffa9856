import Mathlib.Data.List.Induction
import LanguageServer.Proofs.Session.Attached
import LanguageServer.Session.Step

/-! The settings that a session gives for a document, read off the history of its operations. -/

namespace LanguageServer.Session

variable {φ : Type}

/-- The features that an operation negotiates, if it negotiates any. -/
def Step.negotiated? : Step φ → Option Capabilities
  -- Whether they are taken is another matter.
  | .negotiate capabilities => some capabilities
  | _ => none

/-- The settings that an operation sets for all documents, if it sets any. -/
def Step.shared? : Step φ → Option Settings
  -- Settings of single documents are never set, only fetched.
  | .setShared settings => some settings
  | _ => none

/-- Whether an operation opens a document or takes it away, if it does one of the two. -/
def Step.opening? (uri : Uri) : Step φ → Option Bool
  -- The end of the session takes every document away.
  | .addDocument other _ _ _ => if other = uri then some true else none
  | .closeDocument other => if other = uri then some false else none
  | .discard => some false
  | _ => none

/-- Whether the settings of a document have to be fetched again after an operation. -/
def Step.invalidates (uri : Uri) : Step φ → Bool
  -- Opening a document anew does not touch its settings.
  | .closeDocument other => other = uri
  | .clearSettings => true
  | .discard => true
  | _ => false

/-- Whether the client can be asked for settings after a history. -/
def capableAfter (history : List (Step φ)) : Bool :=
  -- The first negotiation counts.
  ((history.filterMap Step.negotiated?).head?.getD {}).configuration

/-- The settings for all documents after a history. -/
def sharedAfter (history : List (Step φ)) : Settings :=
  -- The last ones that were set count.
  (history.filterMap Step.shared?).getLast?.getD {}

/-- Whether a document is open after a history. -/
def openAfter (uri : Uri) (history : List (Step φ)) : Bool :=
  -- The last operation that opened it or took it away counts.
  (history.filterMap (Step.opening? uri)).getLast?.getD false

/--
The fetch of a look for the settings of a document, behind a history.

There is one if the document is open, the client can be asked and the fetch does not break down.
-/
def asks? (uri : Uri) (history : List (Step φ)) : Step φ → Option φ
  -- Other operations ask for nothing.
  | .settingsFor other fetch =>
    if other = uri ∧ capableAfter history = true ∧ openAfter uri history = true then fetch else none
  | _ => none

/-- A fetch that was asked for behind the first part of a history, with no invalidation since. -/
def Stands (uri : Uri) (history before : List (Step φ)) (fetch : φ) : Prop :=
  -- The history is cut at the look for settings.
  ∃ step behind, history = before ++ step :: behind ∧ asks? uri before step = some fetch ∧
    ∀ later ∈ behind, later.invalidates uri = false

/-- The earliest fetch that was asked for since the last invalidation. -/
def Earliest (uri : Uri) (history : List (Step φ)) (fetch : φ) : Prop :=
  -- Every other one stands behind a longer part of the history.
  ∃ before, Stands uri history before fetch ∧
    ∀ other otherFetch, Stands uri history other otherFetch → before.length ≤ other.length

section Histories

variable {uri : Uri} {history : List (Step φ)} {step : Step φ}

/-- An operation that asks is a look for settings of an open document, with a fetch that works. -/
theorem asks?_eq_some_iff {fetch : φ} :
    asks? uri history step = some fetch ↔
      step = .settingsFor uri (some fetch) ∧ capableAfter history = true ∧
        openAfter uri history = true := by
  -- The test of the definition is met or not.
  cases step with
  | settingsFor other given =>
    simp only [asks?, Step.settingsFor.injEq]
    split
    · rename_i met
      simp [met]
    · rename_i unmet
      constructor
      · intro impossible
        cases impossible
      · rintro ⟨⟨same, -⟩, met⟩
        exact absurd ⟨same, met⟩ unmet
  | _ => simp [asks?]

/-- An operation that asks for settings invalidates none. -/
theorem invalidates_of_asks? {fetch : φ} (asked : asks? uri history step = some fetch) :
    step.invalidates uri = false := by
  -- It is a look for settings.
  rw [(asks?_eq_some_iff.mp asked).1]
  rfl

/-- One more operation ends all fetches that stood, or adds its own to them. -/
theorem stands_concat {before : List (Step φ)} {fetch : φ} :
    Stands uri (history ++ [step]) before fetch ↔
      (step.invalidates uri = false ∧ Stands uri history before fetch) ∨
        (before = history ∧ asks? uri history step = some fetch) := by
  -- The look for settings is the last operation or came before it.
  constructor
  · rintro ⟨call, behind, cut, asked, valid⟩
    induction behind using List.reverseRecOn with
    | nil =>
      obtain ⟨same, last⟩ := List.append_inj' cut rfl
      rw [← same] at asked ⊢
      rw [List.head_eq_of_cons_eq last]
      exact .inr ⟨rfl, asked⟩
    | append_singleton behind last _ =>
      rw [← List.cons_append, ← List.append_assoc] at cut
      obtain ⟨same, final⟩ := List.append_inj' cut rfl
      rw [List.head_eq_of_cons_eq final]
      refine .inl ⟨valid last (by simp), call, behind, same, asked, ?_⟩
      intro later member
      exact valid later (List.mem_append_left _ member)
  · rintro (⟨valid, call, behind, rfl, asked, standing⟩ | ⟨rfl, asked⟩)
    · refine ⟨call, behind ++ [step], by simp, asked, ?_⟩
      intro later member
      rcases List.mem_append.mp member with earlier | last
      · exact standing later earlier
      · rw [List.mem_singleton.mp last]
        exact valid
    · exact ⟨step, [], rfl, asked, by simp⟩

/-- A fetch that stands was asked for within the history. -/
theorem Stands.length_lt {before : List (Step φ)} {fetch : φ}
    (stands : Stands uri history before fetch) : before.length < history.length := by
  -- The look for settings itself comes behind it.
  obtain ⟨call, behind, rfl, -⟩ := stands
  simp

/-- A fetch that stands was asked for behind every invalidation. -/
theorem Stands.mem_behind {before : List (Step φ)} {fetch : φ}
    (stands : Stands uri history before fetch) {first behind : List (Step φ)}
    (cut : history = first ++ step :: behind) (invalid : step.invalidates uri = true) :
    .settingsFor uri (some fetch) ∈ behind := by
  -- The two cuts of the history are compared: the invalidation comes first.
  obtain ⟨call, later, called, asked, valid⟩ := stands
  have isCall := (asks?_eq_some_iff.mp asked).1
  have asking := invalidates_of_asks? asked
  rw [cut] at called
  rcases List.append_eq_append_iff.mp called with ⟨between, -, rest⟩ | ⟨between, -, rest⟩
  · cases between with
    | nil =>
      rw [List.head_eq_of_cons_eq rest, asking] at invalid
      cases invalid
    | cons head tail =>
      rw [List.tail_eq_of_cons_eq rest, ← isCall]
      simp
  · cases between with
    | nil =>
      rw [← List.head_eq_of_cons_eq rest, asking] at invalid
      cases invalid
    | cons head tail =>
      have passed := valid step (by rw [List.tail_eq_of_cons_eq rest]; simp)
      rw [passed] at invalid
      cases invalid

/-- Where a fetch stands, there is an earliest one. -/
theorem exists_earliest {before : List (Step φ)} {fetch : φ}
    (stands : Stands uri history before fetch) : ∃ earliest, Earliest uri history earliest := by
  -- Of two that stand the one behind the shorter part of the history is earlier.
  induction size : before.length using Nat.strongRecOn generalizing before fetch with
  | ind size ih =>
    subst size
    by_cases earlier : ∃ other otherFetch, Stands uri history other otherFetch ∧
        other.length < before.length
    · obtain ⟨other, otherFetch, standing, shorter⟩ := earlier
      exact ih other.length shorter standing rfl
    · refine ⟨fetch, before, stands, ?_⟩
      intro other otherFetch standing
      exact Nat.le_of_not_lt fun shorter => earlier ⟨other, otherFetch, standing, shorter⟩

/-- The earliest fetch after one more operation is the one of before, or that of the operation. -/
theorem earliest_concat {fetch : φ} :
    Earliest uri (history ++ [step]) fetch ↔
      step.invalidates uri = false ∧ (Earliest uri history fetch ∨
        (∀ other, ¬ Earliest uri history other) ∧ asks? uri history step = some fetch) := by
  -- A fetch of the last operation comes behind all others that stand.
  constructor
  · rintro ⟨before, stands, first⟩
    rcases stands_concat.mp stands with ⟨valid, standing⟩ | ⟨rfl, asked⟩
    · refine ⟨valid, .inl ⟨before, standing, ?_⟩⟩
      intro other otherFetch otherStands
      exact first other otherFetch (stands_concat.mpr (.inl ⟨valid, otherStands⟩))
    · have valid := invalidates_of_asks? asked
      refine ⟨valid, .inr ⟨?_, asked⟩⟩
      rintro other ⟨otherBefore, otherStands, -⟩
      have later := first otherBefore other (stands_concat.mpr (.inl ⟨valid, otherStands⟩))
      have sooner := otherStands.length_lt
      omega
  · rintro ⟨valid, ⟨before, standing, first⟩ | ⟨none, asked⟩⟩
    · refine ⟨before, stands_concat.mpr (.inl ⟨valid, standing⟩), ?_⟩
      intro other otherFetch otherStands
      rcases stands_concat.mp otherStands with ⟨-, former⟩ | ⟨rfl, -⟩
      · exact first other otherFetch former
      · exact Nat.le_of_lt standing.length_lt
    · refine ⟨history, stands_concat.mpr (.inr ⟨rfl, asked⟩), ?_⟩
      intro other otherFetch otherStands
      rcases stands_concat.mp otherStands with ⟨-, former⟩ | ⟨rfl, -⟩
      · obtain ⟨earliest, found⟩ := exists_earliest former
        exact absurd found (none earliest)
      · exact Nat.le_refl _

end Histories

section Operations

/-- The session after an operation. -/
theorem perform_session (session : Session φ) (step : Step φ) :
    (session.perform step).value.1 = match step with
      | .negotiate capabilities =>
        { session with negotiated := session.negotiated.or (some capabilities) }
      | .addDocument uri languageId version text =>
        session.withDocuments (session.documents.add uri languageId version text)
      | .changeDocument uri version changes =>
        session.withDocuments (session.documents.change uri version changes).value.1
      | .closeDocument uri => session.close uri
      | .settingsFor uri fetch => (session.settingsFor uri fetch).session
      | .clearSettings => session.withSettings session.settings.clear
      | .setShared settings => session.withSettings (session.settings.setShared settings)
      | .discard => session.discard.value := by
  -- The answers are left aside.
  cases step with
  | negotiate capabilities => exact negotiate_session session capabilities
  | _ => rfl

/-- Fetches stay with their documents through every operation. -/
theorem Attached.perform {session : Session φ} (attached : session.Attached) (step : Step φ) :
    (session.perform step).value.1.Attached := by
  -- Each operation has its own reason.
  rw [perform_session]
  cases step with
  | negotiate => exact attached
  | addDocument => exact attached.add _ _ _ _
  | changeDocument => exact attached.change _ _ _
  | closeDocument => exact attached.close _
  | settingsFor => exact attached.settingsFor _ _
  | clearSettings => exact attached.clear
  | setShared => exact attached
  | discard => exact attached_discard session

/-- The features of a session are those of the first negotiation. -/
theorem perform_negotiated (session : Session φ) (step : Step φ) :
    (session.perform step).value.1.negotiated = session.negotiated.or step.negotiated? := by
  -- No other operation touches them.
  rw [perform_session]
  cases step with
  | negotiate => rfl
  | settingsFor uri fetch =>
    have kept := congrArg Session.negotiated (settingsFor_frame session uri fetch)
    exact kept.trans Option.or_none.symm
  | _ => exact Option.or_none.symm

/-- The settings for all documents are the last that were set. -/
theorem perform_shared (session : Session φ) (step : Step φ) :
    (session.perform step).value.1.settings.shared =
      step.shared?.getD session.settings.shared := by
  -- They outlast fetches, documents and the session's end.
  rw [perform_session]
  cases step with
  | settingsFor uri fetch =>
    exact congrArg (fun after => after.settings.shared) (settingsFor_frame session uri fetch)
  | _ => rfl

/-- A document is open as the last operation on it says. -/
theorem perform_opened (session : Session φ) (step : Step φ) (uri : Uri) :
    ((session.perform step).value.1.documents.find? uri).isSome =
      (step.opening? uri).getD (session.documents.find? uri).isSome := by
  -- Edits and settings neither bring a document nor take it away.
  rw [perform_session]
  cases step with
  | addDocument other languageId version text =>
    simp only [withDocuments, DocumentStore.find?_add, Step.opening?]
    by_cases same : uri = other
    · simp [same]
    · simp [same, Ne.symm same]
  | changeDocument other version changes =>
    simp only [withDocuments, DocumentStore.find?_change, Step.opening?]
    by_cases same : uri = other
    · simp [same]
    · simp [same]
  | closeDocument other =>
    simp only [close, DocumentStore.find?_remove, Step.opening?]
    by_cases same : uri = other
    · simp [same]
    · simp [same, Ne.symm same]
  | settingsFor other fetch =>
    exact congrArg (fun after => (after.documents.find? uri).isSome)
      (settingsFor_frame session other fetch)
  | _ => rfl

/-- A look for settings keeps its fetch where it asks and nothing is kept yet. -/
theorem fetched_settingsFor (session : Session φ) (uri other : Uri) (fetch : Option φ) :
    (session.settingsFor other fetch).session.settings.fetched.find? uri =
      (session.settings.fetched.find? uri).or
        (if other = uri ∧ session.capabilities.configuration = true ∧
          (session.documents.find? uri).isSome = true then fetch else none) := by
  -- If nothing is kept in the end, there was no fetch or no reason to keep it.
  rcases settingsFor_session session other fetch with
    same | ⟨started, rfl, capable, opened, absent, after⟩
  · rw [same]
    cases found : session.settings.fetched.find? uri with
    | some kept => rfl
    | none =>
      symm
      rw [Option.none_or, ite_eq_right_iff]
      rintro ⟨rfl, capable, opened⟩
      cases fetch with
      | none => rfl
      | some started =>
        rw [settingsFor_of_absent capable opened found] at same
        have kept := congrArg (fun after => after.settings.fetched.find? other) same
        simp [withSettings, found] at kept
  · rw [after]
    simp only [withSettings, Table.find?_insert]
    by_cases same : uri = other
    · subst same
      simp [capable, opened, absent]
    · simp [same, Ne.symm same]

/-- An invalidation ends what is kept for a document, and the first look behind it is kept. -/
theorem perform_fetched (session : Session φ) (step : Step φ) (uri : Uri) {history : List (Step φ)}
    (capable : session.capabilities.configuration = capableAfter history)
    (opened : (session.documents.find? uri).isSome = openAfter uri history) :
    (session.perform step).value.1.settings.fetched.find? uri =
      if step.invalidates uri = true then none
      else (session.settings.fetched.find? uri).or (asks? uri history step) := by
  -- Only a look for settings can bring a fetch.
  rw [perform_session]
  cases step with
  | settingsFor other fetch =>
    simp only [fetched_settingsFor, Step.invalidates, asks?, capable, opened, Bool.false_eq_true,
      if_false]
  | closeDocument other =>
    simp only [close, SettingsCache.remove, Table.find?_erase, Step.invalidates, asks?,
      decide_eq_true_eq, Option.or_none]
    by_cases same : uri = other
    · simp [same]
    · simp [same, Ne.symm same]
  | clearSettings | discard => rfl
  | _ => exact Option.or_none.symm

/-- The session that a history leaves, in the words of the history. -/
structure Follows (history : List (Step φ)) (session : Session φ) : Prop where
  attached : session.Attached
  negotiated : session.negotiated = (history.filterMap Step.negotiated?).head?
  shared : session.settings.shared = sharedAfter history
  opened : ∀ uri, (session.documents.find? uri).isSome = openAfter uri history
  kept : ∀ uri kept, session.settings.fetched.find? uri = some kept ↔ Earliest uri history kept

/-- The client can be asked for settings as the history says. -/
theorem Follows.capable {history : List (Step φ)} {session : Session φ}
    (follows : Follows history session) :
    session.capabilities.configuration = capableAfter history := by
  -- The features are those of the first negotiation.
  rw [capabilities, follows.negotiated, capableAfter]

/-- The last element that a map picks from a longer list is the last one picked. -/
theorem getLast?_filterMap_concat {α β : Type} (pick : α → Option β) (list : List α) (last : α) :
    ((list ++ [last]).filterMap pick).getLast? =
      (pick last).or (list.filterMap pick).getLast? := by
  -- The new element comes last if it is picked.
  cases picked : pick last with
  | none => simp [picked]
  | some value => simp [picked]

/-- Every operation leaves the session that the longer history tells of. -/
theorem Follows.perform {history : List (Step φ)} {session : Session φ}
    (follows : Follows history session) (step : Step φ) :
    Follows (history ++ [step]) (session.perform step).value.1 where
  -- Each part of the session follows its own part of the history.
  attached := follows.attached.perform step
  negotiated := by
    rw [perform_negotiated, follows.negotiated, List.filterMap_append, List.head?_append]
    cases taken : step.negotiated? with
    | none => simp [taken]
    | some capabilities => simp [taken]
  shared := by
    rw [perform_shared, follows.shared, sharedAfter, sharedAfter, getLast?_filterMap_concat]
    cases step.shared? with
    | none => rfl
    | some settings => rfl
  opened uri := by
    rw [perform_opened, follows.opened uri, openAfter, openAfter, getLast?_filterMap_concat]
    cases step.opening? uri with
    | none => rfl
    | some opens => rfl
  kept uri kept := by
    rw [perform_fetched session step uri follows.capable (follows.opened uri), earliest_concat]
    cases invalid : step.invalidates uri with
    | true => simp
    | false =>
      have none_iff : session.settings.fetched.find? uri = none ↔
          ∀ other, ¬ Earliest uri history other := by
        simp only [Option.eq_none_iff_forall_ne_some, ne_eq, follows.kept uri]
      rw [if_neg Bool.false_ne_true, Option.or_eq_some_iff, follows.kept uri, none_iff]
      simp

/-- A new session has no history. -/
theorem follows_empty : Follows [] ({} : Session φ) where
  -- Nothing has been set, opened or fetched.
  attached := attached_empty
  negotiated := rfl
  shared := rfl
  opened uri := rfl
  kept uri kept := by
    constructor
    · intro found
      cases found
    · rintro ⟨before, stands, -⟩
      exact absurd stands.length_lt (Nat.not_lt_zero _)

end Operations

section Runs

/-- A run of operations in two parts is the second part run after the first. -/
theorem run_append (session : Session φ) (first second : List (Step φ)) :
    session.run (first ++ second) =
      (((session.run first).1.run second).1,
        (session.run first).2 ++ ((session.run first).1.run second).2) := by
  -- The first part is taken operation by operation.
  induction first generalizing session with
  | nil => rfl
  | cons step rest ih =>
    simp only [List.cons_append, run, ih]

/-- Every operation of a run has one answer. -/
theorem length_answers (session : Session φ) (steps : List (Step φ)) :
    (session.run steps).2.length = steps.length := by
  -- Operations are answered one after another.
  induction steps generalizing session with
  | nil => rfl
  | cons step rest ih => exact congrArg (· + 1) (ih _)

/-- The answer of an operation within a run is the one that it gets where the run has come to. -/
theorem answer_run (session : Session φ) (history : List (Step φ)) (step : Step φ)
    (rest : List (Step φ)) :
    (session.run (history ++ step :: rest)).2[history.length]? =
      some ((session.run history).1.perform step).value.2 := by
  -- The answers to the history come before it.
  rw [run_append, List.getElem?_append_right (Nat.le_of_eq (length_answers session history)),
    length_answers, Nat.sub_self]
  rfl

/-- A session is at any time as its history says. -/
theorem follows_run (history : List (Step φ)) :
    Follows history (run ({} : Session φ) history).1 := by
  -- Every operation keeps it so.
  induction history using List.reverseRecOn with
  | nil => exact follows_empty
  | append_singleton history step ih =>
    rw [run_append]
    exact ih.perform step

variable {history : List (Step φ)} {session : Session φ} {uri : Uri}

/-- A look for settings at a client that cannot be asked finds those of all documents. -/
theorem Follows.settingsFor_incapable (follows : Follows history session)
    (incapable : capableAfter history = false) (fetch : Option φ) :
    session.settingsFor uri fetch = ⟨session, some (.known (sharedAfter history)), false⟩ := by
  -- They are the last that were set.
  rw [settingsFor_of_incapable (follows.capable.trans incapable), follows.shared]

/-- A look for settings of a document that is not open finds nothing kept and keeps nothing. -/
theorem Follows.settingsFor_closed (follows : Follows history session)
    (capable : capableAfter history = true) (closed : openAfter uri history = false)
    (fetch : Option φ) :
    session.settingsFor uri fetch = ⟨session, fetch.map .fetched, true⟩ ∧
      session.settings.fetched.find? uri = none := by
  -- What is kept is kept for open documents.
  have absent : session.documents.find? uri = none := by
    rw [← Option.not_isSome_iff_eq_none, follows.opened uri, closed]
    exact Bool.false_ne_true
  refine ⟨settingsFor_of_closed (follows.capable.trans capable) absent fetch, ?_⟩
  rw [← Option.not_isSome_iff_eq_none]
  intro kept
  have opened := follows.attached uri kept
  rw [absent] at opened
  cases opened

/-- A look for settings of an open document finds the earliest fetch. -/
theorem Follows.settingsFor_earliest (follows : Follows history session)
    (capable : capableAfter history = true) (opened : openAfter uri history = true) {kept : φ}
    (earliest : Earliest uri history kept) (fetch : Option φ) :
    session.settingsFor uri fetch = ⟨session, some (.fetched kept), false⟩ :=
  -- It is the one that is kept.
  settingsFor_of_kept (follows.capable.trans capable) ((follows.opened uri).trans opened)
    ((follows.kept uri kept).mpr earliest) fetch

/-- A look for settings of an open document starts its own fetch if none was asked for before. -/
theorem Follows.settingsFor_first (follows : Follows history session)
    (capable : capableAfter history = true) (opened : openAfter uri history = true)
    (first : ∀ kept, ¬ Earliest uri history kept) (fetch : Option φ) :
    (session.settingsFor uri fetch).obtained = fetch.map .fetched ∧
      (session.settingsFor uri fetch).started = true := by
  -- Nothing is kept, so that only the fetch itself matters.
  have able := follows.capable.trans capable
  have absent : session.settings.fetched.find? uri = none := by
    refine Option.eq_none_iff_forall_ne_some.mpr fun kept found => ?_
    exact first kept ((follows.kept uri kept).mp found)
  cases fetch with
  | none =>
    rw [settingsFor_of_broken able absent]
    exact ⟨rfl, rfl⟩
  | some started =>
    rw [settingsFor_of_absent able ((follows.opened uri).trans opened) absent]
    exact ⟨rfl, rfl⟩

/-- A client that can be asked can be asked ever after. -/
theorem capableAfter_append (before : List (Step φ)) (rest : List (Step φ))
    (capable : capableAfter before = true) : capableAfter (before ++ rest) = true := by
  -- The first negotiation stays the first one.
  unfold capableAfter at capable ⊢
  rw [List.filterMap_append, List.head?_append]
  cases first : (before.filterMap Step.negotiated?).head? with
  | none =>
    rw [first] at capable
    cases capable
  | some capabilities =>
    rw [first] at capable
    exact capable

/-- Where a fetch stands, the document is open and the client can be asked. -/
theorem Follows.of_stands (follows : Follows history session) {before : List (Step φ)} {fetch : φ}
    (stands : Stands uri history before fetch) :
    capableAfter history = true ∧ openAfter uri history = true := by
  -- The earliest such fetch is kept, and what is kept is kept for an open document.
  obtain ⟨earliest, first⟩ := exists_earliest stands
  have kept := (follows.kept uri earliest).mpr first
  have opened := follows.attached uri (by rw [kept]; rfl)
  obtain ⟨call, behind, rfl, asked, -⟩ := stands
  obtain ⟨-, capable, -⟩ := asks?_eq_some_iff.mp asked
  exact ⟨capableAfter_append before _ capable, (follows.opened uri).symm.trans opened⟩

/-- A look for settings starts no fetch where one stands. -/
theorem Follows.settingsFor_standing (follows : Follows history session) {before : List (Step φ)}
    {standing : φ} (stands : Stands uri history before standing) (fetch : Option φ) :
    ∃ kept, session.settingsFor uri fetch = ⟨session, some (.fetched kept), false⟩ := by
  -- The earliest fetch is found.
  obtain ⟨capable, opened⟩ := follows.of_stands stands
  obtain ⟨kept, earliest⟩ := exists_earliest stands
  exact ⟨kept, follows.settingsFor_earliest capable opened earliest fetch⟩

/-- A fetch that is found was asked for behind every invalidation, or is that of the look itself. -/
theorem Follows.settingsFor_behind (follows : Follows history session)
    {before behind : List (Step φ)} {invalidation : Step φ}
    (cut : history = before ++ invalidation :: behind)
    (invalid : invalidation.invalidates uri = true) {fetch : Option φ} {kept : φ}
    (found : (session.settingsFor uri fetch).obtained = some (.fetched kept)) :
    ((session.settingsFor uri fetch).started = true ∧ fetch = some kept) ∨
      ((session.settingsFor uri fetch).started = false ∧
        .settingsFor uri (some kept) ∈ behind) := by
  -- The look's own fetch is found unless an earlier one stands.
  have own : (session.settingsFor uri fetch).obtained = fetch.map .fetched ∧
      (session.settingsFor uri fetch).started = true →
        (session.settingsFor uri fetch).started = true ∧ fetch = some kept := by
    rintro ⟨obtained, started⟩
    rw [obtained] at found
    obtain ⟨same, given, fetched⟩ := Option.map_eq_some_iff.mp found
    cases fetched
    exact ⟨started, given⟩
  cases capable : capableAfter history with
  | false =>
    rw [follows.settingsFor_incapable capable] at found
    cases found
  | true =>
    cases opened : openAfter uri history with
    | false =>
      have closed := (follows.settingsFor_closed capable opened fetch).1
      exact .inl (own (by rw [closed]; exact ⟨rfl, rfl⟩))
    | true =>
      by_cases stands : ∃ earliest, Earliest uri history earliest
      · obtain ⟨earliest, first⟩ := stands
        rw [follows.settingsFor_earliest capable opened first] at found ⊢
        cases found
        obtain ⟨_, standing, -⟩ := first
        exact .inr ⟨rfl, standing.mem_behind cut invalid⟩
      · have first := not_exists.mp stands
        exact .inl (own (follows.settingsFor_first capable opened first fetch))

/--
What a look for the settings of a document finds, by the history before it.

A client that cannot be asked has set the settings for all documents. For a document that is not
open the look starts its own fetch, and nothing is kept. For an open document it finds the earliest
fetch that was asked for since the last invalidation, and starts its own only if there is none. So
no second fetch is started between two invalidations, and what an invalidation has ended is never
found again.
-/
theorem settings_follow_history (history rest : List (Step φ)) (uri : Uri) (fetch : Option φ) :
    let answers := (run ({} : Session φ) (history ++ .settingsFor uri fetch :: rest)).2
    let answer := answers[history.length]?
    (capableAfter history = false →
      answer = some (.settings (some (.known (sharedAfter history))) false)) ∧
    (capableAfter history = true → openAfter uri history = false →
      answer = some (.settings (fetch.map .fetched) true) ∧
        (run ({} : Session φ) (history ++ [.settingsFor uri fetch])).1 =
          (run ({} : Session φ) history).1 ∧
        (run ({} : Session φ) history).1.settings.fetched.find? uri = none) ∧
    (capableAfter history = true → openAfter uri history = true →
      (∀ kept, Earliest uri history kept →
        answer = some (.settings (some (.fetched kept)) false)) ∧
      ((∀ kept, ¬ Earliest uri history kept) →
        answer = some (.settings (fetch.map .fetched) true))) ∧
    (∀ before standing, Stands uri history before standing →
      ∃ kept, answer = some (.settings (some (.fetched kept)) false)) ∧
    (∀ before invalidation behind, history = before ++ invalidation :: behind →
      invalidation.invalidates uri = true → ∀ kept started,
      answer = some (.settings (some (.fetched kept)) started) →
        (started = true ∧ fetch = some kept) ∨
          (started = false ∧ .settingsFor uri (some kept) ∈ behind)) := by
  -- The answer is that of the session to which the history leads.
  intro answers answer
  have follows := follows_run history
  have answered : answer = some (.settings
      ((run ({} : Session φ) history).1.settingsFor uri fetch).obtained
      ((run ({} : Session φ) history).1.settingsFor uri fetch).started) :=
    answer_run {} history (.settingsFor uri fetch) rest
  rw [answered]
  refine ⟨?_, ?_, ?_, ?_, ?_⟩
  · intro incapable
    rw [follows.settingsFor_incapable incapable]
  · intro capable closed
    obtain ⟨unchanged, absent⟩ := follows.settingsFor_closed capable closed fetch
    have after : (run ({} : Session φ) (history ++ [.settingsFor uri fetch])).1 =
        ((run ({} : Session φ) history).1.settingsFor uri fetch).session := by
      rw [run_append]
      rfl
    rw [after, unchanged]
    exact ⟨rfl, rfl, absent⟩
  · intro capable opened
    constructor
    · intro kept earliest
      rw [follows.settingsFor_earliest capable opened earliest]
    · intro first
      obtain ⟨obtained, started⟩ := follows.settingsFor_first capable opened first fetch
      rw [obtained, started]
  · intro before standing stands
    obtain ⟨kept, found⟩ := follows.settingsFor_standing stands fetch
    exact ⟨kept, by rw [found]⟩
  · intro before invalidation behind cut invalid kept started given
    injection given with given
    injection given with found same
    rw [← same]
    exact follows.settingsFor_behind cut invalid found

/-- A fetch that breaks down, one that is kept over a reopen, and one behind a close. -/
theorem settings_follow_history_through_close :
    let uri : Uri := ⟨"file:///main.mypl"⟩
    let opened : Step Nat := .addDocument uri "mypl" 1 "x"
    let first : List (Step Nat) := [.negotiate { configuration := true }, opened,
      .settingsFor uri none, .settingsFor uri (some 4), opened]
    let second : List (Step Nat) := first ++ [.settingsFor uri (some 8), .closeDocument uri, opened]
    (capableAfter second = true ∧ openAfter uri second = true ∧ Stands uri first (first.take 3) 4 ∧
      ∀ kept, ¬ Earliest uri second kept) ∧
    (∃ kept, (run {} (first ++ [.settingsFor uri (some 8)])).2[first.length]? =
      some (.settings (some (.fetched kept)) false)) ∧
    (run {} (second ++ [.settingsFor uri (some 15)])).2[second.length]? =
      some (.settings (some (.fetched 15)) true) := by
  intro uri opened first second
  have standing : Stands uri first (first.take 3) 4 :=
    ⟨.settingsFor uri (some 4), [opened], rfl, by decide +kernel,
      by simp [opened, Step.invalidates]⟩
  have unasked : ∀ kept, ¬ Earliest uri second kept := by
    rintro kept ⟨before, stands, -⟩
    have cut : second =
        (first ++ [.settingsFor uri (some 8)]) ++ .closeDocument uri :: [opened] := by
      simp [second]
    have behind := stands.mem_behind cut (by decide +kernel)
    simp [opened] at behind
  have capable : capableAfter second = true := by decide +kernel
  have isOpen : openAfter uri second = true := by decide +kernel
  have atFirst := settings_follow_history first [] uri (some 8)
  have atSecond := settings_follow_history second [] uri (some 15)
  refine ⟨⟨capable, isOpen, standing, unasked⟩, ?_, ?_⟩
  · exact atFirst.2.2.2.1 _ _ standing
  · exact (atSecond.2.2.1 capable isOpen).2 unasked

end Runs

end LanguageServer.Session

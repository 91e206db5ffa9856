import LanguageServer.Document.Store
import LanguageServer.Proofs.Table

/-! The store of open documents, read through what it holds for each address. -/

namespace LanguageServer.DocumentStore

/-- An open brings a document for its own address and leaves the others alone. -/
@[simp] theorem find?_add (store : DocumentStore) (uri other : Uri) (languageId : String)
    (version : Int) (text : String) :
    (store.add uri languageId version text).find? other =
      if other = uri then some (store.incoming uri languageId version text)
      else store.find? other :=
  -- The table sets one address.
  Table.find?_insert store.documents uri other _

/-- An edit of an open document sets the edited document and nothing else. -/
theorem change_of_found {store : DocumentStore} {uri : Uri} {document : Document}
    (found : store.find? uri = some document) (version : Int) (changes : List Change) :
    (store.change uri version changes).value =
      ({ store with documents := store.documents.insert uri (document.edit version changes) },
        some (document.edit version changes)) := by
  -- The warning about a version that does not grow changes nothing.
  simp [change, found]

/-- An edit of a document that is not open changes nothing. -/
theorem change_of_absent {store : DocumentStore} {uri : Uri} (absent : store.find? uri = none)
    (version : Int) (changes : List Change) :
    (store.change uri version changes).value = (store, none) := by
  -- There is only a warning.
  simp [change, absent]

/-- An edit changes what is held for its own address, if anything is held there. -/
@[simp] theorem find?_change (store : DocumentStore) (uri other : Uri) (version : Int)
    (changes : List Change) :
    (store.change uri version changes).value.1.find? other =
      if other = uri then (store.find? uri).map fun document => document.edit version changes
      else store.find? other := by
  -- Either the table sets one address, or nothing happens.
  cases found : store.find? uri with
  | none =>
    rw [change_of_absent found]
    by_cases same : other = uri
    · simp [same, found]
    · simp [same]
  | some document =>
    rw [change_of_found found]
    exact Table.find?_insert store.documents uri other _

/-- An edit is no open. -/
@[simp] theorem opened_change (store : DocumentStore) (uri : Uri) (version : Int)
    (changes : List Change) : (store.change uri version changes).value.1.opened = store.opened := by
  -- Either one document changes, or nothing does.
  cases held : store.find? uri with
  | none => rw [change_of_absent held]
  | some document => rw [change_of_found held]

/-- A close removes what is held for its own address alone. -/
@[simp] theorem find?_remove (store : DocumentStore) (uri other : Uri) :
    (store.remove uri).find? other = if other = uri then none else store.find? other :=
  -- The table loses one address.
  Table.find?_erase store.documents uri other

/-- Nothing is held after all documents were dropped. -/
@[simp] theorem find?_clear (store : DocumentStore) (uri : Uri) : store.clear.find? uri = none :=
  rfl

/-- An address is in an open at a version when the document held for it says so. -/
theorem holds_iff {store : DocumentStore} {uri : Uri} {generation : Nat} {version : Int} :
    store.holds uri generation version = true ↔
      ∃ document, store.find? uri = some document ∧
        document.generation = generation ∧ document.version = version := by
  -- Without a document there is nothing to compare.
  unfold holds
  cases store.find? uri with
  | none => simp
  | some document => simp

/-- Documents are listed in order, under their own addresses, with numbers that were given. -/
structure Sound (store : DocumentStore) : Prop where
  ordered : store.documents.Ordered
  filed : ∀ {uri document}, store.find? uri = some document → document.uri = uri
  numbered : ∀ {uri document}, store.find? uri = some document →
    document.generation ≤ store.opened

/-- The empty store is sound. -/
theorem sound_empty : ({} : DocumentStore).Sound where
  -- It holds nothing.
  ordered := Table.ordered_empty
  filed := by intro uri document found; cases found
  numbered := by intro uri document found; cases found

/-- An open keeps the store sound. -/
theorem Sound.add {store : DocumentStore} (sound : store.Sound) (uri : Uri) (languageId : String)
    (version : Int) (text : String) : (store.add uri languageId version text).Sound where
  -- The new document has the next number.
  ordered := sound.ordered.insert _ _
  filed := by
    intro other document found
    rw [find?_add] at found
    split at found
    · rename_i same
      cases found
      exact same.symm
    · exact sound.filed found
  numbered := by
    intro other document found
    rw [find?_add] at found
    split at found
    · cases found
      exact Nat.le_refl _
    · exact Nat.le_succ_of_le (sound.numbered found)

/-- An edit keeps the store sound. -/
theorem Sound.change {store : DocumentStore} (sound : store.Sound) (uri : Uri) (version : Int)
    (changes : List Change) : (store.change uri version changes).value.1.Sound := by
  -- The edited document keeps its address and its number.
  cases held : store.find? uri with
  | none => rwa [change_of_absent held]
  | some edited =>
    rw [change_of_found held]
    refine ⟨sound.ordered.insert _ _, ?_, ?_⟩
    · intro other document found
      rw [find?, Table.find?_insert] at found
      split at found
      · rename_i same
        cases found
        have filed := sound.filed held
        exact filed.trans same.symm
      · exact sound.filed found
    · intro other document found
      rw [find?, Table.find?_insert] at found
      split at found
      · cases found
        have numbered := sound.numbered held
        exact numbered
      · exact sound.numbered found

/-- An opened document is held for its own address. -/
theorem find?_incoming (store : DocumentStore) (uri : Uri) (languageId : String) (version : Int)
    (text : String) :
    (store.add uri languageId version text).find? (store.incoming uri languageId version text).uri =
      some (store.incoming uri languageId version text) := by
  -- That address is the one of the open.
  rw [find?_add]
  exact if_pos rfl

/-- An edited document is held for its own address. -/
theorem Sound.find?_edit {store : DocumentStore} (sound : store.Sound) {uri : Uri}
    {document : Document} (found : store.find? uri = some document) (version : Int)
    (changes : List Change) :
    (store.change uri version changes).value.1.find? (document.edit version changes).uri =
      some (document.edit version changes) := by
  -- An edit does not move a document.
  have filed : document.uri = uri := sound.filed found
  have edited : (document.edit version changes).uri = uri := filed
  rw [find?_change, edited, if_pos rfl, found]
  rfl

/-- A close keeps the store sound. -/
theorem Sound.remove {store : DocumentStore} (sound : store.Sound) (uri : Uri) :
    (store.remove uri).Sound where
  -- Whatever is still held was held before.
  ordered := sound.ordered.erase uri
  filed := by
    intro other document found
    rw [find?_remove] at found
    split at found
    · cases found
    · exact sound.filed found
  numbered := by
    intro other document found
    rw [find?_remove] at found
    split at found
    · cases found
    · exact sound.numbered found

/-- Dropping all documents keeps the store sound. -/
theorem Sound.clear {store : DocumentStore} : store.clear.Sound where
  -- Nothing is held any more.
  ordered := Table.ordered_empty
  filed := by intro uri document found; cases found
  numbered := by intro uri document found; cases found

/-- A sound store lists exactly the documents that it holds under their addresses. -/
theorem Sound.mem_all {store : DocumentStore} (sound : store.Sound) {document : Document} :
    document ∈ store.all ↔ store.find? document.uri = some document := by
  -- A listed document is held for some address, which is its own.
  rw [all, Table.mem_values sound.ordered]
  constructor
  · rintro ⟨uri, found⟩
    have filed := sound.filed found
    exact filed ▸ found
  · exact fun found => ⟨document.uri, found⟩

/-- A sound store lists for an address the document that it holds for it, and no other. -/
theorem Sound.filter_all {store : DocumentStore} (sound : store.Sound) (uri : Uri) :
    store.all.filter (fun document => document.uri = uri) = (store.find? uri).toList := by
  -- Documents are filed under their addresses.
  have filed : store.documents.entries.filter (fun entry => entry.2.uri = uri) =
      store.documents.entries.filter (fun entry => entry.1 = uri) := by
    refine List.filter_congr fun entry member => ?_
    rw [sound.filed ((Table.mem_entries sound.ordered).mp member)]
  rw [all, Table.values, List.filter_map]
  refine (congrArg (List.map Prod.snd)
    (filed.trans (Table.filter_entries sound.ordered uri))).trans ?_
  rw [find?]
  cases store.documents.find? uri with
  | none => rfl
  | some document => rfl

/--
Every document of the later store is newly opened, or was there in the same open before.

In the same open it is at a greater version or has not changed at all.
-/
structure Ages (earlier later : DocumentStore) : Prop where
  opened : earlier.opened ≤ later.opened
  documents : ∀ {uri document}, later.find? uri = some document →
    earlier.opened < document.generation ∨
      ∃ former, earlier.find? uri = some former ∧ former.generation = document.generation ∧
        (former.version < document.version ∨ former = document)

/-- A store that stays as it is ages. -/
theorem Ages.refl (store : DocumentStore) : store.Ages store where
  -- Every document is still there.
  opened := Nat.le_refl _
  documents := fun {_ document} found => .inr ⟨document, found, rfl, .inr rfl⟩

/-- A store ages by an open. -/
theorem ages_add (store : DocumentStore) (uri : Uri) (languageId : String) (version : Int)
    (text : String) : store.Ages (store.add uri languageId version text) where
  -- The new document's number has not been given before.
  opened := Nat.le_succ _
  documents := by
    intro other document found
    rw [find?_add] at found
    split at found
    · cases found
      exact .inl (Nat.lt_succ_self _)
    · exact .inr ⟨document, found, rfl, .inr rfl⟩

/-- A store ages by an edit whose version grows. -/
theorem ages_change {store : DocumentStore} {uri : Uri} {version : Int}
    (grows : ∀ document, store.find? uri = some document → document.version < version)
    (changes : List Change) : store.Ages (store.change uri version changes).value.1 where
  -- The edited document stays in the same open.
  opened := Nat.le_of_eq (opened_change store uri version changes).symm
  documents := by
    intro other document found
    rw [find?_change] at found
    split at found
    · rename_i same
      subst same
      obtain ⟨former, held, rfl⟩ := Option.map_eq_some_iff.mp found
      exact .inr ⟨former, held, rfl, .inl (grows former held)⟩
    · exact .inr ⟨document, found, rfl, .inr rfl⟩

/-- A store ages by a close. -/
theorem ages_remove (store : DocumentStore) (uri : Uri) : store.Ages (store.remove uri) where
  -- Whatever is still held has not changed.
  opened := Nat.le_refl _
  documents := by
    intro other document found
    rw [find?_remove] at found
    split at found
    · cases found
    · exact .inr ⟨document, found, rfl, .inr rfl⟩

/-- A store ages by dropping all documents. -/
theorem ages_clear (store : DocumentStore) : store.Ages store.clear where
  -- Nothing is held any more.
  opened := Nat.le_refl _
  documents := by intro other document found; cases found

end LanguageServer.DocumentStore

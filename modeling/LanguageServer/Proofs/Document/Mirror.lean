import LanguageServer.Proofs.Document.Store
import LanguageServer.Proofs.Text.Position

/-! A store that follows a client's notifications holds the client's text. -/

namespace LanguageServer

/-- An edit as the client makes it on its own text. -/
inductive ClientEdit where
  /-- The text is given up for another one. -/
  | whole (text : String)
  /-- A stretch of the text is replaced, between the part before it and the part behind it. -/
  | middle (before replaced behind inserted : String)
  deriving DecidableEq, Repr

/-- A text that ends where no carriage return stands on its last line. -/
def EndsClear (text : String) : Prop :=
  -- The end of a line may follow, with a carriage return or without.
  '\r' ∉ lastLine text.toList

/-- Whether a text ends clear can be seen from its last line. -/
instance EndsClear.decidable (text : String) : Decidable (EndsClear text) :=
  -- The line is searched for a carriage return.
  inferInstanceAs (Decidable ('\r' ∉ lastLine text.toList))

namespace ClientEdit

/-- Whether the client can make an edit on its text. -/
def Fits (text : String) : ClientEdit → Prop
  -- A stretch must lie in the text as it is now, and both of its ends must be clear.
  | .whole _ => True
  | .middle before replaced behind _ =>
    text = before ++ replaced ++ behind ∧ EndsClear before ∧ EndsClear (before ++ replaced)

/-- The client's text after an edit. -/
def result : ClientEdit → String
  -- The parts around a replaced stretch stay.
  | .whole text => text
  | .middle before _ behind inserted => before ++ inserted ++ behind

/-- An edit as the client sends it. -/
def sent : ClientEdit → Change
  -- A stretch is sent as the positions behind the parts before its two ends.
  | .whole text => { text }
  | .middle before replaced _ inserted =>
    { range := some ⟨positionAfter before.toList, positionAfter (before ++ replaced).toList⟩
      text := inserted }

/-- The client's text after edits in order. -/
def results (text : String) (edits : List ClientEdit) : String :=
  -- Each edit says by itself what it leaves.
  edits.foldl (fun _ edit => edit.result) text

/-- Whether the client can make edits in order. -/
def FitAll (text : String) : List ClientEdit → Prop
  -- Each edit starts from what the one before it left.
  | [] => True
  | edit :: rest => edit.Fits text ∧ FitAll edit.result rest

/-- The store makes of a text what the client made of it. -/
theorem apply_sent {text : String} {edit : ClientEdit} (fits : edit.Fits text) :
    edit.sent.apply text = edit.result := by
  -- The two positions lead back to the byte counts of the parts that stand before them.
  cases edit with
  | whole replacement => rfl
  | middle before replaced behind inserted =>
    obtain ⟨rfl, clearStart, clearStop⟩ := fits
    have start : offsetOf (before ++ replaced ++ behind).toList (positionAfter before.toList) =
        byteCount before.toList := by
      simpa using offsetOf_positionAfter before.toList (replaced.toList ++ behind.toList) clearStart
    have stop : offsetOf (before ++ replaced ++ behind).toList
        (positionAfter (before ++ replaced).toList) = byteCount (before ++ replaced).toList := by
      simpa using offsetOf_positionAfter (before ++ replaced).toList behind.toList clearStop
    have order : byteCount before.toList ≤ byteCount (before ++ replaced).toList := by simp
    have spliced := splice?_middle before.toList replaced.toList behind.toList inserted.toList
    simp only [String.toList_append] at start stop order
    simp only [Change.apply, sent, replaceRange, String.toList_append, start, stop,
      Nat.max_eq_left order, spliced]
    simp [result, String.ofList_append, String.append_assoc]

/-- The store follows the edits of one notification. -/
theorem foldl_apply_sent {text : String} {edits : List ClientEdit} (fit : FitAll text edits) :
    (edits.map sent).foldl Change.apply text = results text edits := by
  -- After each edit both sides have the same text again.
  induction edits generalizing text with
  | nil => rfl
  | cons edit rest ih =>
    obtain ⟨fits, fitRest⟩ := fit
    simp only [List.map_cons, List.foldl_cons, apply_sent fits, ih fitRest]
    rfl

end ClientEdit

/-- A notification of edits, which brings the text to a version. -/
structure Notification where
  version : Int
  edits : List ClientEdit
  deriving DecidableEq, Repr

namespace Notification

/-- A notification as a step of the store. -/
def step (uri : Uri) (notification : Notification) : DocumentStore.Step :=
  -- The edits are sent in the order in which they were made.
  .change uri notification.version (notification.edits.map ClientEdit.sent)

/-- The client's text after notifications in order. -/
def textAfter (text : String) (history : List Notification) : String :=
  -- Each notification tells of the edits made since the one before it.
  history.foldl (fun text notification => ClientEdit.results text notification.edits) text

/-- The version after notifications in order. -/
def versionAfter (version : Int) (history : List Notification) : Int :=
  -- The last one counts.
  history.foldl (fun _ notification => notification.version) version

/-- Whether the client can make the edits of notifications in order. -/
def Possible (text : String) : List Notification → Prop
  -- Each notification starts from what the one before it left.
  | [] => True
  | notification :: rest =>
    ClientEdit.FitAll text notification.edits ∧
      Possible (ClientEdit.results text notification.edits) rest

/-- The store takes the edits of one notification to its document. -/
theorem find?_perform_step {store : DocumentStore} {uri : Uri} {document : Document}
    {notification : Notification} (held : store.find? uri = some document)
    (fit : ClientEdit.FitAll document.text notification.edits) :
    (store.perform (notification.step uri)).value.1.find? uri =
      some { document with
        version := notification.version
        text := ClientEdit.results document.text notification.edits } := by
  -- The document is edited in place.
  have taken := DocumentStore.find?_change store uri uri notification.version
    (notification.edits.map ClientEdit.sent)
  rw [if_pos rfl, held, Option.map_some, Document.edit, ClientEdit.foldl_apply_sent fit] at taken
  exact taken

/-- A store follows a client through a possible history. -/
theorem find?_run_steps {store : DocumentStore} {uri : Uri} {document : Document}
    {history : List Notification} (held : store.find? uri = some document)
    (possible : Possible document.text history) :
    (store.run (history.map (step uri))).find? uri =
      some { document with
        version := versionAfter document.version history
        text := textAfter document.text history } := by
  -- After each notification the store holds the client's text, from which the rest goes on.
  induction history generalizing store document with
  | nil => simpa [DocumentStore.run, versionAfter, textAfter] using held
  | cons notification rest ih =>
    obtain ⟨fit, possibleRest⟩ := possible
    exact ih (find?_perform_step held fit) possibleRest

/-- A part of a possible history that reaches back to its start is possible. -/
theorem Possible.of_append {text : String} {done pending : List Notification}
    (possible : Possible text (done ++ pending)) : Possible text done := by
  -- Later notifications do not matter for earlier ones.
  induction done generalizing text with
  | nil => trivial
  | cons notification rest ih => exact ⟨possible.1, ih possible.2⟩

end Notification

/--
A store that held the client's text holds it again after every notification of edits.

The document is at the version that was sent last and is in all else what it was.
-/
theorem store_mirrors_client {store : DocumentStore} {uri : Uri} {document : Document}
    (held : store.find? uri = some document) {history : List Notification}
    (possible : Notification.Possible document.text history) {done pending : List Notification}
    (reached : history = done ++ pending) :
    (store.run (done.map (Notification.step uri))).find? uri =
      some { document with
        version := Notification.versionAfter document.version done
        text := Notification.textAfter document.text done } := by
  -- What has been sent so far is a possible history of its own.
  subst reached
  exact Notification.find?_run_steps held possible.of_append

/-- A client replaces a surrogate pair, then joins two lines, writes at the end and starts anew. -/
theorem store_mirrors_client_through_edits :
    let uri : Uri := ⟨"file:///main.mypl"⟩
    let history : List Notification :=
      [⟨2, [.middle "s = " "😀" "\r\nb" "é", .middle "s = é" "\r\n" "b" ""]⟩,
        ⟨5, [.middle "s = éb" "" "" "\n", .middle "s = éb\n" "" "" "c"]⟩, ⟨6, [.whole "d"]⟩]
    Notification.Possible "s = 😀\r\nb" history ∧
      ((({} : DocumentStore).add uri "mypl" 1 "s = 😀\r\nb").run
        ((history.take 2).map (Notification.step uri))).find? uri =
          some ⟨uri, "mypl", 5, "s = éb\nc", 1⟩ := by
  intro uri history
  have possible : Notification.Possible "s = 😀\r\nb" history := by
    simp [history, Notification.Possible, ClientEdit.FitAll, ClientEdit.Fits, ClientEdit.result,
      ClientEdit.results, EndsClear, lastLine]
  have held : (({} : DocumentStore).add uri "mypl" 1 "s = 😀\r\nb").find? uri =
      some ⟨uri, "mypl", 1, "s = 😀\r\nb", 1⟩ := by
    simp [DocumentStore.incoming]
  refine ⟨possible, ?_⟩
  rw [store_mirrors_client held possible (List.take_append_drop 2 history).symm]
  simp [history, Notification.versionAfter, Notification.textAfter, ClientEdit.results,
    ClientEdit.result]

end LanguageServer

import Mathlib.Data.List.Induction
import LanguageServer.Server.Handlers

/-! Runs of the server, and what they say about documents and validations. -/

namespace LanguageServer

/-- The diagnostics that outputs publish for a document, each with its version. -/
def published (uri : Uri) (outputs : List Output) : List (List Diagnostic × Option Int) :=
  -- Other documents are passed over.
  outputs.filterMap fun output => match output with
    | .send (.diagnostics other diagnostics version) =>
      if other = uri then some (diagnostics, version) else none
    | _ => none

/-- The runs of the compiler that outputs ask for on behalf of a validation. -/
def invocations (id : ValidationId) (outputs : List Output) : List (Mode × String) :=
  -- Other callers are passed over.
  outputs.filterMap fun output => match output with
    | .invoke (.validation other) mode source => if other = id then some (mode, source) else none
    | _ => none

/-- What is published by two lists of outputs is published by both in turn. -/
@[simp] theorem published_append (uri : Uri) (first second : List Output) :
    published uri (first ++ second) = published uri first ++ published uri second :=
  -- Outputs are looked at one by one.
  List.filterMap_append

/-- What two lists of outputs ask of the compiler is asked by both in turn. -/
@[simp] theorem invocations_append (id : ValidationId) (first second : List Output) :
    invocations id (first ++ second) = invocations id first ++ invocations id second :=
  -- Outputs are looked at one by one.
  List.filterMap_append

/-- Outputs that publish nothing and call the compiler for no validation. -/
structure Quiet (outputs : List Output) : Prop where
  published : ∀ uri, published uri outputs = []
  invocations : ∀ id, invocations id outputs = []

/-- Notices are quiet. -/
theorem quiet_notes (notices : List Notice) : Quiet (notes notices) where
  -- They go to the log alone.
  published uri := by simp [LanguageServer.published, notes]
  invocations id := by simp [LanguageServer.invocations, notes]

/-- Quiet outputs before and behind each other are quiet. -/
theorem Quiet.append {first second : List Output} (quietFirst : Quiet first)
    (quietSecond : Quiet second) : Quiet (first ++ second) where
  -- Nothing comes from either part.
  published uri := by rw [published_append, quietFirst.published, quietSecond.published]; rfl
  invocations id := by
    rw [invocations_append, quietFirst.invocations, quietSecond.invocations]; rfl

/-- Whether an event opens a document or closes it, if it does one of the two. -/
def Event.opening? (uri : Uri) : Event → Option Bool
  -- Edits neither open nor close.
  | .documentOpened other _ _ _ => if other = uri then some true else none
  | .documentClosed other => if other = uri then some false else none
  | _ => none

/-- Only a close closes a document. -/
theorem Event.opening?_eq_false {uri : Uri} {event : Event} :
    event.opening? uri = some false ↔ event = .documentClosed uri := by
  -- An open is told apart from a close, and other events are neither.
  cases event with
  | documentOpened other => by_cases same : other = uri <;> simp [opening?, same]
  | documentClosed other => by_cases same : other = uri <;> simp [opening?, same]
  | _ => simp [opening?]

namespace Server

/-- The server before anything has happened to it. -/
def fresh (mode : Mode) : Server := { mode }

/-- A run of events in two parts is the second part run after the first. -/
theorem run_append (server : Server) (first second : List Event) :
    server.run (first ++ second) =
      (((server.run first).1.run second).1,
        (server.run first).2 ++ ((server.run first).1.run second).2) := by
  -- The first part is taken event by event.
  induction first generalizing server with
  | nil => rfl
  | cons event rest ih =>
    simp only [List.cons_append, run, ih]
    simp

/-- One more event is one more step. -/
theorem run_concat (server : Server) (events : List Event) (event : Event) :
    server.run (events ++ [event]) =
      (((server.run events).1.step event).1,
        (server.run events).2 ++ ((server.run events).1.step event).2) := by
  -- A run of one event is its step.
  rw [run_append]
  simp [run]

/-- What a server puts out at an event that comes behind others. -/
def reaction (mode : Mode) (events : List Event) (event : Event) : List Output :=
  -- The server is fresh before the first of them.
  (((fresh mode).run events).1.step event).2

/-- Whether every event of a run meets a condition on the server that it finds. -/
def Along (condition : Server → Event → Prop) (server : Server) : List Event → Prop
  -- Each event finds the server as the one before it left it.
  | [] => True
  | event :: rest => condition server event ∧ Along condition (server.step event).1 rest

/-- A condition that can be checked for each event can be checked along a run. -/
instance Along.decidable {condition : Server → Event → Prop}
    [∀ server event, Decidable (condition server event)] :
    (server : Server) → (events : List Event) → Decidable (Along condition server events)
  -- The events are checked one after another.
  | _, [] => .isTrue trivial
  | server, event :: rest =>
    @instDecidableAnd _ _ _ (Along.decidable (server.step event).1 rest)

/-- A condition holds along a run when it holds along both of its parts. -/
theorem along_append {condition : Server → Event → Prop} {server : Server}
    {first second : List Event} :
    Along condition server (first ++ second) ↔
      Along condition server first ∧ Along condition (server.run first).1 second := by
  -- The second part finds the server that the first part left.
  induction first generalizing server with
  | nil => simp [Along, run]
  | cons event rest ih => simp [Along, run, ih, and_assoc]

/--
A property of runs holds along a run if every step keeps it.

The step may use that the condition held along all that came before.
-/
theorem run_induction {condition : Server → Event → Prop} {server : Server}
    {motive : List Event → Server → List Output → Prop} (start : motive [] server [])
    (next : ∀ events event, Along condition server events →
      condition (server.run events).1 event →
      motive events (server.run events).1 (server.run events).2 →
      motive (events ++ [event]) ((server.run events).1.step event).1
        ((server.run events).2 ++ ((server.run events).1.step event).2))
    {events : List Event} (along : Along condition server events) :
    motive events (server.run events).1 (server.run events).2 := by
  -- The run is taken apart at its last event.
  induction events using List.reverseRecOn with
  | nil => exact start
  | append_singleton events event ih =>
    obtain ⟨before, last, -⟩ := along_append.mp along
    rw [run_concat]
    exact next events event before last (ih before)

end Server

end LanguageServer

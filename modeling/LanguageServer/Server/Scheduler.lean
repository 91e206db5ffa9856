import LanguageServer.Server.Connection

/-! A connection with a compiler and a client that may be scripted, whose work is done at once. -/

namespace LanguageServer

/-- How the client answers a settings request. -/
inductive SettingsPolicy where
  /-- The same value for every document. -/
  | each (value : Json)
  /-- A value for each document, null if none is listed. -/
  | byUri (values : List (String × Json))
  /-- A result as it stands, which need not be a list. -/
  | raw (result : Json)
  | failure
  /-- No answer yet. -/
  | hold

/-- The answer to a settings request, if there is one yet. -/
def SettingsPolicy.answer? (policy : SettingsPolicy) (uri : Uri) : Option (Option (List Json)) :=
  -- A result that is no list is a failure.
  match policy with
  | .each value => some (some [value])
  | .byUri values => some (some [(Json.lookup uri.text values).getD .null])
  | .raw result => some result.asArray?
  | .failure => some none
  | .hold => none

/-- A rule that makes runs of the compiler wait, for one source or for all. -/
structure Hold where
  mode : Mode
  source : Option String
  deriving DecidableEq, Repr

/-- A run of the compiler that somebody waits for. -/
structure Call where
  caller : Caller
  mode : Mode
  source : String
  deriving DecidableEq, Repr

/-- A connection, the ways of its surroundings and all that waits. -/
structure Scheduler where
  connection : Connection
  compiler : Mode → String → Logged (Except InvocationError String)
  policy : SettingsPolicy := .each .null
  /-- Whether the client accepts registrations, if it answers them. -/
  registration : Option Bool := some true
  holds : List Hold := []
  /-- Runs of the compiler that are ordered and not yet considered. -/
  ordered : List Call := []
  /-- Settings requests that are made and not yet considered. -/
  asked : List FetchId := []
  /-- Registrations that are made and not yet considered. -/
  registering : Nat := 0
  waitingCalls : List Call := []
  waitingFetches : List FetchId := []
  /-- What the server has done since the last look, in order. -/
  outputs : List Output := []

namespace Scheduler

/-- The scheduler after one more output of the server. -/
def record (scheduler : Scheduler) (output : Output) : Scheduler :=
  -- Requests to the surroundings are considered later.
  let scheduler := { scheduler with outputs := scheduler.outputs ++ [output] }
  match output with
  | .invoke caller mode source =>
    { scheduler with ordered := scheduler.ordered ++ [⟨caller, mode, source⟩] }
  | .askSettings fetch => { scheduler with asked := scheduler.asked ++ [fetch] }
  | .askRegistration => { scheduler with registering := scheduler.registering + 1 }
  | _ => scheduler

/-- The scheduler after the connection has moved on. -/
def advance (scheduler : Scheduler) (moved : Connection × List Output) : Scheduler :=
  -- Outputs are recorded in order.
  moved.2.foldl record { scheduler with connection := moved.1 }

/-- The scheduler after an event. -/
def happen (scheduler : Scheduler) (event : Event) : Scheduler :=
  -- The connection decides what the client hears of it.
  scheduler.advance (scheduler.connection.happen event)

/-- The scheduler after every new validation was started. -/
def startValidations (scheduler : Scheduler) : Scheduler :=
  -- The oldest comes first.
  let scheduled := scheduler.connection.server.validations.filter (·.phase = .scheduled)
  scheduled.foldl (fun scheduler validation =>
    scheduler.happen (.validationStarted validation.id)) scheduler

/-- The scheduler after the client has answered registrations. -/
def answerRegistrations (scheduler : Scheduler) : Scheduler :=
  -- A client that does not answer leaves them waiting.
  let count := scheduler.registering
  let scheduler := { scheduler with registering := 0 }
  match scheduler.registration with
  | none => scheduler
  | some accepted => (List.range count).foldl (fun scheduler _ =>
      scheduler.happen (.registrationAnswered accepted)) scheduler

/-- The scheduler after the client has answered settings requests as a policy says. -/
def answerFetches (policy : SettingsPolicy) (fetches : List FetchId) (scheduler : Scheduler) :
    Scheduler :=
  -- Requests without an answer wait.
  fetches.foldl (fun scheduler fetch => match policy.answer? fetch.uri with
    | some values => scheduler.happen (.settingsAnswered fetch values)
    | none => { scheduler with waitingFetches := scheduler.waitingFetches ++ [fetch] }) scheduler

/-- The scheduler after every validation that has its settings went on. -/
def resumeValidations (scheduler : Scheduler) : Scheduler :=
  -- The oldest comes first.
  let configured := scheduler.connection.server.validations.filter fun validation =>
    match validation.phase with
    | .configured _ => true
    | _ => false
  configured.foldl (fun scheduler validation =>
    scheduler.happen (.validationResumed validation.id)) scheduler

/-- The scheduler after the compiler has run for a call. -/
def complete (scheduler : Scheduler) (call : Call) : Scheduler :=
  -- The compiler's own notices come before what the server makes of its answer.
  let answered := scheduler.compiler call.mode call.source
  let noted := (notes answered.notices).foldl record scheduler
  noted.happen (.compilerAnswered call.caller answered.value)

/-- Whether a rule makes a call wait. -/
def holdsBack (scheduler : Scheduler) (call : Call) : Bool :=
  -- A rule without a source is for every source.
  scheduler.holds.any fun rule =>
    rule.mode = call.mode && (rule.source.isNone || rule.source = some call.source)

/-- The scheduler after every ordered run that no rule makes wait. -/
def answerCalls (scheduler : Scheduler) : Scheduler :=
  -- Runs are considered in the order in which they were ordered.
  let calls := scheduler.ordered
  calls.foldl (fun scheduler call =>
    if scheduler.holdsBack call then
      { scheduler with waitingCalls := scheduler.waitingCalls ++ [call] }
    else scheduler.complete call) { scheduler with ordered := [] }

/-- The scheduler after all that can happen. -/
def settle (scheduler : Scheduler) : Scheduler :=
  -- Nothing that comes later in this order makes work for what comes earlier.
  let started := scheduler.startValidations.answerRegistrations
  let answered := answerFetches started.policy started.asked { started with asked := [] }
  answered.resumeValidations.answerCalls

/-- Something that the surroundings do. -/
inductive Action where
  | send (message : Incoming)
  | hold (rule : Hold)
  /-- The runs of one mode and source go on. -/
  | release (mode : Mode) (source : String)
  | releaseAll
  /-- The client answers differently from now on. -/
  | client (policy : Option SettingsPolicy) (registration : Option Bool)
  /-- The settings requests that wait are answered. -/
  | answer (policy : SettingsPolicy)
  /-- Something else happens to the server. -/
  | other (event : Event)

/-- The scheduler after calls that waited, of which some go on. -/
def release (scheduler : Scheduler) (goes : Call → Bool) : Scheduler :=
  -- They go on in the order in which they were ordered, whatever rules are left.
  let (going, staying) := scheduler.waitingCalls.partition goes
  going.foldl complete { scheduler with waitingCalls := staying }

/-- The scheduler after an action, before anything else happens. -/
def act (scheduler : Scheduler) : Action → Scheduler
  -- A rule is removed only in the words in which it was set.
  | .send message => scheduler.advance (scheduler.connection.receive message)
  | .hold rule => { scheduler with holds := rule :: scheduler.holds }
  | .release mode source =>
    let holds := scheduler.holds.filter (· ≠ ⟨mode, some source⟩)
    ({ scheduler with holds } : Scheduler).release fun call =>
      call.mode = mode && call.source = source
  | .releaseAll => ({ scheduler with holds := [] } : Scheduler).release fun _ => true
  | .client policy registration =>
    { scheduler with
      policy := policy.getD scheduler.policy
      registration := registration.orElse fun _ => scheduler.registration }
  | .answer policy =>
    answerFetches policy scheduler.waitingFetches { scheduler with waitingFetches := [] }
  | .other event => scheduler.happen event

/-- The scheduler after an action and all that can happen, with what the server did. -/
def perform (scheduler : Scheduler) (action : Action) : Scheduler × List Output :=
  -- The outputs are handed over once.
  let settled := ({ scheduler with outputs := [] } : Scheduler).act action |>.settle
  ({ settled with outputs := [] }, settled.outputs)

end Scheduler

end LanguageServer

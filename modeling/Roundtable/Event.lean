import Roundtable.Run

/-!
# Events

What is told to the outside while runs and delegations go on; nothing in the library
reads an event back. Events of a run carry its id. Events of a sub-agent carry a session
only, and belong to the run whose root session theirs descends from
(`Event.belongsTo`).
-/

namespace Roundtable

/-- Something that happened. -/
inductive Event
  | runStarted (run : RunId) (mission : String) (workerCount maxRounds : Nat) (when : Instant)
  | roundStarted (run : RunId) (round : Nat) (when : Instant)
  | tasksDispatched (run : RunId) (round : Nat) (topic : String) (tasks sentinels : Nat)
      (when : Instant)
  | taskCompleted (run : RunId) (round : Nat) (task : TaskId) (session : SessionId)
      (status : SubAgentStatus) (when : Instant)
  | roundConsolidated (run : RunId) (round : Nat) (summary : String) (continueRun : Bool)
      (when : Instant)
  | runCompleted (run : RunId) (rounds : Nat) (status : RunStatus) (when : Instant)
  | runFailed (run : RunId) (round : Nat) (failure : RunFailure) (when : Instant)
  | subAgentSpawned (session parent : SessionId) (role : String) (when : Instant)
  | subAgentFinished (session : SessionId) (status : SubAgentStatus) (millis : Nat)
      (when : Instant)
deriving DecidableEq, Repr, Inhabited

/-- The kinds of event. -/
inductive EventKind
  | runStarted | roundStarted | tasksDispatched | taskCompleted | roundConsolidated
  | runCompleted | runFailed | subAgentSpawned | subAgentFinished
deriving DecidableEq, Repr, Inhabited

namespace EventKind

/-- The name in records. -/
def name : EventKind → String
  | runStarted => "run_started"
  | roundStarted => "round_started"
  | tasksDispatched => "tasks_dispatched"
  | taskCompleted => "task_completed"
  | roundConsolidated => "round_consolidated"
  | runCompleted => "run_completed"
  | runFailed => "run_failed"
  | subAgentSpawned => "sub_agent_spawned"
  | subAgentFinished => "sub_agent_finished"

/-- All kinds. -/
def all : List EventKind :=
  [runStarted, roundStarted, tasksDispatched, taskCompleted, roundConsolidated, runCompleted,
    runFailed, subAgentSpawned, subAgentFinished]

/-- The kind a name stands for. -/
def ofName? (s : String) : Option EventKind := all.find? (·.name == s)

end EventKind

namespace Event

/-- The run an event names. -/
def run? : Event → Option RunId
  | runStarted r .. | roundStarted r .. | tasksDispatched r .. | taskCompleted r ..
  | roundConsolidated r .. | runCompleted r .. | runFailed r .. => some r
  | subAgentSpawned .. | subAgentFinished .. => none

/-- The session of a sub-agent's event. -/
def session? : Event → Option SessionId
  | subAgentSpawned s .. | subAgentFinished s .. => some s
  | _ => none

/-- **The event belongs to the run**: it names it, or its session descends from the
run's root. -/
def belongsTo (e : Event) (run : RunId) : Bool :=
  match e.run?, e.session? with
  | some r, _ => r == run
  | none, some s => s.descendsFrom run.rootSession
  | none, none => false

/-! ### As JSON -/

/-- The fields of an event that hold no time. -/
def timelessFields : Event → List (String × Json)
  | runStarted r mission w m _ =>
    [("type", .text "run_started"), ("run_id", r.toJson), ("mission", .text mission),
      ("worker_count", .nat w), ("max_rounds", .nat m)]
  | roundStarted r n _ =>
    [("type", .text "round_started"), ("run_id", r.toJson), ("round", .nat n)]
  | tasksDispatched r n topic tasks sentinels _ =>
    [("type", .text "tasks_dispatched"), ("run_id", r.toJson), ("round", .nat n),
      ("topic", .text topic), ("task_count", .nat tasks), ("sentinel_count", .nat sentinels)]
  | taskCompleted r n task session status _ =>
    [("type", .text "task_completed"), ("run_id", r.toJson), ("round", .nat n),
      ("task_id", task.toJson), ("worker_session_id", session.toJson),
      ("status", .text status.name)]
  | roundConsolidated r n summary c _ =>
    [("type", .text "round_consolidated"), ("run_id", r.toJson), ("round", .nat n),
      ("summary", .text summary), ("continue_run", .bool c)]
  | runCompleted r n status _ =>
    [("type", .text "run_completed"), ("run_id", r.toJson), ("rounds", .nat n),
      ("status", .text status.name)]
  | runFailed r n failure _ =>
    [("type", .text "run_failed"), ("run_id", r.toJson), ("round", .nat n),
      ("failure", failure.toJson)]
  | subAgentSpawned s p role _ =>
    [("type", .text "sub_agent_spawned"), ("session_id", s.toJson),
      ("parent_session_id", p.toJson), ("specialist_role", .text role)]
  | subAgentFinished s status _ _ =>
    [("type", .text "sub_agent_finished"), ("session_id", s.toJson),
      ("status", .text status.name)]

/-- The fields of an event that hold times. -/
def timeFields : Event → List (String × Json)
  | runStarted _ _ _ _ t | roundStarted _ _ t => [("started_at", t.toJson)]
  | tasksDispatched _ _ _ _ _ t => [("dispatched_at", t.toJson)]
  | taskCompleted _ _ _ _ _ t | runCompleted _ _ _ t => [("completed_at", t.toJson)]
  | roundConsolidated _ _ _ _ t => [("consolidated_at", t.toJson)]
  | runFailed _ _ _ t => [("failed_at", t.toJson)]
  | subAgentSpawned _ _ _ t => [("spawned_at", t.toJson)]
  | subAgentFinished _ _ millis t => [("duration_ms", .nat millis), ("finished_at", t.toJson)]

/-- The event as JSON. -/
def toJson (e : Event) : Json := .object (e.timelessFields ++ e.timeFields)

/-- What the fields of an event are gathered in. -/
structure Draft where
  run : RunId
  mission : String
  round : Nat
  maxRounds : Nat
  tasks : Nat
  sentinels : Nat
  topic : String
  task : TaskId
  session : SessionId
  parent : SessionId
  role : String
  status : SubAgentStatus
  runStatus : RunStatus
  failure : RunFailure
  continueRun : Bool
  millis : Nat
  when : Instant
deriving Inhabited

namespace Draft

/-- The field that names the run. -/
def runField : Json.Decoder.Field Draft :=
  .required "run_id" RunId.decoder fun x d => { d with run := x }

/-- The field that names the round. -/
def roundField (name : String) : Json.Decoder.Field Draft :=
  .required name .nat32 fun x d => { d with round := x }

/-- A field that holds the time. -/
def timeField (name : String) : Json.Decoder.Field Draft :=
  .required name Instant.decoder fun x d => { d with when := x }

/-- A field that holds a session. -/
def sessionField (name : String) : Json.Decoder.Field Draft :=
  .required name SessionId.decoder fun x d => { d with session := x }

/-- A field that holds how a delegation ended. -/
def statusField : Json.Decoder.Field Draft :=
  .required "status" SubAgentStatus.decoder fun x d => { d with status := x }

/-- The fields of each kind, in order. -/
def fields : EventKind → List (Json.Decoder.Field Draft)
  | .runStarted =>
    [runField, .required "mission" .text fun x d => { d with mission := x },
      .required "worker_count" .nat64 fun x d => { d with tasks := x },
      .required "max_rounds" .nat32 fun x d => { d with maxRounds := x }, timeField "started_at"]
  | .roundStarted => [runField, roundField "round", timeField "started_at"]
  | .tasksDispatched =>
    [runField, roundField "round", .required "topic" .text fun x d => { d with topic := x },
      .required "task_count" .nat64 fun x d => { d with tasks := x },
      .required "sentinel_count" .nat64 fun x d => { d with sentinels := x },
      timeField "dispatched_at"]
  | .taskCompleted =>
    [runField, roundField "round",
      .required "task_id" TaskId.decoder fun x d => { d with task := x },
      sessionField "worker_session_id", statusField, timeField "completed_at"]
  | .roundConsolidated =>
    [runField, roundField "round", .required "summary" .text fun x d => { d with mission := x },
      .required "continue_run" .bool fun x d => { d with continueRun := x },
      timeField "consolidated_at"]
  | .runCompleted =>
    [runField, roundField "rounds",
      .required "status" RunStatus.decoder fun x d => { d with runStatus := x },
      timeField "completed_at"]
  | .runFailed =>
    [runField, roundField "round",
      .required "failure" RunFailure.decoder fun x d => { d with failure := x },
      timeField "failed_at"]
  | .subAgentSpawned =>
    [sessionField "session_id",
      .required "parent_session_id" SessionId.decoder fun x d => { d with parent := x },
      .required "specialist_role" .text fun x d => { d with role := x }, timeField "spawned_at"]
  | .subAgentFinished =>
    [sessionField "session_id", statusField,
      .required "duration_ms" .nat64 fun x d => { d with millis := x }, timeField "finished_at"]

/-- The event of a kind with the parts gathered. -/
def toEvent (d : Draft) : EventKind → Event
  | .runStarted => .runStarted d.run d.mission d.tasks d.maxRounds d.when
  | .roundStarted => .roundStarted d.run d.round d.when
  | .tasksDispatched => .tasksDispatched d.run d.round d.topic d.tasks d.sentinels d.when
  | .taskCompleted => .taskCompleted d.run d.round d.task d.session d.status d.when
  | .roundConsolidated => .roundConsolidated d.run d.round d.mission d.continueRun d.when
  | .runCompleted => .runCompleted d.run d.round d.runStatus d.when
  | .runFailed => .runFailed d.run d.round d.failure d.when
  | .subAgentSpawned => .subAgentSpawned d.session d.parent d.role d.when
  | .subAgentFinished => .subAgentFinished d.session d.status d.millis d.when

end Draft

/-- Reads an event. -/
def decoder : Json.Decoder Event :=
  Json.Decoder.tagged "type" EventKind.ofName? fun kind =>
    .map (fun d => Draft.toEvent d kind) (.record default (Draft.fields kind))

end Event

end Roundtable

import Roundtable.RunId
import Roundtable.Task
import Roundtable.Time.Instant

/-!
# The state of a run

One value tells a run across all its rounds. Its operations keep what belongs together
together: a terminal status, the phase `done` and the time of completion come at once
(`RunState.finish`), tasks and results belong to the round that is under way
(`RunState.beginRound`), and the memory grows by one entry for each round that was
judged (`RunState.recordSummary`).

**A run always ends after it started**: where the clock does not show it, completion is
one microsecond after the start.
-/

namespace Roundtable

/-- Reads the id of a run. -/
def RunId.decoder : Json.Decoder RunId := .check .text fun s => (RunId.ofText s).toOption

/-- The id as JSON. -/
def RunId.toJson (r : RunId) : Json := .text r.text

/-- Reads an instant. -/
def Instant.decoder : Json.Decoder Instant := .check .text Instant.ofText?

/-- The instant as JSON. -/
def Instant.toJson (t : Instant) : Json := .text t.text

/-! ### Status and phase -/

/-- How far a run is. -/
inductive RunStatus
  | running
  | awaitingConsolidation
  | continuing
  | completed
  | failed
deriving DecidableEq, Repr, Inhabited

namespace RunStatus

/-- The run is over. -/
def isTerminal : RunStatus → Bool
  | completed | failed => true
  | running | awaitingConsolidation | continuing => false

/-- The name in records and messages. -/
def name : RunStatus → String
  | running => "running"
  | awaitingConsolidation => "awaiting_consolidation"
  | continuing => "continuing"
  | completed => "completed"
  | failed => "failed"

/-- The status a name stands for. -/
def ofName? (s : String) : Option RunStatus :=
  [running, awaitingConsolidation, continuing, completed, failed].find? (·.name == s)

/-- Reads a status. -/
def decoder : Json.Decoder RunStatus := Json.Decoder.name ofName?

end RunStatus

/-- What a run is doing in its round. -/
inductive RoundPhase
  | planning
  | dispatching
  | executing
  | consolidating
  | done
deriving DecidableEq, Repr, Inhabited

namespace RoundPhase

/-- The name in records. -/
def name : RoundPhase → String
  | planning => "planning"
  | dispatching => "dispatching"
  | executing => "executing"
  | consolidating => "consolidating"
  | done => "done"

/-- The phase a name stands for. -/
def ofName? (s : String) : Option RoundPhase :=
  [planning, dispatching, executing, consolidating, done].find? (·.name == s)

/-- Reads a phase. -/
def decoder : Json.Decoder RoundPhase := Json.Decoder.name ofName?

end RoundPhase

/-! ### Memory -/

/-- What is remembered of a round. -/
structure RoundSummary where
  round : Nat
  summary : String
  succeeded : Nat
  failed : Nat
deriving DecidableEq, Repr, Inhabited

namespace RoundSummary

/-- The entry as JSON. -/
def toJson (r : RoundSummary) : Json :=
  .object [("round", .nat r.round), ("summary", .text r.summary),
    ("succeeded", .nat r.succeeded), ("failed", .nat r.failed)]

/-- Reads an entry. -/
def decoder : Json.Decoder RoundSummary :=
  Json.Decoder.record default
    [.required "round" .nat32 fun x r => { r with round := x },
      .required "summary" .text fun x r => { r with summary := x },
      .required "succeeded" .nat64 fun x r => { r with succeeded := x },
      .required "failed" .nat64 fun x r => { r with failed := x }]

end RoundSummary

/-! ### The state -/

/-- The state of a run. -/
structure RunState where
  runId : RunId
  mission : String
  /-- Zero until planning begins. -/
  round : Nat
  tasks : List Task
  results : List TaskResult
  status : RunStatus
  phase : RoundPhase
  memory : List RoundSummary
  lastSummary : Option String
  error : Option RunFailure
  startedAt : Instant
  completedAt : Option Instant
deriving Repr, Inhabited

namespace RunState

/-- A run that starts now. -/
def start (runId : RunId) (mission : String) (now : Instant) : RunState :=
  { runId, mission, round := 0, tasks := [], results := [], status := .running,
    phase := .planning, memory := [], lastSummary := none, error := none, startedAt := now,
    completedAt := none }

/-- The run is over. -/
def isTerminal (s : RunState) : Bool := s.status.isTerminal

/-- The next round, with nothing of the last one's work. Rounds are counted in 32
bits. -/
def beginRound (s : RunState) : RunState :=
  { s with
    round := (s.round + 1) % 2 ^ 32, tasks := [], results := [], status := .running,
    phase := .planning }

/-- Remembers what the judge said of the round. -/
def recordSummary (s : RunState) (summary : String) : RunState :=
  let succeeded := (s.results.filter (·.success)).length
  { s with
    memory := s.memory ++ [⟨s.round, summary, succeeded, s.results.length - succeeded⟩]
    lastSummary := some summary }

/-- The time of completion when the clock shows `now`. -/
def completionTime (s : RunState) (now : Instant) : Instant :=
  if s.startedAt.before now then now else s.startedAt.nextMicro

/-- Ends the run. -/
def finish (s : RunState) (status : RunStatus) (now : Instant) : RunState :=
  { s with status, phase := .done, completedAt := some (s.completionTime now) }

/-- Ends the run as completed. -/
def complete (s : RunState) (now : Instant) : RunState := s.finish .completed now

/-- Ends the run as failed. -/
def fail (s : RunState) (failure : RunFailure) (now : Instant) : RunState :=
  { s with error := some failure }.finish .failed now

/-- Keeps a failure on the run; one of a fatal kind ends it. -/
def recordFailure (s : RunState) (failure : RunFailure) (now : Instant) : RunState :=
  if failure.kind.isFatal then s.fail failure now else { s with error := some failure }

/-! ### As JSON -/

/-- The state as JSON. -/
def toJson (s : RunState) : Json :=
  .object
    ([("run_id", s.runId.toJson), ("mission", .text s.mission), ("round_number", .nat s.round),
      ("tasks", .array (s.tasks.map Task.toJson)),
      ("results", .array (s.results.map TaskResult.toJson)), ("status", .text s.status.name),
      ("phase", .text s.phase.name), ("memory", .array (s.memory.map RoundSummary.toJson))] ++
    Json.optionalField "last_summary" (s.lastSummary.map .text) ++
    Json.optionalField "error" (s.error.map RunFailure.toJson) ++
    [("started_at", s.startedAt.toJson)] ++
    Json.optionalField "completed_at" (s.completedAt.map Instant.toJson))

/-- Reads a state. -/
def decoder : Json.Decoder RunState :=
  Json.Decoder.record default
    [.required "run_id" RunId.decoder fun x s => { s with runId := x },
      .required "mission" .text fun x s => { s with mission := x },
      .required "round_number" .nat32 fun x s => { s with round := x },
      .required "tasks" (.list Task.decoder) fun x s => { s with tasks := x },
      .required "results" (.list TaskResult.decoder) fun x s => { s with results := x },
      .required "status" RunStatus.decoder fun x s => { s with status := x },
      .required "phase" RoundPhase.decoder fun x s => { s with phase := x },
      .defaulted "memory" (.list RoundSummary.decoder) fun x s => { s with memory := x },
      .defaulted "last_summary" (.option .text) fun x s => { s with lastSummary := x },
      .defaulted "error" (.option RunFailure.decoder) fun x s => { s with error := x },
      .required "started_at" Instant.decoder fun x s => { s with startedAt := x },
      .defaulted "completed_at" (.option Instant.decoder)
        fun x s => { s with completedAt := x }]

end RunState

end Roundtable

import Roundtable.Json.Decoder

/-!
# Failures

What can go wrong around a run, as seven kinds. What happens to one worker never ends a
run, and neither does a topic that was left unbalanced: only the planner, the judge and
the store are fatal (`FailureKind.isFatal`).
-/

namespace Roundtable

/-- The kinds of failure. -/
inductive FailureKind
  | workerTimeout
  | workerExecution
  | teardown
  | planning
  | consolidation
  | persistence
  | queueExhaustion
deriving DecidableEq, Repr, Inhabited

namespace FailureKind

/-- The kind ends the run. -/
def isFatal : FailureKind → Bool
  | planning | consolidation | persistence => true
  | workerTimeout | workerExecution | teardown | queueExhaustion => false

/-- The name in records and messages. -/
def name : FailureKind → String
  | workerTimeout => "worker_timeout"
  | workerExecution => "worker_execution_error"
  | teardown => "resource_teardown_error"
  | planning => "planning_failure"
  | consolidation => "consolidation_failure"
  | persistence => "persistence_failure"
  | queueExhaustion => "queue_exhaustion"

/-- All kinds. -/
def all : List FailureKind :=
  [workerTimeout, workerExecution, teardown, planning, consolidation, persistence,
    queueExhaustion]

/-- The kind a name stands for. -/
def ofName? (s : String) : Option FailureKind := all.find? (·.name == s)

/-- Reads a kind. -/
def decoder : Json.Decoder FailureKind := Json.Decoder.name ofName?

end FailureKind

/-- A failure of a run. -/
structure RunFailure where
  kind : FailureKind
  message : String
deriving DecidableEq, Repr, Inhabited

namespace RunFailure

/-- The failure on one line. -/
def text (f : RunFailure) : String := f.kind.name ++ ": " ++ f.message

/-- The failure as JSON. -/
def toJson (f : RunFailure) : Json :=
  .object [("kind", .text f.kind.name), ("message", .text f.message)]

/-- Reads a failure. -/
def decoder : Json.Decoder RunFailure :=
  Json.Decoder.record default
    [.required "kind" FailureKind.decoder fun k f => { f with kind := k },
      .required "message" .text fun m f => { f with message := m }]

end RunFailure

end Roundtable

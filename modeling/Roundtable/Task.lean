import Roundtable.SubAgent
import Roundtable.Json.Printer

/-!
# Tasks

What a planner cuts a mission into, and what becomes of each piece. A task is never
changed; it reaches its worker as one text (`Task.mission`), the description with the
payload under it.
-/

namespace Roundtable

/-- The id of a task. -/
structure TaskId where
  text : String
deriving DecidableEq, Repr, Inhabited

/-- Reads the id of a task. -/
def TaskId.decoder : Json.Decoder TaskId := .map TaskId.mk .text

/-- The id as JSON. -/
def TaskId.toJson (t : TaskId) : Json := .text t.text

/-- A piece of work for a role. -/
structure Task where
  id : TaskId
  description : String
  role : String
  payload : Json
deriving Repr, Inhabited

namespace Task

/-- **The task as its worker gets it**: the description, and the payload as JSON over
several lines if there is one. -/
def mission (t : Task) : String :=
  if t.payload.isNull then t.description
  else t.description ++ "\n\nInput:\n" ++ t.payload.page

/-- The task as JSON. -/
def toJson (t : Task) : Json :=
  .object [("task_id", t.id.toJson), ("description", .text t.description),
    ("assigned_role", .text t.role), ("input_payload", t.payload)]

/-- Reads a task. -/
def decoder : Json.Decoder Task :=
  Json.Decoder.record ⟨default, "", "", .null⟩
    [.required "task_id" TaskId.decoder fun x t => { t with id := x },
      .required "description" .text fun x t => { t with description := x },
      .required "assigned_role" .text fun x t => { t with role := x },
      .defaulted "input_payload" Json.Decoder.any fun x t => { t with payload := x }]

end Task

/-- What became of a task. -/
structure TaskResult where
  task : TaskId
  session : SessionId
  output : String
  success : Bool
  status : SubAgentStatus
  error : Option String
  duration : Span
deriving DecidableEq, Repr, Inhabited

namespace TaskResult

/-- The result of a task from the delegation that worked on it. -/
def ofSubAgent (task : TaskId) (r : SubAgentResult) : TaskResult :=
  { task, session := r.session, output := r.output, success := r.isSuccess, status := r.status,
    error := r.error, duration := r.duration }

/-- The kind of failure, unless it succeeded. -/
def failureKind? (r : TaskResult) : Option FailureKind := r.status.failureKind?

/-- The result as JSON, but for its duration. -/
def timelessFields (r : TaskResult) : List (String × Json) :=
  [("task_id", r.task.toJson), ("worker_session_id", r.session.toJson),
    ("output", .text r.output), ("success", .bool r.success),
    ("status", .text r.status.name)] ++ Json.optionalField "error" (r.error.map .text)

/-- The result as JSON. -/
def toJson (r : TaskResult) : Json :=
  .object (r.timelessFields ++ [("duration", r.duration.toJson)])

/-- Reads a result. -/
def decoder : Json.Decoder TaskResult :=
  Json.Decoder.record default
    [.required "task_id" TaskId.decoder fun x r => { r with task := x },
      .required "worker_session_id" SessionId.decoder fun x r => { r with session := x },
      .required "output" .text fun x r => { r with output := x },
      .required "success" .bool fun x r => { r with success := x },
      .required "status" SubAgentStatus.decoder fun x r => { r with status := x },
      .defaulted "error" (.option .text) fun x r => { r with error := x },
      .required "duration" Span.decoder fun x r => { r with duration := x }]

end TaskResult

end Roundtable

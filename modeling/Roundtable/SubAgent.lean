import Roundtable.Failure
import Roundtable.Session
import Roundtable.Time.Span

/-!
# Sub-agents

What a delegation asks for and what comes back: a mission for a role under a parent
session, and a result that is always there, whatever the worker did.
-/

namespace Roundtable

/-- Reads a session. -/
def SessionId.decoder : Json.Decoder SessionId := .map SessionId.mk .text

/-- The session as JSON. -/
def SessionId.toJson (s : SessionId) : Json := .text s.text

/-- Reads a span from its text. -/
def Span.decoder : Json.Decoder Span := .check .text Span.ofText?

/-- The span as JSON. -/
def Span.toJson (s : Span) : Json := .text s.text

/-! ### Requests -/

/-- Whether a worker plans before it executes, where the request has a say. -/
inductive PlanningOverride
  | enabled
  | disabled
deriving DecidableEq, Repr, Inhabited

namespace PlanningOverride

/-- The name in records. -/
def name : PlanningOverride → String
  | enabled => "enabled"
  | disabled => "disabled"

/-- The choice a name stands for. -/
def ofName? (s : String) : Option PlanningOverride := [enabled, disabled].find? (·.name == s)

/-- Reads a choice. -/
def decoder : Json.Decoder PlanningOverride := Json.Decoder.name ofName?

end PlanningOverride

/-- A request to run one mission in a fresh worker. Without a budget of its own it runs
under the default one. -/
structure SubAgentSpec where
  mission : String
  role : String
  parent : SessionId
  timeout : Option Span
  planning : Option PlanningOverride
deriving DecidableEq, Repr, Inhabited

namespace SubAgentSpec

/-- The request as JSON. -/
def toJson (s : SubAgentSpec) : Json :=
  .object [("mission", .text s.mission), ("specialist_role", .text s.role),
    ("parent_session_id", s.parent.toJson), ("timeout", (s.timeout.map Span.toJson).getD .null),
    ("planning_override", .textOrNull (s.planning.map (·.name)))]

/-- Reads a request. -/
def decoder : Json.Decoder SubAgentSpec :=
  Json.Decoder.record default
    [.required "mission" .text fun x s => { s with mission := x },
      .required "specialist_role" .text fun x s => { s with role := x },
      .required "parent_session_id" SessionId.decoder fun x s => { s with parent := x },
      .defaulted "timeout" (.option Span.decoder) fun x s => { s with timeout := x },
      .defaulted "planning_override" (.option PlanningOverride.decoder)
        fun x s => { s with planning := x }]

end SubAgentSpec

/-! ### Results -/

/-- How a delegation ended. -/
inductive SubAgentStatus
  | success
  | failure
  | timeout
deriving DecidableEq, Repr, Inhabited

namespace SubAgentStatus

/-- The name in records and messages. -/
def name : SubAgentStatus → String
  | success => "success"
  | failure => "failure"
  | timeout => "timeout"

/-- The status a name stands for. -/
def ofName? (s : String) : Option SubAgentStatus :=
  [success, failure, timeout].find? (·.name == s)

/-- Reads a status. -/
def decoder : Json.Decoder SubAgentStatus := Json.Decoder.name ofName?

/-- The kind of failure, unless it succeeded. -/
def failureKind? : SubAgentStatus → Option FailureKind
  | success => none
  | failure => some .workerExecution
  | timeout => some .workerTimeout

end SubAgentStatus

/-- What comes back from a delegation. -/
structure SubAgentResult where
  status : SubAgentStatus
  output : String
  session : SessionId
  error : Option String
  duration : Span
deriving DecidableEq, Repr, Inhabited

/-- A field that is left out when it has no value. -/
def Json.optionalField (name : String) (value : Option Json) : List (String × Json) :=
  match value with
  | some v => [(name, v)]
  | none => []

namespace SubAgentResult

/-- The delegation succeeded. -/
def isSuccess (r : SubAgentResult) : Bool := r.status == .success

/-- The result as JSON, but for its duration. -/
def timelessFields (r : SubAgentResult) : List (String × Json) :=
  [("status", .text r.status.name), ("output", .text r.output),
    ("session_id", r.session.toJson)] ++ Json.optionalField "error" (r.error.map .text)

/-- The result as JSON. -/
def toJson (r : SubAgentResult) : Json :=
  .object (r.timelessFields ++ [("duration", r.duration.toJson)])

/-- Reads a result. -/
def decoder : Json.Decoder SubAgentResult :=
  Json.Decoder.record default
    [.required "status" SubAgentStatus.decoder fun x r => { r with status := x },
      .required "output" .text fun x r => { r with output := x },
      .required "session_id" SessionId.decoder fun x r => { r with session := x },
      .defaulted "error" (.option .text) fun x r => { r with error := x },
      .required "duration" Span.decoder fun x r => { r with duration := x }]

end SubAgentResult

end Roundtable

import Roundtable.Json.Loose
import Roundtable.Rehearsal.World

/-!
# Scripts and logs as JSON

Scripts are written by hand for a rehearsal, so every part of one may be left out and
has its plain value then. What a rehearsal has to show is written without clock times:
they are the same in every rehearsal and say nothing.
-/

namespace Roundtable.Rehearsal

open Json.Loose

/-! ### Reading scripts -/

/-- Whether to plan, where that is said. -/
def planningOf (j : Json) : Option PlanningOverride :=
  (str? j "planning").bind PlanningOverride.ofName?

/-- An errand. -/
def Errand.ofJson (j : Json) : Errand :=
  { role := str j "role", mission := str j "mission", planning := planningOf j
    caller := (str? j "caller").map SessionId.mk }

/-- What comes of asking for a worker. -/
def ScriptedCreation.ofJson (j : Json) : ScriptedCreation :=
  match str? j "unknown_role", str? j "creation_failed", str? j "panic" with
  | some t, _, _ => .refused (.unknownRole t)
  | none, some t, _ => .refused (.creationFailed t)
  | none, none, some t => .brokeOff t
  | none, none, none => .worker

/-- What comes of closing a worker. -/
def ScriptedClose.ofJson (j : Json) : ScriptedClose :=
  match str? j "error", str? j "panic" with
  | some t, _ => .refused ⟨t⟩
  | none, some t => .brokeOff t
  | none, none => .closed

/-- How a worker breaks off: by a fixed text, by something that is no text, or by the
text given. -/
def breakingOff : String → Option String
  | "literal" => some "worker bug"
  | "payload" => none
  | text => some text

/-- How an execution ends; the script of the worker tells. -/
def ScriptedEnd.ofJson (j : Json) : ScriptedEnd :=
  match get j "raise", str? j "panic" with
  | .text _, _ => .raised .cancelled
  | .object fs, _ =>
    match str? (.object fs) "failed" with
    | some t => .raised (.failed t)
    | none => .raised (.other (str (.object fs) "other"))
  | _, some t => .brokeOff (breakingOff t)
  | _, none => .returned (flagOr j "success" true) (str? j "error")

/-- A script. -/
def Script.ofJson (j : Json) : Script :=
  { createDelay := nat j "create_delay_ms", creation := .ofJson (get j "create")
    delay := nat j "delay_ms", output := (str? j "output").getD Script.plainOutput
    removes := str? j "remove_topic", errands := (list j "delegate").map .ofJson
    ending := .ofJson j, closeDelay := nat j "close_delay_ms"
    closing := .ofJson (get j "close") }

/-- The scripts of each role, one or a list of them. -/
def Cast.ofJson (j : Json) : Cast :=
  ⟨(fields j).map fun (role, s) =>
    match s with
    | .array ss => (role, ss.map .ofJson)
    | s => (role, [.ofJson s])⟩

/-- What a planner or a judge answers instead of an answer. -/
def faultOf? (j : Json) : Option CapabilityError :=
  match get j "error" with
  | .object fs =>
    match str? (.object fs) "unavailable", str? (.object fs) "invalid_response" with
    | some t, _ => some (.unavailable t)
    | none, some t => some (.invalidResponse t)
    | none, none => some (.other (str (.object fs) "other"))
  | _ => none

/-- An answer, unless it is a fault, and its delay. -/
def Line.ofJson {α : Type} (j : Json) (answer : α) : Line α :=
  ⟨nat j "delay_ms", match faultOf? j with
    | some e => .error e
    | none => .ok answer⟩

/-! ### Writing logs -/

/-- What is known of a worker. What only a worker that executes has is null for others,
and milliseconds are counted in 64 bits. -/
def Part.toJson (p : Part) (s : Spawn) : Json :=
  let reached (j : Json) : Json := if p.created then j else .null
  .object [("role", .text p.role), ("planning", .textOrNull (p.planning.map (·.name))),
    ("created", .bool p.created), ("session", reached s.session.toJson),
    ("mission", reached (.text s.spec.mission)),
    ("timeout_ms", reached (Json.nat (s.budget.millis % 2 ^ 64))),
    ("finished", .bool p.finished), ("closed", Json.nat p.closes),
    ("cancelled", reached (.bool p.cancelled))]

/-- A state without what the clock shows, but for whether it ended after it began. -/
def stateJson (s : RunState) : Json :=
  let kept := (fields s.toJson).filterMap fun (k, v) =>
    if k == "started_at" || k == "completed_at" then none
    else if k == "results" then
      some (k, .array (s.results.map fun r => .object r.timelessFields))
    else some (k, v)
  let completed := match s.completedAt with
    | none => .null
    | some t => .bool (s.startedAt.before t)
  .object (kept ++ [("completed", completed)])

/-- What a planner was asked. -/
def planJson (r : PlanRequest) : Json :=
  .object [("run_id", r.run.toJson), ("round", Json.nat r.round), ("mission", .text r.mission),
    ("memory", .array (r.memory.map RoundSummary.toJson)), ("session", r.session.toJson)]

/-- What a judge was asked. -/
def judgementJson (r : JudgeRequest) : Json :=
  .object [("run_id", r.run.toJson), ("round", Json.nat r.round),
    ("results", .array (r.results.map fun t => t.task.toJson)), ("session", r.session.toJson)]

namespace World

/-- What is known of every worker, in the order in which they were asked for. -/
def log (w : World) : Json :=
  .array ((w.grove.sprouts.zip w.parts.toList).map fun (s, p) => p.toJson s.spawn)

/-- Every event. -/
def events (w : World) : List Event := w.notices.toList.filterMap Notice.event?

/-- The events of a run. -/
def eventsOf (w : World) (run : RunId) : List Event := w.events.filter (·.belongsTo run)

/-- What was counted. -/
def metrics (w : World) : Json :=
  .object ((Measure.tally (w.notices.toList.filterMap Notice.measure?)).map fun (k, n) =>
    (k, Json.nat n))

end World

end Roundtable.Rehearsal

import Roundtable.Event

/-!
# Notices

What the parties of a run let the outside know while they work: events, which
subscribers receive, and measures, which are only counted. A step that has something to
tell returns its notices in order, and whoever makes the step passes them on.
-/

namespace Roundtable

/-- What is counted. -/
inductive Measure
  /-- A sub-agent was asked for. -/
  | subAgentSpawned
  /-- A delegation ended. -/
  | subAgentEnded (status : SubAgentStatus)
  /-- A sample of how long delegations take. -/
  | subAgentDuration (length : Span)
  /-- A worker's resources were not released. -/
  | teardownFailed
  | roundBegun
  | runEnded (status : RunStatus)
  /-- A round left its topic unbalanced. -/
  | queueExhausted
deriving DecidableEq, Repr, Inhabited

namespace Measure

/-- A name with the status it is counted under. -/
def labelled (name status : String) : String := name ++ "\x7bstatus=" ++ status ++ "\x7d"

/-- The name a measure is counted under. -/
def key : Measure → String
  | subAgentSpawned => "conclave_subagents_spawned_total"
  | subAgentEnded s => labelled "conclave_subagent_outcomes_total" s.name
  | subAgentDuration _ => "conclave_subagent_duration_seconds"
  | teardownFailed => "conclave_subagent_teardown_failures_total"
  | roundBegun => "conclave_rounds_total"
  | runEnded s => labelled "conclave_runs_total" s.name
  | queueExhausted => "conclave_queue_exhaustion_total"

/-- How often each name was counted, in the order in which the names came up. -/
def tally (ms : List Measure) : List (String × Nat) :=
  let keys := ms.map key
  keys.eraseDups.map fun k => (k, keys.count k)

end Measure

/-- What is let known. -/
inductive Notice
  | event (e : Event)
  | measure (m : Measure)
deriving DecidableEq, Repr, Inhabited

namespace Notice

/-- The event of a notice. -/
def event? : Notice → Option Event
  | event e => some e
  | measure _ => none

/-- The measure of a notice. -/
def measure? : Notice → Option Measure
  | event _ => none
  | measure m => some m

end Notice

end Roundtable

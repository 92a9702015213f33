import Roundtable.Capability
import Roundtable.Pool
import Roundtable.Store.Record

/-!
# The course of a run

How a run goes from its mission to its end:

    record the mission
    each round: recall the memory, plan, dispatch, drain the pool, judge, record
    until the judge or the limit ends it

A course is a value that waits: for an answer of the store, the planner or the judge
(`Course.request?` and `Course.resume`), or for its turn on the shared queue
(`Course.step?`). Each step on the queue is one operation of it, so other courses and
the workers of the pool may act between any two.

**Only the planner, the judge and the store can fail a run.** The first of them that
fails ends it: the failed state is recorded if the store still can, and the run's topic
is taken away on every way out.
-/

namespace Roundtable

/-! ### What a course asks and is answered -/

/-- What a planner is asked. -/
structure PlanRequest where
  run : RunId
  round : Nat
  mission : String
  /-- One entry for each round before this one. -/
  memory : List RoundSummary
  session : SessionId
deriving DecidableEq, Repr

/-- What a judge is asked. -/
structure JudgeRequest where
  run : RunId
  round : Nat
  results : List TaskResult
  session : SessionId
deriving DecidableEq, Repr

/-- A question of a course. -/
inductive CourseRequest
  | persist (round : Nat) (state : RunState)
  | load
  | plan (r : PlanRequest)
  | judge (r : JudgeRequest)
deriving Repr

/-- An answer to a course. -/
inductive CourseAnswer
  | persisted (r : Except StoreError Unit)
  | loaded (r : Except StoreError (Option RunState))
  | planned (r : Except CapabilityError (List Task))
  | judged (r : Except CapabilityError Verdict)

/-- Arguments no run can begin with. -/
inductive CourseFault
  | noWorkers
  | noRounds
deriving DecidableEq, Repr

/-- The fault in words. -/
def CourseFault.message : CourseFault → String
  | noWorkers => "worker_count must be at least 1"
  | noRounds => "max_rounds must be at least 1"

/-- What a step takes from outside: the time, and a text no session has ended with. -/
structure Moment where
  now : Instant
  fresh : String
deriving Repr, Inhabited

/-! ### Stages -/

/-- Where a course is. -/
inductive CourseStage
  /-- The mission is being recorded. -/
  | recording
  /-- The memory is being read back. -/
  | recalling
  | planning (r : PlanRequest)
  /-- Tasks are being published; these are left. -/
  | dispatching (rest : List Task)
  /-- Sentinels are being published; so many are left. -/
  | dismissing (left : Nat)
  /-- Workers are being hired; so many are left. -/
  | hiring (left : Nat)
  /-- The pool is at work. -/
  | draining
  | judging (r : JudgeRequest)
  /-- The round is being recorded. -/
  | storing (d : RoundDecision)
  /-- The failure is being recorded. -/
  | failing
  /-- About to take the topic away. -/
  | leaving
  | over
deriving Repr

/-- A run under way. -/
structure Course where
  state : RunState
  /-- The workers of each round. -/
  workers : Nat
  /-- The greatest number of rounds. -/
  limit : Nat
  delegation : Delegation
  pool : Pool
  stage : CourseStage
deriving Repr

namespace Course

/-- The run. -/
def run (c : Course) : RunId := c.state.runId

/-- A course goes on to another stage. -/
def goOn (c : Course) (stage : CourseStage) : Course := { c with stage }

/-- **A run begins**, if it may have workers and rounds. -/
def begin (run : RunId) (mission : String) (workers limit : Nat) (delegation : Delegation)
    (now : Instant) : Except CourseFault (Course × List Notice) :=
  if workers = 0 then .error .noWorkers
  else if limit = 0 then .error .noRounds
  else
    .ok
      ({ state := .start run mission now, workers, limit, delegation
         pool := .empty run 0 delegation, stage := .recording },
        [.event (.runStarted run mission workers limit now)])

/-! ### Questions -/

/-- What a course asks at its stage. -/
def request? (c : Course) : Option CourseRequest :=
  match c.stage with
  | .recording => some (.persist 0 c.state)
  | .recalling => some .load
  | .planning r => some (.plan r)
  | .judging r => some (.judge r)
  | .storing _ | .failing => some (.persist c.state.round c.state)
  | .dispatching _ | .dismissing _ | .hiring _ | .draining | .leaving | .over => none

/-! ### Moving on -/

/-- The run fails; its state is still to be recorded. -/
def fail (c : Course) (kind : FailureKind) (message : String) (now : Instant) : Course :=
  { c with state := c.state.fail ⟨kind, message⟩ now, stage := .failing }

/-- Asks the planner. -/
def plan (c : Course) (memory : List RoundSummary) (fresh : String) : Course :=
  c.goOn (.planning
    { run := c.run, round := c.state.round, mission := c.state.mission, memory
      session := c.run.rootSession.derive "planner" none fresh })

/-- Begins the next round. The first one has nothing to recall. -/
def beginRound (c : Course) (m : Moment) : Course × List Notice :=
  let c := { c with state := c.state.beginRound }
  let c := { c with pool := .empty c.run c.state.round c.delegation }
  (if c.state.round ≤ 1 then c.plan [] m.fresh else c.goOn .recalling,
    [.measure .roundBegun, .event (.roundStarted c.run c.state.round m.now)])

/-- The tasks of the round are known. -/
def dispatch (c : Course) (tasks : List Task) : Course :=
  { c with state := { c.state with phase := .dispatching, tasks }, stage := .dispatching tasks }

/-- A round that was not drained is remembered on the run. -/
def checkDrained (c : Course) (q : Queue Task) (now : Instant) : Course × List Notice :=
  let r := c.pool.report
  let s := (q.stats? c.run.topic).getD (Topic.empty : Topic Task).stats
  if r.isBalanced c.workers s then (c, [])
  else
    let failure : RunFailure := ⟨.queueExhaustion, r.imbalance c.state.round c.workers s⟩
    ({ c with state := c.state.recordFailure failure now }, [.measure .queueExhausted])

/-- The pool is drained: its results go to the judge. -/
def consolidate (c : Course) (q : Queue Task) (m : Moment) : Course × List Notice :=
  let results := c.pool.report.results
  let (c, notices) := c.checkDrained q m.now
  let state :=
    { c.state with results, phase := .consolidating, status := .awaitingConsolidation }
  ({ c with
      state
      stage := .judging
        { run := c.run, round := state.round, results
          session := c.run.rootSession.derive "judge" none m.fresh } },
    notices)

/-- The judge has spoken: the run goes on or is complete, and either is recorded. -/
def follow (c : Course) (v : Verdict) (now : Instant) : Course × List Notice :=
  let state := c.state.recordSummary v.summary
  let d := RoundDecision.after v state.round c.limit
  let state := match d with
    | .continue => { state with status := .continuing }
    | .complete => state.complete now
  ({ c with state, stage := .storing d },
    [.event (.roundConsolidated c.run state.round v.summary v.continueRun now)])

/-- The event that tells of a complete run. -/
def completion (c : Course) (now : Instant) : Event :=
  .runCompleted c.run c.state.round c.state.status (c.state.completedAt.getD now)

/-- What is told of a failed run. -/
def failureNotices (c : Course) (now : Instant) : List Notice :=
  match c.state.error with
  | some e =>
    [.event (.runFailed c.run c.state.round e (c.state.completedAt.getD now))]
  | none => []

/-- **A course takes an answer.** One that does not fit its stage changes nothing. -/
def resume (c : Course) (a : CourseAnswer) (m : Moment) : Course × List Notice :=
  let round := decimal c.state.round
  match c.stage, a with
  | .recording, .persisted (.ok ()) => c.beginRound m
  | .recording, .persisted (.error e) =>
    (c.fail .persistence ("Failed to record mission: " ++ e.message) m.now, [])
  | .recalling, .loaded (.ok (some s)) => (c.plan s.memory m.fresh, [])
  | .recalling, .loaded (.ok none) =>
    (c.fail .persistence ("No persisted rounds found for run " ++ c.run.text) m.now, [])
  | .recalling, .loaded (.error e) =>
    (c.fail .persistence ("Failed to reload cross-round memory: " ++ e.message) m.now, [])
  | .planning _, .planned (.ok tasks) => (c.dispatch tasks, [])
  | .planning _, .planned (.error e) =>
    (c.fail .planning ("Planner failed in round " ++ round ++ ": " ++ e.message) m.now, [])
  | .judging _, .judged (.ok v) => c.follow v m.now
  | .judging _, .judged (.error e) =>
    (c.fail .consolidation ("Judge failed in round " ++ round ++ ": " ++ e.message) m.now, [])
  | .storing .continue, .persisted (.ok ()) => c.beginRound m
  | .storing .complete, .persisted (.ok ()) =>
    (c.goOn .leaving, [.event (c.completion m.now)])
  | .storing _, .persisted (.error e) =>
    (c.fail .persistence ("Failed to record round " ++ round ++ ": " ++ e.message) m.now, [])
  | .failing, .persisted _ => (c.goOn .leaving, c.failureNotices m.now)
  | _, _ => (c, [])

/-! ### Steps on the queue -/

/-- The event that tells that the tasks are on their way. -/
def dispatched (c : Course) (now : Instant) : Event :=
  .tasksDispatched c.run c.state.round c.run.topic c.state.tasks.length c.workers now

/-- **One step of a course that waits for nobody**: tasks are published one by one, the
sentinels after them, and then the workers are hired; once they are all gone the judge
is asked. At the very end the topic is taken away. -/
def step? (c : Course) (q : Queue Task) (m : Moment) :
    Option (Course × Queue Task × List Notice) :=
  match c.stage with
  | .dispatching (t :: rest) =>
    some (c.goOn (.dispatching rest), (q.publish c.run.topic t).2, [])
  | .dispatching [] => some (c.goOn (.dismissing c.workers), q, [])
  | .dismissing (n + 1) =>
    some (c.goOn (.dismissing n), (q.publishSentinel c.run.topic).2, [])
  | .dismissing 0 =>
    some ({ c with state := { c.state with phase := .executing }, stage := .hiring c.workers },
      q, [.event (c.dispatched m.now)])
  | .hiring (n + 1) =>
    let (s, q) := q.subscribe c.run.topic
    some ({ c with pool := c.pool.hire s, stage := .hiring n }, q, [])
  | .hiring 0 => some (c.goOn .draining, q, [])
  | .draining =>
    if c.pool.isDrained then
      let (c, notices) := c.consolidate q m
      some (c, q, notices)
    else none
  | .leaving =>
    some (c.goOn .over, (q.remove c.run.topic).2, [.measure (.runEnded c.state.status)])
  | .recording | .recalling | .planning _ | .judging _ | .storing _ | .failing | .over => none

/-- One step of a worker of the round. -/
def stepWorker? (c : Course) (i : Nat) (q : Queue Task) (now : Instant) :
    Option (Course × Queue Task × List Notice) :=
  (c.pool.step? i q now).map fun (p, q, notices) => ({ c with pool := p }, q, notices)

/-- The run is over. -/
def isOver (c : Course) : Bool :=
  match c.stage with
  | .over => true
  | _ => false

end Course

end Roundtable

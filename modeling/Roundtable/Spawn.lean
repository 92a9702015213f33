import Roundtable.Capability
import Roundtable.Notice

/-!
# Spawns

A spawn takes one mission through one worker: it derives a session, asks the factory for
a worker, lets it execute within a budget, closes it, and turns whatever happened into a
result. Nothing that goes wrong in the worker is an error of the spawn.

A spawn is a value that waits for an answer. `Spawn.receive` takes the answer and gives
the next stage and what the spawn does, in order (`SpawnAct`). Where others may act
between two steps, or drop the spawn, there is a stage:

    creating → executing → closing → finished

**A worker that was created is closed on every way out**: when its execution ends in any
way, and, when the spawn is dropped while the worker executes, by a close of its own that
goes on without the spawn. A worker that is being closed already is not closed again.
-/

namespace Roundtable

/-! ### How an execution ends -/

/-- How an execution ended. -/
inductive ExecutionEnd
  | returned (o : ExecutionOutcome)
  | raised (e : ExecutionError)
  /-- The worker broke off, with a text or with something that is none. -/
  | brokeOff (message : Option String)
  | outOfTime
deriving DecidableEq, Repr

/-- What a spawn makes of the end of an execution. -/
structure Conclusion where
  status : SubAgentStatus
  output : String
  error : Option String
deriving DecidableEq, Repr, Inhabited

namespace ExecutionEnd

/-- The reason of a worker that reports failure and gives none. -/
def withoutDetail : String := "Worker reported failure without detail"

/-- What a worker left that broke off without a text. -/
def withoutText : String := "non-string panic payload"

/-- **What the end of an execution amounts to.** Only a worker that returned has an
output, and only a success has no error. -/
def conclusion (budget : Span) : ExecutionEnd → Conclusion
  | returned o =>
    if o.success then ⟨.success, o.output, none⟩
    else ⟨.failure, o.output, some (o.error.getD withoutDetail)⟩
  | raised e => ⟨.failure, "", some e.message⟩
  | brokeOff m => ⟨.failure, "", some ("Worker panicked: " ++ m.getD withoutText)⟩
  | outOfTime => ⟨.timeout, "", some s!"Worker exceeded its {budget.text} budget"⟩

end ExecutionEnd

/-! ### Stages -/

/-- Where a spawn is. -/
inductive SpawnStage
  /-- The factory has been asked for a worker. -/
  | creating
  /-- The worker executes. -/
  | executing
  /-- The worker is being closed. -/
  | closing (c : Conclusion)
  | finished (r : SubAgentResult)
  /-- The factory or the close broke off, and the spawn with it. -/
  | brokenOff (message : String)
  | dropped
deriving DecidableEq, Repr, Inhabited

namespace SpawnStage

/-- Nothing more will happen. -/
def isOver : SpawnStage → Bool
  | creating | executing | closing _ => false
  | finished _ | brokenOff _ | dropped => true

end SpawnStage

/-- One mission on its way through a worker. -/
structure Spawn where
  spec : SubAgentSpec
  /-- The session of the worker, a child of the one that asks. -/
  session : SessionId
  budget : Span
  startedAt : Instant
  stage : SpawnStage
deriving DecidableEq, Repr, Inhabited

/-- What a spawn does. -/
inductive SpawnAct
  | notify (n : Notice)
  /-- Asks the factory for a worker. -/
  | create
  /-- Hands the worker its mission, session and budget. -/
  | execute
  /-- Tells the worker that its time is up. -/
  | cancel
  /-- The execution is over, or given up where it is. -/
  | leaveExecution
  | close
  /-- Closes the worker without waiting for it. -/
  | closeAside
deriving DecidableEq, Repr

/-- An answer a spawn waits for, or what ends its waiting. -/
inductive SpawnInput
  | created (r : Except FactoryError Unit)
  | ended (e : ExecutionEnd)
  | closed (r : Except TeardownError Unit)
  /-- The factory or the close broke off. -/
  | brokeOff (message : String)
  | dropped

namespace Spawn

/-- An event as an act. -/
def event (e : Event) : SpawnAct := .notify (.event e)

/-- A measure as an act. -/
def measure (m : Measure) : SpawnAct := .notify (.measure m)

/-- **A spawn begins**: it has its session and asks for a worker. -/
def begin (spec : SubAgentSpec) (standard : Span) (fresh : String) (now : Instant) :
    Spawn × List SpawnAct :=
  let session := spec.parent.derive spec.role none fresh
  ({ spec, session, budget := spec.timeout.getD standard, startedAt := now, stage := .creating },
    [measure .subAgentSpawned, event (.subAgentSpawned session spec.parent spec.role now),
      .create])

/-- The result a conclusion gives. -/
def result (s : Spawn) (c : Conclusion) (now : Instant) : SubAgentResult :=
  { status := c.status, output := c.output, session := s.session, error := c.error,
    duration := now.since s.startedAt }

/-- The spawn has its result. The event tells the duration in milliseconds, counted in 64
bits. -/
def finish (s : Spawn) (c : Conclusion) (now : Instant) : Spawn × List SpawnAct :=
  let r := s.result c now
  ({ s with stage := .finished r },
    [measure (.subAgentEnded c.status), measure (.subAgentDuration r.duration),
      event (.subAgentFinished s.session c.status (r.duration.millis % 2 ^ 64) now)])

/-- What is told of a close. -/
def closeNotices : Except TeardownError Unit → List SpawnAct
  | .ok () => []
  | .error _ => [measure .teardownFailed]

/-- **A spawn takes an answer.** One that does not fit its stage changes nothing. -/
def receive (s : Spawn) (input : SpawnInput) (now : Instant) : Spawn × List SpawnAct :=
  match s.stage, input with
  | .creating, .created (.ok ()) => ({ s with stage := .executing }, [.execute])
  | .creating, .created (.error e) => s.finish ⟨.failure, "", some e.message⟩ now
  | .executing, .ended e =>
    ({ s with stage := .closing (e.conclusion s.budget) },
      (if e = .outOfTime then [.cancel] else []) ++ [.leaveExecution, .close])
  | .closing c, .closed r =>
    let (s, acts) := s.finish c now
    (s, closeNotices r ++ acts)
  | .creating, .brokeOff m => ({ s with stage := .brokenOff m }, [])
  | .closing _, .brokeOff m => ({ s with stage := .brokenOff m }, [])
  | .executing, .dropped => ({ s with stage := .dropped }, [.leaveExecution, .closeAside])
  | .creating, .dropped => ({ s with stage := .dropped }, [])
  | .closing _, .dropped => ({ s with stage := .dropped }, [])
  | _, _ => (s, [])

end Spawn

end Roundtable

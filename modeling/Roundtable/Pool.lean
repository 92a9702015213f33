import Roundtable.Delegation
import Roundtable.Notice
import Roundtable.Queue.Basic

/-!
# Pools

The workers of one round: each takes messages from the run's topic until it receives a
sentinel. For a task it delegates, tells the outside that the task is completed, puts
the result into the collection and only then acknowledges the message, so **a message
that was acknowledged has its result in the collection**. A sentinel is counted,
acknowledged, and the worker leaves.

Each of these is one step (`Pool.step?`), and the steps of the workers may interleave in
any order. Between taking a task and telling that it is completed a worker waits for its
delegation; `Pool.delegated` is the answer. A worker whose delegation broke off is lost
(`Pool.lose`), and the message it held stays unacknowledged.
-/

namespace Roundtable

/-- Where a worker of a pool is. -/
inductive PoolStage
  /-- About to take a message. -/
  | seeking
  /-- Waits for the delegation of a task it holds. -/
  | delegating (delivery : Nat) (task : Task)
  /-- About to tell that the task is completed. -/
  | announcing (delivery : Nat) (result : TaskResult)
  /-- About to put the result into the collection. -/
  | collecting (delivery : Nat) (result : TaskResult)
  | acknowledging (delivery : Nat)
  | left
  | lost
deriving Repr, Inhabited

namespace PoolStage

/-- The worker is gone. -/
def isGone : PoolStage → Bool
  | left | lost => true
  | seeking | delegating .. | announcing .. | collecting .. | acknowledging _ => false

/-- The worker is lost. -/
def isLost : PoolStage → Bool
  | lost => true
  | _ => false

end PoolStage

/-- A worker of a pool. -/
structure PoolWorker where
  subscription : Subscription
  /-- The sentinels it received. -/
  sentinels : Nat
  stage : PoolStage
deriving Repr

/-- The workers of a round and what they have collected. -/
structure Pool where
  run : RunId
  round : Nat
  delegation : Delegation
  workers : List PoolWorker
  /-- In the order in which they were put in. -/
  results : List TaskResult
deriving Repr

/-- What a pool left behind once every worker is gone. -/
structure PoolReport where
  results : List TaskResult
  /-- The sentinels of each worker that left. -/
  sentinels : List Nat
  lost : Nat
deriving DecidableEq, Repr

namespace Pool

/-- A pool without workers. -/
def empty (run : RunId) (round : Nat) (delegation : Delegation) : Pool :=
  { run, round, delegation, workers := [], results := [] }

/-- A worker joins, with a subscription of its own. -/
def hire (p : Pool) (s : Subscription) : Pool :=
  { p with workers := p.workers ++ [⟨s, 0, .seeking⟩] }

/-- Replaces a worker. -/
def setWorker (p : Pool) (i : Nat) (w : PoolWorker) : Pool :=
  { p with workers := p.workers.set i w }

/-- A worker goes on to another stage. -/
def goOn (p : Pool) (i : Nat) (w : PoolWorker) (stage : PoolStage) : Pool :=
  p.setWorker i { w with stage }

/-- The event that tells of a completed task. -/
def completion (p : Pool) (r : TaskResult) (now : Instant) : Event :=
  .taskCompleted p.run p.round r.task r.session r.status now

/-- A seeking worker has taken a message. -/
def taken (p : Pool) (i : Nat) (w : PoolWorker) (s : Subscription) (e : Envelope Task) : Pool :=
  match e.payload with
  | .item t => p.setWorker i { w with subscription := s, stage := .delegating e.id t }
  | .sentinel =>
    p.setWorker i
      { subscription := s, sentinels := w.sentinels + 1, stage := .acknowledging e.id }

/-- **One step of a worker that waits for nobody.** There is none while it waits for a
delegation or a message, or is gone. A refused acknowledgement changes nothing. -/
def step? (p : Pool) (i : Nat) (q : Queue Task) (now : Instant) :
    Option (Pool × Queue Task × List Notice) :=
  match p.workers[i]? with
  | none => none
  | some w =>
    match w.stage with
    | .seeking =>
      match q.next w.subscription with
      | (.message e, s, q) => some (p.taken i w s e, q, [])
      | (.ended, _, q) => some (p.goOn i w .left, q, [])
      | (.pending, _, _) => none
    | .announcing d r => some (p.goOn i w (.collecting d r), q, [.event (p.completion r now)])
    | .collecting d r =>
      some ({ p.goOn i w (.acknowledging d) with results := p.results ++ [r] }, q, [])
    | .acknowledging d =>
      match q.ack d with
      | .ok q => some (p.goOn i w .seeking, q, [])
      | .error _ => some (p.goOn i w .seeking, q, [])
    | .delegating .. | .left | .lost => none

/-- The delegation a worker waits for: the task as one mission, under the root session of
the run. -/
def request? (p : Pool) (i : Nat) : Option SubAgentSpec :=
  match p.workers[i]? with
  | some w =>
    match w.stage with
    | .delegating _ t => some (p.delegation.request t.mission t.role p.run.rootSession none)
    | _ => none
  | none => none

/-- A worker's delegation has its result. -/
def delegated (p : Pool) (i : Nat) (r : SubAgentResult) : Pool :=
  match p.workers[i]? with
  | some w =>
    match w.stage with
    | .delegating d t => p.goOn i w (.announcing d (.ofSubAgent t.id r))
    | _ => p
  | none => p

/-- A worker is lost, whatever it held. -/
def lose (p : Pool) (i : Nat) : Pool :=
  match p.workers[i]? with
  | some w => p.goOn i w .lost
  | none => p

/-- Every worker is gone. -/
def isDrained (p : Pool) : Bool := p.workers.all (·.stage.isGone)

/-- What the pool leaves behind. -/
def report (p : Pool) : PoolReport :=
  { results := p.results
    sentinels := (p.workers.filter fun w => !w.stage.isLost).map (·.sentinels)
    lost := (p.workers.filter (·.stage.isLost)).length }

end Pool

namespace PoolReport

/-- All sentinels that were received. -/
def consumed (r : PoolReport) : Nat := r.sentinels.sum

/-- **The round was drained**: no worker was lost, each received one sentinel, and the
topic holds nothing. -/
def isBalanced (r : PoolReport) (workers : Nat) (s : TopicStats) : Bool :=
  r.lost == 0 && r.consumed == workers && r.sentinels.all (· == 1) && s.pending == 0 &&
    s.inFlight == 0

/-- What is said of a round that was not drained. -/
def imbalance (r : PoolReport) (round workers : Nat) (s : TopicStats) : String :=
  "Round " ++ decimal round ++ " ended with " ++ decimal r.consumed ++ " of " ++
    decimal workers ++ " sentinels consumed, " ++ decimal r.lost ++ " lost workers, " ++
    decimal s.pending ++ " pending and " ++ decimal s.inFlight ++ " unacknowledged messages"

end PoolReport

end Roundtable

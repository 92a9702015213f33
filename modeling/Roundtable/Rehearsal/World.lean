import Roundtable.Course
import Roundtable.Grove
import Roundtable.Rehearsal.Script
import Roundtable.Store.Basic

/-!
# The world of a rehearsal

Everything a rehearsal changes, as one value: a clock that moves only when everything
waits, the spawns and what their workers have done so far, the runs, the shared queue,
the store, and every notice in order.

Waiting is for an `Alarm`, and a wait of no time is over at once. Alarms of one time are
told apart by the order in which they were set.

Suffixes of sessions are told and not drawn: `World.suffix` makes them from the number
of the spawn.
-/

namespace Roundtable.Rehearsal

/-- A time in milliseconds to wait for. -/
structure Alarm where
  time : Nat
  /-- The alarms that were set before. -/
  order : Nat
deriving DecidableEq, Repr, Inhabited

/-- What a scripted worker has done so far. -/
structure Part where
  script : Script
  role : String
  planning : Option PlanningOverride
  /-- What the worker, its factory or its close waits for. -/
  wait : Alarm
  /-- The end of the budget. -/
  deadline : Alarm
  /-- The delay of the execution is behind it. -/
  started : Bool
  errands : List Errand
  output : String
  created : Bool
  /-- The execution got past its delay and errands. -/
  finished : Bool
  /-- How often the worker was closed. -/
  closes : Nat
  /-- The worker was told that its time is up. -/
  cancelled : Bool
deriving Repr, Inhabited

/-- A run on stage: its course and the scripts of its planner and judge. -/
structure Performance where
  course : Course
  /-- The queue of a run that does not use the shared one. -/
  ownQueue : Option (Queue Task)
  /-- The planner's answers by round; the last one serves all later rounds. -/
  planner : List (Line (List Task))
  /-- The judge's answers by round. -/
  judge : List (Line Verdict)
  /-- What the planner or the judge waits for. -/
  wait : Option Alarm
  plans : List PlanRequest
  judgements : List JudgeRequest

/-- How a store fails to read. -/
inductive LoadFault
  | refused (e : StoreError)
  | forgets

/-- A store that may be told to fail. -/
structure Archive where
  store : Store
  /-- The rounds that cannot be recorded, and what is said of them. -/
  refusedRounds : List Nat
  refusal : StoreError
  /-- What every state is read with. -/
  loading : Option LoadFault

/-- Something that goes on beside the main thread. -/
inductive Job
  /-- The close of a worker whose spawn was dropped; it waits once it has begun. -/
  | close (spawn : Nat) (wait : Option Alarm)
  /-- A worker of a run's pool, and the spawns it waits for, the innermost first. -/
  | hand (run worker : Nat) (stack : List Nat)
deriving Repr

/-- The state of a rehearsal. -/
structure World where
  epoch : Instant
  /-- Milliseconds since the epoch. -/
  clock : Nat
  /-- The alarms that were set. -/
  alarms : Nat
  cast : Cast
  /-- The budget of spawns that ask for none. -/
  standard : Span
  /-- How scripted workers delegate. -/
  delegation : Delegation
  /-- The suffix of the session of the `n`-th spawn, counted from one. -/
  suffix : Nat → String
  grove : Grove
  /-- What the workers have done, by spawn. -/
  parts : Array Part
  runs : List Performance
  queue : Queue Task
  archive : Archive
  notices : Array Notice
  /-- Jobs that can go on, the first one first. -/
  ready : List Job
  /-- Jobs that wait. -/
  resting : List Job

namespace Archive

/-- Records a round. -/
def persist (a : Archive) (run : RunId) (round : Nat) (state : RunState) (now : Instant) :
    Except StoreError Unit × Archive :=
  if a.refusedRounds.contains round then (.error a.refusal, a)
  else
    let (answer, store) := a.store.persist run round state now
    (answer, { a with store })

/-- Reads the state of the last round recorded. -/
def load (a : Archive) (run : RunId) : Except StoreError (Option RunState) :=
  match a.loading with
  | some (.refused e) => .error e
  | some .forgets => .ok none
  | none => a.store.load run

end Archive

namespace World

/-- The world before anything happens. -/
def start (epoch : Instant) (cast : Cast) (standard : Span) (delegation : Delegation)
    (suffix : Nat → String) (archive : Archive) : World :=
  { epoch, clock := 0, alarms := 0, cast, standard, delegation, suffix, grove := .empty
    parts := #[], runs := [], queue := .empty, archive, notices := #[], ready := []
    resting := [] }

/-- The instant the clock shows. -/
def now (w : World) : Instant := w.epoch.addSpan (.ofMillis w.clock)

/-- Sets an alarm. -/
def alarm (w : World) (delay : Nat) : Alarm × World :=
  (⟨w.clock + delay, w.alarms⟩, { w with alarms := w.alarms + 1 })

/-- An alarm is due. -/
def isDue (w : World) (a : Alarm) : Bool := a.time ≤ w.clock

/-- A job can go on, after those that already can. -/
def schedule (w : World) (j : Job) : World := { w with ready := w.ready ++ [j] }

/-- Keeps a notice. -/
def note (w : World) (n : Notice) : World := { w with notices := w.notices.push n }

/-- Keeps notices. -/
def noteAll (w : World) (ns : List Notice) : World := ns.foldl note w

/-- Changes what a worker has done. -/
def changePart (w : World) (i : Nat) (f : Part → Part) : World :=
  { w with parts := w.parts.modify i f }

/-! ### Spawns -/

/-- The time of a budget in whole milliseconds, rounded up. -/
def budgetMillis (budget : Span) : Nat :=
  (budget.nanoseconds + (Span.perMilli - 1)) / Span.perMilli

/-- A worker is asked for. -/
def askFactory (w : World) (s : Spawn) : World :=
  let role := s.spec.role
  let script := w.cast.script role (w.parts.filter (·.role == role)).size
  let (wait, w) := w.alarm script.createDelay
  let part : Part :=
    { script, role, planning := s.spec.planning, wait, deadline := wait, started := false
      errands := script.errands, output := "", created := false, finished := false
      closes := 0, cancelled := false }
  { w with parts := w.parts.push part }

/-- A worker begins to execute. -/
def execute (w : World) (i : Nat) (s : Spawn) : World :=
  match w.parts[i]? with
  | none => w
  | some p =>
    let (wait, w) := w.alarm p.script.delay
    let (deadline, w) := w.alarm (budgetMillis s.budget)
    w.changePart i fun p => { p with wait, deadline }

/-- A worker is being closed. -/
def beginClose (w : World) (i : Nat) : World :=
  match w.parts[i]? with
  | none => w
  | some p =>
    let (wait, w) := w.alarm p.script.closeDelay
    w.changePart i fun p => { p with wait }

/-- What an act of a spawn does to the world. -/
def perform (w : World) (i : Nat) (a : SpawnAct) : World :=
  match w.grove.spawn? i, a with
  | _, .notify n => w.note n
  | some s, .create => w.askFactory s
  | some s, .execute => w.execute i s
  | _, .cancel => w.changePart i fun p => { p with cancelled := true }
  | _, .close => w.beginClose i
  | _, .closeAside => w.schedule (.close i none)
  | _, .leaveExecution | none, _ => w

/-- What acts do, one after the other. -/
def performAll (w : World) (acts : Grove.Acts) : World :=
  acts.foldl (fun w (i, a) => w.perform i a) w

/-- A spawn takes an answer. -/
def tell (w : World) (i : Nat) (input : SpawnInput) : World :=
  let (grove, acts) := w.grove.receive i input w.now
  { w with grove }.performAll acts

/-- A spawn begins; its number comes with the world. -/
def ask (w : World) (parent : Option Nat) (spec : SubAgentSpec) : Nat × World :=
  let i := w.grove.size
  let (grove, acts) := w.grove.begin parent spec w.standard (w.suffix (i + 1)) w.now
  (i, { w with grove }.performAll acts)

/-- How many workers were created and how many were closed. -/
def totals (w : World) : Nat × Nat :=
  ((w.parts.filter (·.created)).size, w.parts.foldl (fun n p => n + p.closes) 0)

/-! ### Runs -/

/-- The queue of a run. -/
def queueOf (w : World) (p : Performance) : Queue Task := p.ownQueue.getD w.queue

/-- Replaces a run and its queue. -/
def setRun (w : World) (k : Nat) (p : Performance) (q : Queue Task) : World :=
  match p.ownQueue with
  | some _ => { w with runs := w.runs.set k { p with ownQueue := some q } }
  | none => { w with runs := w.runs.set k p, queue := q }

end World

end Roundtable.Rehearsal

import Roundtable.Rehearsal.Strand

/-!
# Jobs

What goes on beside the main thread: the closes of workers whose spawns were dropped,
and the workers of pools. A job runs until it waits or is over, then the next one runs;
each job is polled in the order in which it could go on.
-/

namespace Roundtable.Rehearsal

namespace World

/-- The pool of a run changes. -/
def changePool (w : World) (k : Nat) (f : Pool → Pool) : World :=
  { w with
    runs := w.runs.modify k fun p =>
      { p with course := { p.course with pool := f p.course.pool } } }

/-! ### Closes -/

/-- A close that nobody waits for comes to its end. -/
def endLoneClose (w : World) (i : Nat) (p : Part) : World :=
  let w := w.changePart i fun p => { p with closes := p.closes + 1 }
  match p.script.closing with
  | .refused _ => w.note (.measure .teardownFailed)
  | .closed | .brokeOff _ => w

/-- A close that nobody waits for goes as far as it can. -/
def pollClose (w : World) (i : Nat) (wait : Option Alarm) : Option Job × World :=
  match w.parts[i]? with
  | none => (none, w)
  | some p =>
    let (a, w) := match wait with
      | some a => (a, w)
      | none => w.alarm p.script.closeDelay
    if w.isDue a then (none, w.endLoneClose i p) else (some (.close i (some a)), w)

/-! ### Workers of pools -/

/-- One step of a worker of a pool. -/
inductive HandStep
  | waits
  | goes (stack : List Nat) (w : World)
  /-- The worker is gone. -/
  | ends (w : World)

/-- One step of a worker of a pool that waits for no delegation. -/
def stepFree (w : World) (k i : Nat) : HandStep :=
  match w.runs[k]? with
  | none => .waits
  | some p =>
    match p.course.stepWorker? i (w.queueOf p) w.now with
    | some (course, q, notices) => .goes [] ((w.setRun k { p with course } q).noteAll notices)
    | none =>
      match p.course.pool.request? i, p.course.pool.workers[i]? with
      | some spec, _ =>
        let (j, w) := w.ask none spec
        .goes [j] w
      | none, some worker => if worker.stage.isGone then .ends w else .waits
      | none, none => .waits

/-- One step of a worker of a pool. -/
def stepHand (w : World) (k i : Nat) (stack : List Nat) : HandStep :=
  match stack with
  | [] => w.stepFree k i
  | _ :: _ =>
    match w.stepStrand stack with
    | .waits => .waits
    | .goes stack w => .goes stack w
    | .ends (.finished r) => .goes [] (w.changePool k fun p => p.delegated i r)
    | .ends (.brokeOff _) => .ends (w.changePool k fun p => p.lose i)

/-- A worker of a pool goes as far as it can, in at most so many steps. -/
def pollHand : Nat → Nat → Nat → List Nat → World → Option Job × World
  | 0, k, i, stack, w => (some (.hand k i stack), w)
  | n + 1, k, i, stack, w =>
    match w.stepHand k i stack with
    | .waits => (some (.hand k i stack), w)
    | .goes stack w => pollHand n k i stack w
    | .ends w => (none, w)

/-! ### All jobs -/

/-- A job goes as far as it can. -/
def pollJob (fuel : Nat) (j : Job) (w : World) : Option Job × World :=
  match j with
  | .close i wait => w.pollClose i wait
  | .hand k i stack => pollHand fuel k i stack w

/-- Jobs run, one after the other, until none can go on. -/
def runJobs : Nat → World → World
  | 0, w => w
  | n + 1, w =>
    match w.ready with
    | [] => w
    | j :: rest =>
      let (left, w) := pollJob n j { w with ready := rest }
      runJobs n { w with resting := w.resting ++ left.toList }

/-- What a job waits for. -/
def jobAlarms (w : World) : Job → List Alarm
  | .close _ wait => wait.toList
  | .hand _ _ stack => w.strandAlarms stack

/-- A worker of a pool that waited for a message can go on. -/
def isServed (w : World) : Job → Bool
  | .close .. => false
  | .hand k i [] =>
    match w.runs[k]? with
    | some p => (p.course.stepWorker? i (w.queueOf p) w.now).isSome
    | none => false
  | .hand _ _ (_ :: _) => false

/-- Workers that waited for a message can go on once there is one. -/
def serveHands (w : World) : World :=
  let (served, resting) := w.resting.partition w.isServed
  { w with ready := w.ready ++ served, resting }

/-! ### The clock -/

/-- The earlier of two times. -/
def earlier (a : Nat) : Option Nat → Nat
  | none => a
  | some b => min a b

/-- The first time after now that one of some alarms is for. -/
def nextTime (w : World) (alarms : List Alarm) : Option Nat :=
  (alarms.filter fun a => !w.isDue a).foldl (fun t a => some (earlier a.time t)) none

/-- The first of a job's alarms that are due, in the order in which they were set. -/
def callOf (w : World) (j : Job) : Option Nat :=
  ((w.jobAlarms j).filter w.isDue).foldl (fun t a => some (earlier a.order t)) none

/-- The clock moves, and the jobs whose alarm is due can go on, in the order in which
their alarms were set. -/
def moveClock (w : World) (time : Nat) : World :=
  let w := { w with clock := time }
  let called := w.resting.filterMap fun j => (w.callOf j).map fun order => (order, j)
  let called := called.mergeSort fun a b => a.1 ≤ b.1
  { w with
    ready := w.ready ++ called.map (·.2)
    resting := w.resting.filter fun j => (w.callOf j).isNone }

/-- What all jobs wait for. -/
def allJobAlarms (w : World) : List Alarm := w.resting.flatMap w.jobAlarms

end World

/-- What a rehearsal waits for in the end. -/
structure Lead (σ : Type) where
  /-- It goes as far as it can. -/
  poll : σ → World → σ × World
  isOver : σ → Bool
  /-- What it waits for. -/
  alarms : World → σ → List Alarm

namespace Lead

variable {σ : Type}

/-- **Plays until the lead is over**, in at most so many rounds: the lead goes first,
then every job that can go on, and when all wait the clock moves to the next alarm. -/
def play (lead : Lead σ) : Nat → σ → World → σ × World
  | 0, s, w => (s, w)
  | n + 1, s, w =>
    let (s, w) := lead.poll s w
    if lead.isOver s then (s, w)
    else
      let w := w.serveHands
      if w.ready.isEmpty then
        match w.nextTime (lead.alarms w s ++ w.allJobAlarms) with
        | some time => play lead n s (w.moveClock time)
        | none => (s, w)
      else play lead n s (w.runJobs n)

end Lead

end Roundtable.Rehearsal

import Roundtable.Rehearsal.Job

/-!
# Seasons

Runs rehearsed together, on one store, one shared queue and one clock, each with a
scripted planner and judge. They are polled in their order; or, if they follow one
another, the next begins when the one before is over.

Sessions of planners and judges end with `~p` and `~j` and the number of the round.
-/

namespace Roundtable.Rehearsal

namespace World

/-- The suffix of the session that is derived when a course goes on from its stage. -/
def courseSuffix (c : Course) : String :=
  match c.stage with
  | .recording => "~p1"
  | .draining => "~j" ++ decimal c.state.round
  | _ => "~p" ++ decimal c.state.round

/-- What a course takes from the world when it goes on. -/
def moment (w : World) (c : Course) : Moment := ⟨w.now, courseSuffix c⟩

/-- What a planner answers in a round: the last answer serves all later rounds, and one
without answers plans nothing. -/
def plannerLine (lines : List (Line (List Task))) (round : Nat) : Line (List Task) :=
  (lines[round - 1]?).getD (lines.getLastD ⟨0, .ok []⟩)

/-- What a judge answers in a round; when it has nothing more to say the run goes on. -/
def judgeLine (lines : List (Line Verdict)) (round : Nat) : Line Verdict :=
  (lines[round - 1]?).getD ⟨0, .ok (.proceed ("round " ++ decimal round))⟩

/-- A run takes an answer. -/
def resumeRun (w : World) (k : Nat) (p : Performance) (a : CourseAnswer) : World :=
  let (course, notices) := p.course.resume a (w.moment p.course)
  (w.setRun k { p with course, wait := none } (w.queueOf p)).noteAll notices

/-- A party is asked: it begins to think, or its answer is there, or it still thinks. -/
def consult (w : World) (k : Nat) (p : Performance) (delay : Nat) (answer : CourseAnswer)
    (asked : Performance) : Option World :=
  match p.wait with
  | none =>
    let (a, w) := w.alarm delay
    some (w.setRun k { asked with wait := some a } (w.queueOf p))
  | some a => if w.isDue a then some (w.resumeRun k p answer) else none

/-- The workers a run has hired since `before` begin. -/
def beginHands (w : World) (k before after : Nat) : World :=
  (List.range' before (after - before)).foldl (fun w i => w.schedule (.hand k i [])) w

/-- **One step of a run**, unless it waits. -/
def stepRun (w : World) (k : Nat) : Option World :=
  match w.runs[k]? with
  | none => none
  | some p =>
    match p.course.request? with
    | some (.persist round state) =>
      let (answer, archive) := w.archive.persist p.course.run round state w.now
      some ({ w with archive }.resumeRun k p (.persisted answer))
    | some .load => some (w.resumeRun k p (.loaded (w.archive.load p.course.run)))
    | some (.plan r) =>
      let line := plannerLine p.planner r.round
      w.consult k p line.delay (.planned line.answer) { p with plans := p.plans ++ [r] }
    | some (.judge r) =>
      let line := judgeLine p.judge r.round
      w.consult k p line.delay (.judged line.answer)
        { p with judgements := p.judgements ++ [r] }
    | none =>
      match p.course.step? (w.queueOf p) (w.moment p.course) with
      | none => none
      | some (course, q, notices) =>
        let before := p.course.pool.workers.length
        some (((w.setRun k { p with course } q).noteAll notices).beginHands k before
          course.pool.workers.length)

/-- A run goes as far as it can, in at most so many steps. -/
def pollRun (k : Nat) : Nat → World → World
  | 0, w => w
  | n + 1, w =>
    match w.stepRun k with
    | some w => pollRun k n w
    | none => w

/-- A run is over. -/
def isRunOver (w : World) (k : Nat) : Bool :=
  match w.runs[k]? with
  | some p => p.course.isOver
  | none => true

end World

/-- What is asked for of a run. -/
structure Booking where
  run : RunId
  mission : String
  workers : Nat
  limit : Nat
  delegation : Delegation
  ownQueue : Bool
  planner : List (Line (List Task))
  judge : List (Line Verdict)

/-- A run of a season. -/
inductive Entry
  | booked (b : Booking)
  | refused (f : CourseFault)
  /-- On stage, under a number of the world. -/
  | playing (number : Nat)

/-- The runs of a season. -/
structure Season where
  entries : List Entry
  /-- The runs follow one another. -/
  inTurn : Bool

namespace Season

/-- A run begins, unless its arguments are refused. -/
def enter (w : World) (b : Booking) : Entry × World :=
  match Course.begin b.run b.mission b.workers b.limit b.delegation w.now with
  | .error f => (.refused f, w)
  | .ok (course, notices) =>
    let p : Performance :=
      { course, ownQueue := if b.ownQueue then some .empty else none, planner := b.planner
        judge := b.judge, wait := none, plans := [], judgements := [] }
    (.playing w.runs.length, { w with runs := w.runs ++ [p] }.noteAll notices)

/-- Nothing more will happen. -/
def isEntryOver (w : World) : Entry → Bool
  | .booked _ => false
  | .refused _ => true
  | .playing k => w.isRunOver k

/-- A run goes as far as it can. -/
def pollEntry (fuel : Nat) (w : World) (e : Entry) : Entry × World :=
  let (e, w) := match e with
    | .booked b => enter w b
    | e => (e, w)
  match e with
  | .playing k => (e, World.pollRun k fuel w)
  | .booked _ | .refused _ => (e, w)

/-- **Runs go as far as they can**, in their order; where they follow one another, none
begins before those in front of it are over. -/
def pollEntries (fuel : Nat) (inTurn : Bool) (w : World) : List Entry → List Entry × World
  | [] => ([], w)
  | e :: rest =>
    let (e, w) := pollEntry fuel w e
    if inTurn && !isEntryOver w e then (e :: rest, w)
    else
      let (rest, w) := pollEntries fuel inTurn w rest
      (e :: rest, w)

/-- A season as what a rehearsal waits for. -/
def lead (fuel : Nat) : Lead (Season × Bool) :=
  { poll := fun (s, _) w =>
      let (entries, w) := pollEntries fuel s.inTurn w s.entries
      (({ s with entries }, entries.all (isEntryOver w)), w)
    isOver := fun (_, done) => done
    alarms := fun w _ => w.runs.filterMap (·.wait) }

/-- **Plays a season.** -/
def play (s : Season) (fuel : Nat) (w : World) : Season × World :=
  let ((s, _), w) := (lead fuel).play fuel (s, false) w
  (s, w)

end Season

end Roundtable.Rehearsal

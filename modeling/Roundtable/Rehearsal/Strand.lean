import Roundtable.Rehearsal.World
import Roundtable.Text.Quoted

/-!
# Strands

Spawns that wait for each other: one was asked for by the worker of the next, and so on
up to the one somebody outside waits for. A strand names them, the innermost first.

Only the innermost spawn can do something by itself (`World.proceed`). When it cannot,
because it waits, a spawn whose budget has ended gives up its execution and everything
inside, **the innermost such spawn first**; so a worker that is done exactly when its
budget ends has succeeded.
-/

namespace Roundtable.Rehearsal

/-- What came of a strand. -/
inductive StrandEnd
  | finished (r : SubAgentResult)
  | brokeOff (message : String)
deriving DecidableEq, Repr

/-- One step of a strand. -/
inductive StrandStep
  /-- Every spawn waits. -/
  | waits
  | goes (stack : List Nat) (w : World)
  | ends (e : StrandEnd)

namespace World

/-- What an errand's result adds to the output of the worker that sent it. -/
def errandLine (r : SubAgentResult) : String :=
  let error := match r.error with
    | none => "None"
    | some e => "Some(" ++ Text.quoted e ++ ")"
  "\n[" ++ r.status.name ++ "] " ++ r.output ++ " " ++ error ++ " " ++ r.session.text

/-- The request of an errand. -/
def errandSpec (w : World) (s : Spawn) (e : Errand) : SubAgentSpec :=
  Specialist.request ⟨w.delegation, e.role, e.planning, e.caller.getD s.session⟩ e.mission

/-- The factory answers. -/
def endCreate (w : World) (i : Nat) (p : Part) : World :=
  match p.script.creation with
  | .worker => (w.changePart i fun p => { p with created := true }).tell i (.created (.ok ()))
  | .refused e => w.tell i (.created (.error e))
  | .brokeOff m => w.tell i (.brokeOff m)

/-- The close answers. -/
def endClose (w : World) (i : Nat) (p : Part) : World :=
  let w := w.changePart i fun p => { p with closes := p.closes + 1 }
  match p.script.closing with
  | .closed => w.tell i (.closed (.ok ()))
  | .refused e => w.tell i (.closed (.error e))
  | .brokeOff m => w.tell i (.brokeOff m)

/-- The delay of an execution is over. -/
def startWork (w : World) (i : Nat) (p : Part) (s : Spawn) : World :=
  let w := match p.script.removes with
    | some topic => { w with queue := (w.queue.remove topic).2 }
    | none => w
  w.changePart i fun p => { p with started := true, output := Script.fill p.script.output s }

/-- The next thing the worker of an executing spawn does. -/
def work (w : World) (i : Nat) (p : Part) (s : Spawn) (below : List Nat) :
    List Nat × World :=
  if !p.started then (i :: below, w.startWork i p s)
  else
    match p.errands with
    | e :: rest =>
      let (j, w) := (w.changePart i fun p => { p with errands := rest }).ask (some i)
        (w.errandSpec s e)
      (j :: i :: below, w)
    | [] =>
      let w := w.changePart i fun p => { p with finished := true }
      (i :: below, w.tell i (.ended (p.script.executionEnd p.output)))

/-- What the innermost spawn of a strand does when its wait is over. -/
def proceed (w : World) (i : Nat) (p : Part) (s : Spawn) (below : List Nat) :
    List Nat × World :=
  match s.stage with
  | .creating => (i :: below, w.endCreate i p)
  | .executing => w.work i p s below
  | .closing _ => (i :: below, w.endClose i p)
  | .finished _ | .brokenOff _ | .dropped => (i :: below, w)

/-- The spawn executes and its budget has ended. -/
def isOutOfTime (w : World) (i : Nat) : Bool :=
  match w.grove.spawn? i, w.parts[i]? with
  | some s, some p => s.stage == .executing && w.isDue p.deadline
  | _, _ => false

/-- The innermost spawn whose budget has ended gives up its execution. -/
def giveUp (w : World) (stack : List Nat) : StrandStep :=
  match stack.dropWhile fun i => !w.isOutOfTime i with
  | [] => .waits
  | i :: below => .goes (i :: below) (w.tell i (.ended .outOfTime))

/-- **One step of a strand.** -/
def stepStrand (w : World) (stack : List Nat) : StrandStep :=
  match stack with
  | [] => .waits
  | i :: below =>
    match w.grove.spawn? i, w.parts[i]? with
    | some s, some p =>
      match s.stage, below with
      | .finished r, [] => .ends (.finished r)
      | .finished r, j :: _ =>
        .goes below (w.changePart j fun p => { p with output := p.output ++ errandLine r })
      | .brokenOff m, [] => .ends (.brokeOff m)
      | .brokenOff m, j :: _ => .goes below (w.tell j (.ended (.brokeOff (some m))))
      | .dropped, _ => .waits
      | _, _ =>
        if w.isDue p.wait then
          let (stack, w) := w.proceed i p s below
          .goes stack w
        else w.giveUp stack
    | _, _ => .waits

/-- **A strand goes as far as it can**, in at most so many steps. -/
def pollStrand : Nat → List Nat → World → (List Nat ⊕ StrandEnd) × World
  | 0, stack, w => (.inl stack, w)
  | n + 1, stack, w =>
    match w.stepStrand stack with
    | .waits => (.inl stack, w)
    | .goes stack w => pollStrand n stack w
    | .ends e => (.inr e, w)

/-- What a strand waits for: the innermost spawn for its wait, and every spawn that
executes for the end of its budget. -/
def strandAlarms (w : World) : List Nat → List Alarm
  | [] => []
  | i :: below =>
    let wait := (w.parts[i]?).map (·.wait)
    wait.toList ++ (i :: below).filterMap fun j =>
      match w.grove.spawn? j, w.parts[j]? with
      | some s, some p => if s.stage == .executing then some p.deadline else none
      | _, _ => none

/-- A strand is dropped: its outermost spawn, and with it all the others. -/
def dropStrand (w : World) (stack : List Nat) : World :=
  match stack.getLast? with
  | some i => w.tell i .dropped
  | none => w

end World

end Roundtable.Rehearsal

import Roundtable.Rehearsal.Job

/-!
# Exercises

Spawns tried out from the main thread: one or several missions in a row, an exercise
that is given up after a time, and exercises side by side.

A `Scene` is an exercise under way. Polling it polls its parts in their order, each as
far as it goes, so of parts that could go on at one time the first goes first.
-/

namespace Roundtable.Rehearsal

/-- What is tried out. -/
inductive Exercise
  /-- One spawn after the other. -/
  | spawns (specs : List SubAgentSpec)
  /-- Given up after `after` milliseconds; then `rest` milliseconds pass. -/
  | dropped (after rest : Nat) (inner : Exercise)
  | together (all : List Exercise)
deriving Inhabited

/-- What came of it. -/
inductive Reply
  | results (rs : List SubAgentResult)
  /-- A spawn broke off. -/
  | brokeOff (message : String)
  /-- It was over before it would have been given up. -/
  | completed (r : Reply)
  | dropped
  | together (rs : List Reply)

/-- An exercise under way. -/
inductive Scene
  /-- Spawns: those to come, the results so far, and the strand that is waited for. -/
  | spawns (rest : List SubAgentSpec) (done : List SubAgentResult) (stack : List Nat)
  | limited (deadline : Alarm) (rest : Nat) (inner : Scene)
  /-- Given up; time passes. -/
  | pausing (alarm : Alarm)
  | together (all : List Scene)
  | over (r : Reply)

namespace Scene

/-- The reply of a scene that is over. -/
def reply? : Scene → Option Reply
  | .over r => some r
  | spawns .. | limited .. | pausing _ | together _ => none

/-- The replies of scenes that are all over. -/
def replies? (scenes : List Scene) : Option (List Reply) := scenes.mapM reply?

mutual

/-- An exercise begins. -/
def begin (w : World) : Exercise → Scene × World
  | .spawns specs => (.spawns specs [] [], w)
  | .dropped after rest inner =>
    let (inner, w) := begin w inner
    let (deadline, w) := w.alarm after
    (.limited deadline rest inner, w)
  | .together all =>
    let (all, w) := beginEach w all
    (.together all, w)

/-- Exercises begin, one after the other. -/
def beginEach (w : World) : List Exercise → List Scene × World
  | [] => ([], w)
  | e :: rest =>
    let (s, w) := begin w e
    let (rest, w) := beginEach w rest
    (s :: rest, w)

end

mutual

/-- Every spawn of a scene is dropped. -/
def drop (w : World) : Scene → World
  | .spawns _ _ stack => w.dropStrand stack
  | .limited _ _ inner => drop w inner
  | .together all => dropEach w all
  | .pausing _ | .over _ => w

/-- Every spawn of some scenes is dropped. -/
def dropEach (w : World) : List Scene → World
  | [] => w
  | s :: rest => dropEach (drop w s) rest

end

/-- Spawns follow one another as far as they go. -/
def pollSpawns (fuel : Nat) (done : List SubAgentResult) :
    List SubAgentSpec → World → Scene × World
  | [], w => (.over (.results done), w)
  | spec :: rest, w =>
    let (i, w) := w.ask none spec
    match World.pollStrand fuel [i] w with
    | (.inl stack, w) => (.spawns rest done stack, w)
    | (.inr (.finished r), w) => pollSpawns fuel (done ++ [r]) rest w
    | (.inr (.brokeOff m), w) => (.over (.brokeOff m), w)

/-- A scene that is given up: time passes, if any is to. -/
def pause (rest : Nat) (w : World) : Scene × World :=
  let (a, w) := w.alarm rest
  (if w.isDue a then .over .dropped else .pausing a, w)

mutual

/-- **A scene goes as far as it can.** -/
def poll (fuel : Nat) (w : World) : Scene → Scene × World
  | .spawns rest done [] => pollSpawns fuel done rest w
  | .spawns rest done (i :: stack) =>
    match World.pollStrand fuel (i :: stack) w with
    | (.inl stack, w) => (.spawns rest done stack, w)
    | (.inr (.finished r), w) => pollSpawns fuel (done ++ [r]) rest w
    | (.inr (.brokeOff m), w) => (.over (.brokeOff m), w)
  | .limited deadline rest inner =>
    let (inner, w) := poll fuel w inner
    match inner.reply? with
    | some r => (.over (.completed r), w)
    | none =>
      if w.isDue deadline then pause rest (drop w inner) else (.limited deadline rest inner, w)
  | .pausing a => (if w.isDue a then .over .dropped else .pausing a, w)
  | .together all =>
    let (all, w) := pollEach fuel w all
    match replies? all with
    | some rs => (.over (.together rs), w)
    | none => (.together all, w)
  | .over r => (.over r, w)

/-- Scenes go as far as they can, one after the other. -/
def pollEach (fuel : Nat) (w : World) : List Scene → List Scene × World
  | [] => ([], w)
  | s :: rest =>
    let (s, w) := poll fuel w s
    let (rest, w) := pollEach fuel w rest
    (s :: rest, w)

end

mutual

/-- What a scene waits for. -/
def alarms (w : World) : Scene → List Alarm
  | .spawns _ _ stack => w.strandAlarms stack
  | .limited deadline _ inner => deadline :: alarms w inner
  | .pausing a => [a]
  | .together all => alarmsOfEach w all
  | .over _ => []

/-- What scenes wait for. -/
def alarmsOfEach (w : World) : List Scene → List Alarm
  | [] => []
  | s :: rest => alarms w s ++ alarmsOfEach w rest

end

/-- A scene as what a rehearsal waits for. -/
def lead (fuel : Nat) : Lead Scene :=
  { poll := fun s w => poll fuel w s
    isOver := fun s => s.reply?.isSome
    alarms }

end Scene

/-- **Plays an exercise**; there is a reply unless the steps run out or everything waits
forever. -/
def Exercise.play (e : Exercise) (fuel : Nat) (w : World) : Option Reply × World :=
  let (s, w) := Scene.begin w e
  let (s, w) := (Scene.lead fuel).play fuel s w
  (s.reply?, w)

end Roundtable.Rehearsal

import Roundtable.Spawn
import Roundtable.Text.Numeral

/-!
# Scripts

What a worker, a planner or a judge will do in a rehearsal, told beforehand. A worker's
script runs from the moment the factory is asked for it: how long creating it takes and
whether there will be a worker, how long it works, what it delegates, how its execution
ends, and how it closes.

A role may have several scripts; the first worker of the role plays the first, and the
last script serves all workers from then on (`Cast.script`). A role without a script has
the plain one.
-/

namespace Roundtable.Rehearsal

/-- A mission that a worker delegates. -/
structure Errand where
  role : String
  mission : String
  planning : Option PlanningOverride
  /-- The session that asks, where it is not the worker's own. -/
  caller : Option SessionId
deriving DecidableEq, Repr

/-- What comes of asking for the worker. -/
inductive ScriptedCreation
  | worker
  | refused (e : FactoryError)
  | brokeOff (message : String)
deriving DecidableEq, Repr

/-- How the execution ends once its waits and errands are behind it. -/
inductive ScriptedEnd
  | returned (success : Bool) (error : Option String)
  | raised (e : ExecutionError)
  | brokeOff (message : Option String)
deriving DecidableEq, Repr

/-- What comes of closing the worker. -/
inductive ScriptedClose
  | closed
  | refused (e : TeardownError)
  | brokeOff (message : String)
deriving DecidableEq, Repr

/-- What a worker will do. Delays are in milliseconds. -/
structure Script where
  createDelay : Nat
  creation : ScriptedCreation
  delay : Nat
  /-- The output, with places for what is known when the worker executes. -/
  output : String
  /-- A topic that is taken from the shared queue after the delay. -/
  removes : Option String
  /-- What is delegated after that, one after the other. -/
  errands : List Errand
  ending : ScriptedEnd
  closeDelay : Nat
  closing : ScriptedClose
deriving DecidableEq, Repr

namespace Script

/-- A place in an output. -/
def place (name : String) : String := "\x7b" ++ name ++ "\x7d"

/-- Role, mission and budget. -/
def plainOutput : String :=
  place "role" ++ "|" ++ place "mission" ++ "|" ++ place "timeout_ms"

/-- A worker that succeeds at once. -/
def plain : Script :=
  { createDelay := 0, creation := .worker, delay := 0, output := plainOutput, removes := none
    errands := [], ending := .returned true none, closeDelay := 0, closing := .closed }

instance : Inhabited Script := ⟨plain⟩

/-- The output for a spawn. Places are filled one kind after the other, also in what was
filled in before. -/
def fill (template : String) (s : Spawn) : String :=
  [("role", s.spec.role), ("session", s.session.text), ("timeout_ms", decimal s.budget.millis),
    ("mission", s.spec.mission)].foldl
    (fun text (name, value) => Text.replace (place name) value text) template

/-- How the execution of a worker with this output ends. -/
def executionEnd (s : Script) (output : String) : ExecutionEnd :=
  match s.ending with
  | .returned success error => .returned ⟨output, success, error⟩
  | .raised e => .raised e
  | .brokeOff m => .brokeOff m

end Script

/-- The scripts of each role. -/
structure Cast where
  roles : List (String × List Script)
deriving Repr, Inhabited

/-- The script of a role's worker, when `before` workers of the role were asked for. -/
def Cast.script (c : Cast) (role : String) (before : Nat) : Script :=
  let scripts := (c.roles.lookup role).getD []
  (scripts[before]?).getD (scripts.getLastD .plain)

/-- An answer of a planner or a judge, and the time it takes. -/
structure Line (α : Type) where
  delay : Nat
  answer : Except CapabilityError α

end Roundtable.Rehearsal

import Roundtable.Session

/-!
# Run ids

A run's id is the name of its directory in the store, the root of all its sessions
and the first part of its queue topic. So an id that could leave the directory, that
listing would skip or that blanks would break apart is refused when the id is made,
and **a value of `RunId` is a checked id**: the check is a field of the type.
-/

namespace Roundtable

/-- Why a text is no run id. -/
inductive RunIdFault
  | empty
  | pathLike (id : String)
  | blank (id : String)
  | hidden (id : String)
deriving DecidableEq, Repr

/-- The fault in words. -/
def RunIdFault.message : RunIdFault → String
  | .empty => "Run id must not be empty"
  | .pathLike id => s!"Run id '{id}' contains a path separator or parent reference"
  | .blank id => s!"Run id '{id}' contains whitespace"
  | .hidden id => s!"Run id '{id}' must not start with '.'"

/-- Two dots in a row. -/
def hasParentReference : List Char → Bool
  | '.' :: '.' :: _ => true
  | _ :: r => hasParentReference r
  | [] => false

/-- The first of the four faults that the text has. -/
def RunIdFault.of? (id : String) : Option RunIdFault :=
  let cs := id.toList
  if cs.isEmpty then some .empty
  else if cs.contains '/' || cs.contains '\\' || hasParentReference cs then some (.pathLike id)
  else if cs.any isBlank then some (.blank id)
  else if cs.head? = some '.' then some (.hidden id)
  else none

/-- The id of a run: a text without fault. -/
structure RunId where
  text : String
  sound : RunIdFault.of? text = none
deriving DecidableEq

namespace RunId

instance : Inhabited RunId := ⟨"run", by decide +kernel⟩

instance : Repr RunId := ⟨fun id n => reprPrec id.text n⟩

/-- Checks a text. -/
def ofText (id : String) : Except RunIdFault RunId :=
  match h : RunIdFault.of? id with
  | some fault => .error fault
  | none => .ok ⟨id, h⟩

/-- The queue topic that carries the run's tasks. -/
def topic (r : RunId) : String := r.text ++ ".tasks"

/-- The session all sessions of the run descend from. -/
def rootSession (r : RunId) : SessionId := ⟨r.text⟩

end RunId

end Roundtable

import Roundtable.File.Path

/-!
# Trees of files

A file system small enough to reason about: directories and files of text under one
root, and a working directory. There are no links and no permissions. What can go wrong
is what `OsError` names, in the order in which a walk along a path meets it.
-/

namespace Roundtable

/-- Why the system refused. -/
inductive OsError
  | noEntry
  | exists
  | notDirectory
  | isDirectory
  | nameTooLong
  /-- The path holds a null character. -/
  | badName
  | other (text : String)
deriving DecidableEq, Repr

/-- The error in the system's words. -/
def OsError.message : OsError → String
  | noEntry => "No such file or directory (os error 2)"
  | «exists» => "File exists (os error 17)"
  | notDirectory => "Not a directory (os error 20)"
  | isDirectory => "Is a directory (os error 21)"
  | nameTooLong => "File name too long (os error 36)"
  | badName => "file name contained an unexpected NUL byte"
  | other text => text

/-- What stands at a path. A file holds a text, character by character; one whose bytes are no
text is not among them. -/
inductive FileNode
  | directory
  | file (text : String)
deriving DecidableEq, Repr, Inhabited

/-- A tree of files: what stands at each path below the root, and the working
directory. -/
structure FileTree where
  entries : List (List String × FileNode)
  workingDirectory : List String
deriving Repr, Inhabited

namespace FileTree

/-- The root alone. -/
def empty : FileTree := ⟨[], []⟩

/-- What stands at a path of parts; the root is a directory. -/
def lookup (t : FileTree) (parts : List String) : Option FileNode :=
  if parts.isEmpty then some .directory else t.entries.lookup parts

/-- Puts a node in its place. -/
def set (t : FileTree) (parts : List String) (n : FileNode) : FileTree :=
  { t with entries := t.entries.filter (·.1 != parts) ++ [(parts, n)] }

/-- Takes away what stands at a path and below it. -/
def erase (t : FileTree) (parts : List String) : FileTree :=
  { t with entries := t.entries.filter fun (p, _) => !parts.isPrefixOf p }

/-- The longest name, in bytes. -/
def longestName : Nat := 255

/-- The longest path, in bytes. -/
def longestPath : Nat := 4095

/-- The place to walk from. -/
def origin (t : FileTree) (path : String) : List String :=
  if Path.isAbsolute path then [] else t.workingDirectory

/-- Refuses paths no walk can begin with. -/
def checkPath (path : String) : Except OsError Unit :=
  if path.toList.contains '\x00' then .error .badName
  else if path.isEmpty then .error .noEntry
  else if longestPath < path.utf8ByteSize then .error .nameTooLong
  else .ok ()

/-- One part further from a directory. -/
def stepTo (here : List String) (part : String) : Except OsError (List String) :=
  if part == "." then .ok here
  else if part == ".." then .ok here.dropLast
  else if longestName < part.utf8ByteSize then .error .nameTooLong
  else .ok (here ++ [part])

/-- Walks along the parts; all but the last must lead to directories. -/
def walk (t : FileTree) (here : List String) : List String → Except OsError (List String)
  | [] => .ok here
  | part :: r =>
    match t.lookup here with
    | none => .error .noEntry
    | some (.file _) => .error .notDirectory
    | some .directory => do walk t (← stepTo here part) r

/-- The place a path leads to; nothing need stand there. -/
def resolve (t : FileTree) (path : String) : Except OsError (List String) := do
  checkPath path
  t.walk (t.origin path) (Path.parts path)

/-- Something stands at the path. -/
def «exists» (t : FileTree) (path : String) : Bool :=
  match t.resolve path with
  | .ok place => (t.lookup place).isSome
  | .error _ => false

/-- The text of a file. -/
def read (t : FileTree) (path : String) : Except OsError String := do
  match t.lookup (← t.resolve path) with
  | some (.file text) => .ok text
  | some .directory => .error .isDirectory
  | none => .error .noEntry

/-- The names in a directory, each with whether it is a directory. -/
def list (t : FileTree) (path : String) : Except OsError (List (String × Bool)) := do
  let place ← t.resolve path
  match t.lookup place with
  | some .directory =>
    .ok (t.entries.filterMap fun (p, n) =>
      match p.getLast? with
      | some name => if p.dropLast = place then some (name, n == .directory) else none
      | none => none)
  | some (.file _) => .error .notDirectory
  | none => .error .noEntry

/-- Walks along the parts and makes the directories that are not there. What was made
before an error stays. -/
def makeAlong (t : FileTree) (here : List String) : List String → Except OsError Unit × FileTree
  | [] => (.ok (), t)
  | part :: r =>
    match stepTo here part with
    | .error e => (.error e, t)
    | .ok next =>
      match t.lookup next with
      | some .directory => makeAlong t next r
      | some (.file _) => (.error (if r.isEmpty then .exists else .notDirectory), t)
      | none => makeAlong (t.set next .directory) next r

/-- Makes a directory and those above it. -/
def makeDirs (t : FileTree) (path : String) : Except OsError Unit × FileTree :=
  if path.isEmpty then (.ok (), t)
  else
    match checkPath path with
    | .error e => (.error e, t)
    | .ok () => t.makeAlong (t.origin path) (Path.parts path)

/-- Makes an empty file where nothing stands. -/
def createNew (t : FileTree) (path : String) : Except OsError Unit × FileTree :=
  match t.resolve path with
  | .error e => (.error e, t)
  | .ok place =>
    match t.lookup place, t.lookup place.dropLast with
    | some _, _ => (.error .exists, t)
    | none, some .directory => (.ok (), t.set place (.file ""))
    | none, some (.file _) => (.error .notDirectory, t)
    | none, none => (.error .noEntry, t)

/-- Writes the text of a file, which need not be there. -/
def write (t : FileTree) (path text : String) : Except OsError Unit × FileTree :=
  match t.resolve path with
  | .error e => (.error e, t)
  | .ok place =>
    match t.lookup place, t.lookup place.dropLast with
    | some .directory, _ => (.error .isDirectory, t)
    | some (.file _), _ | none, some .directory => (.ok (), t.set place (.file text))
    | none, some (.file _) => (.error .notDirectory, t)
    | none, none => (.error .noEntry, t)

/-- Takes away what stands at a path. -/
def remove (t : FileTree) (path : String) : Except OsError Unit × FileTree :=
  match t.resolve path with
  | .error e => (.error e, t)
  | .ok place =>
    match t.lookup place with
    | some _ => (.ok (), t.erase place)
    | none => (.error .noEntry, t)

end FileTree

end Roundtable

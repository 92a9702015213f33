import Roundtable.File.Program
import Roundtable.Json.Printer
import Roundtable.Store.Record

/-!
# Records in a directory

A store of files: below the base directory one directory for each run, named by its id,
and in it one file for each round, named by its number on at least four places. The
system itself refuses to make a file twice, and that is what keeps a record from being
written again.

Every operation is a `FileProgram`, so each of its steps can be looked at.
-/

namespace Roundtable

/-- A store of files below a base directory. -/
structure DirectoryStore where
  base : String
deriving DecidableEq, Repr

namespace DirectoryStore

/-! ### Names -/

/-- What names of records start with. -/
def nameStart : List Char := "round-".toList

/-- What names of records end with. -/
def nameEnd : List Char := ".json".toList

/-- The name of a record's file. -/
def fileName (round : Nat) : String :=
  String.ofList (nameStart ++ Numeral.padded 4 round ++ nameEnd)

/-- The round a file name tells, if it is the name of a record. -/
def roundOf? (name : String) : Option Nat :=
  let cs := name.toList
  if Text.startsWith nameStart cs then
    let rest := cs.drop nameStart.length
    if nameEnd.length ≤ rest.length && rest.drop (rest.length - nameEnd.length) == nameEnd then
      Numeral.below? (2 ^ 32) (rest.take (rest.length - nameEnd.length))
    else none
  else none

/-- The directory of a run. -/
def runPath (s : DirectoryStore) (run : RunId) : String := Path.join s.base run.text

/-- The file of a record. -/
def recordPath (s : DirectoryStore) (run : RunId) (round : Nat) : String :=
  Path.join (s.runPath run) (fileName round)

/-- The text of a record's file. -/
def recordText (r : RoundRecord) : String := r.toJson.page

/-- Reads the text of a record's file. -/
def recordOf (text : String) : Except StoreError RoundRecord :=
  match Json.decode RoundRecord.decoder text with
  | .ok r => .ok r
  | .error f => .error (.serialization f.message)

/-! ### Operations -/

/-- Opens a store; its base directory is made if need be. -/
def «open» (base : String) : FileProgram (Except StoreError DirectoryStore) := do
  match ← FileProgram.op (.makeDirs base) with
  | .ok () => return .ok ⟨base⟩
  | .error e =>
    return .error (.io s!"Failed to create storage directory {base}: {e.message}")

/-- **Records a round**: makes the directory of the run, makes the file, writes it and
waits until it is kept. A file that could not be written is taken away again. -/
def persist (s : DirectoryStore) (run : RunId) (round : Nat) (state : RunState)
    (now : Instant) : FileProgram (Except StoreError Unit) := do
  let path := s.recordPath run round
  match ← FileProgram.op (.makeDirs (s.runPath run)) with
  | .error e => return .error (.ofOs e)
  | .ok () =>
    match ← FileProgram.op (.createNew path) with
    | .error .exists => return .error (.alreadyExists run round)
    | .error e => return .error (.ofOs e)
    | .ok () =>
      match ← FileProgram.op (.write path (recordText ⟨run, round, now, state⟩)) with
      | .error e =>
        let _ ← FileProgram.op (.remove path)
        return .error (.ofOs e)
      | .ok () =>
        match ← FileProgram.op (.sync path) with
        | .error e => return .error (.ofOs e)
        | .ok () => return .ok ()

/-- The names of records among the names of a directory, by round. -/
def recordNames (entries : List (String × Bool)) : List (Nat × String) :=
  (entries.filterMap fun (name, _) => (roundOf? name).map fun round => (round, name)).mergeSort
    fun a b => a.1 ≤ b.1

/-- Reads files one after the other, up to the first that cannot be read. -/
def readEach (dir : String) : List (Nat × String) →
    FileProgram (Except StoreError (List RoundRecord))
  | [] => return .ok []
  | (_, name) :: rest => do
    match ← FileProgram.op (.read (Path.join dir name)) with
    | .error e => return .error (.ofOs e)
    | .ok text =>
      match recordOf text with
      | .error e => return .error e
      | .ok r =>
        match ← readEach dir rest with
        | .error e => return .error e
        | .ok rs => return .ok (r :: rs)

/-- **The records of a run**, the first round first. A run without a directory has
none. -/
def history (s : DirectoryStore) (run : RunId) :
    FileProgram (Except StoreError (List RoundRecord)) := do
  let dir := s.runPath run
  match ← FileProgram.op (.list dir) with
  | .error .noEntry => return .ok []
  | .error e => return .error (.ofOs e)
  | .ok entries => readEach dir (recordNames entries)

/-- The state of the last round recorded. -/
def load (s : DirectoryStore) (run : RunId) :
    FileProgram (Except StoreError (Option RunState)) := do
  let records ← s.history run
  return records.map fun rs => rs.getLast?.map (·.state)

/-- The directories that are named like runs, in the order of their names. -/
def listRuns (s : DirectoryStore) : FileProgram (Except StoreError (List RunId)) := do
  match ← FileProgram.op (.list s.base) with
  | .error e => return .error (.ofOs e)
  | .ok entries =>
    let ids := entries.filterMap fun (name, isDirectory) =>
      if isDirectory then (RunId.ofText name).toOption else none
    return .ok (ids.mergeSort fun a b => !(b.text < a.text))

end DirectoryStore

end Roundtable

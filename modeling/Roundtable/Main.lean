import Roundtable.Console.Process

/-!
The program on a real system: performs the operations of its `FileProgram` one after the
other and passes on what it wrote and its exit code.
-/

namespace Roundtable

/-- The error of a failed operation. -/
def OsError.ofIO : IO.Error → OsError
  | .noFileOrDirectory .. => .noEntry
  | .alreadyExists .. => .exists
  | e => .other (toString e)

/-- Performs an action and keeps its error as an answer. -/
def attempt {α : Type} (act : IO α) : IO (Except OsError α) := do
  try return .ok (← act) catch e => return .error (.ofIO e)

/-- Performs one operation. -/
def FileOp.performIO : (op : FileOp) → IO (Except OsError op.Answer)
  | .makeDirs path => attempt (IO.FS.createDirAll path)
  | .createNew path => attempt do let _ ← IO.FS.Handle.mk path .writeNew
  | .write path text => attempt (IO.FS.writeFile path text)
  | .sync path => attempt do (← IO.FS.Handle.mk path .append).flush
  | .remove path => attempt (IO.FS.removeFile path)
  | .list path => do
    match ← attempt (do (← IO.FS.realPath path).readDir) with
    | .error e => return .error e
    | .ok entries =>
      let names ← entries.mapM fun entry => do return (entry.fileName, ← entry.path.isDir)
      return .ok names.toList
  | .read path => attempt (IO.FS.readFile path)
  | .exists path => do return .ok (← attempt (IO.FS.realPath path)).toBool

/-- Runs a program. -/
def FileProgram.runIO {α : Type} : FileProgram α → IO α
  | .done a => return a
  | .perform op next => do (next (← op.performIO)).runIO

/-- The variables the program looks at. -/
def watchedVariables : List String :=
  ["CONCLAVE_CONFIG_PATH", "CONCLAVE_LOG_LEVEL", "CONCLAVE_LOG_FORMAT", "CONCLAVE_WORKER_COUNT",
    "CONCLAVE_MAX_ROUNDS", "CONCLAVE_SUBAGENT_TIMEOUT", "CONCLAVE_STORAGE_PATH", "RUST_LOG",
    "CLICOLOR", "CLICOLOR_FORCE", "NO_COLOR"]

/-- The environment of this process. The home directory is the one its variable names, if it
names one. -/
def Environment.current : IO Environment := do
  let home := (← IO.getEnv "HOME").filter (· ≠ "")
  let values ← watchedVariables.mapM fun name => do
    return (← IO.getEnv name).map fun value => (name, value)
  return ⟨home, values.filterMap id⟩

end Roundtable

open Roundtable in
/-- Runs the program on its arguments. -/
def main (args : List String) : IO UInt32 := do
  let env ← Environment.current
  let output ← IO.getStdout
  let errors ← IO.getStderr
  let ending ← (Console.process env (Console.wantsColour env (← output.isTty))
    (Console.wantsColour env (← errors.isTty)) args).runIO
  output.putStr ending.output
  output.flush
  errors.putStr ending.errors
  return ending.code.toUInt32

import Roundtable.Environment
import Roundtable.File.Program
import Roundtable.Manifest.Format
import Roundtable.Text.Quoted

/-!
# Finding a manifest

A manifest is read from the file that was asked for, or from the first of some well known
places that is there; where none is, the standard one holds. In the end four variables of
the environment have the last word (`Manifest.override`), **each over its own setting
alone**; what a variable says counts only if it can be read.
-/

namespace Roundtable

namespace Manifest

/-! ### Variables -/

/-- The value a variable gives, or the one that was there. -/
def overriding {α : Type} (env : Environment) (name : String) (read : String → Option α) (old : α) :
    α :=
  ((env.lookup name).bind read).getD old

/-- **The manifest with what the environment says over it.** -/
def override (env : Environment) (m : Manifest) : Manifest :=
  let s := m.settings
  let number (limit : Nat) (t : String) : Option Nat := Numeral.below? limit t.toList
  { m with settings := { s with
      rounds := {
        workers := overriding env "CONCLAVE_WORKER_COUNT" (number (2 ^ 64)) s.rounds.workers
        maxRounds := overriding env "CONCLAVE_MAX_ROUNDS" (number (2 ^ 32)) s.rounds.maxRounds }
      timeout := overriding env "CONCLAVE_SUBAGENT_TIMEOUT" Span.ofText? s.timeout
      storage := { s.storage with
        path := overriding env "CONCLAVE_STORAGE_PATH" some s.storage.path } } }

/-! ### Places -/

/-- The variable that names a manifest file. -/
def pathVariable : String := "CONCLAVE_CONFIG_PATH"

/-- Where a manifest is looked for, the first place first. One of the places is below the home
directory, where there is one. -/
def places (env : Environment) : List String :=
  (env.lookup pathVariable).toList ++ ["./conclave-config.yaml"] ++
    (env.home.map fun home => Path.join (Path.join home ".conclave") "config.yaml").toList ++
    ["/etc/conclave/config.yaml"]

/-- The first of some places where something stands. -/
def firstThere : List String → FileProgram (Option String)
  | [] => return none
  | path :: rest => do
    match ← FileProgram.op (.exists path) with
    | .ok true => return some path
    | _ => firstThere rest

/-- The place a manifest is found at. -/
def discover (env : Environment) : FileProgram (Option String) := firstThere (places env)

end Manifest

/-! ### Loading -/

/-- Why a manifest could not be loaded. -/
inductive LoadCause
  | os (e : OsError)
  | unreadable
deriving DecidableEq, Repr

/-- A failed load: the path, if it was asked for, and the cause. -/
structure LoadError where
  asked : Option String
  cause : LoadCause
deriving DecidableEq, Repr

/-- The cause in words. -/
def LoadCause.message : LoadCause → String
  | os e => e.message
  | unreadable => "the text is not a manifest"

/-- The error in words. -/
def LoadError.message (e : LoadError) : String :=
  match e.asked with
  | some path => s!"Failed to load config at {Text.quoted path}: {e.cause.message}"
  | none => e.cause.message

namespace Manifest

/-- Reads a manifest file. -/
def readFile (home : Option String) (path : String) :
    FileProgram (Except LoadCause Manifest) := do
  match ← FileProgram.op (.read path) with
  | .error e => return .error (.os e)
  | .ok text =>
    match ofYamlText? home text with
    | some m => return .ok m
    | none => return .error .unreadable

/-- Writes a manifest file. -/
def writeFile (path : String) (m : Manifest) : FileProgram (Except OsError Unit) :=
  FileProgram.op (.write path m.yamlText)

/-- **Loads the manifest** that was asked for, or finds one, and lets the environment
override it. -/
def load (env : Environment) (asked : Option String) :
    FileProgram (Except LoadError Manifest) := do
  let loaded : Except LoadError Manifest ←
    match asked with
    | some path => do
      let m ← readFile env.home path
      pure (m.mapError fun cause => ⟨some path, cause⟩)
    | none => do
      match ← discover env with
      | some path => do
        let m ← readFile env.home path
        pure (m.mapError fun cause => ⟨none, cause⟩)
      | none => pure (.ok (standard env.home))
  return loaded.map (override env)

end Manifest

end Roundtable

import Roundtable.Console.Report
import Roundtable.Console.Sample
import Roundtable.Manifest.Loading
import Roundtable.Store.Directory

/-!
# Commands

What an operator can ask for: to see, check or write a manifest, and to see recorded runs.
A command is a program on files that prints as it goes; **what it printed before it failed
stays printed**. A failure is a list of texts, from what was being done down to why it
could not be.
-/

namespace Roundtable.Console

/-- A command with its arguments. -/
inductive Command
  | showConfig (paths : Bool)
  | validateConfig (file : Option String)
  | generateConfig (output : String) (commented : Bool)
  | listRuns
  | showRun (id : String) (history json : Bool)
deriving DecidableEq, Repr

/-- What a command printed, and why it failed if it did. -/
structure Outcome where
  output : String
  failure : Option (List String)
deriving DecidableEq, Repr

/-- A command that did its work. -/
def Outcome.ok (output : String) : Outcome := ⟨output, none⟩

/-- A command that failed after it printed something. -/
def Outcome.failed (output : String) (chain : List String) : Outcome := ⟨output, some chain⟩

/-- What the command is run with: the environment, whether its output is coloured, and the
manifest that was asked for. -/
structure Setting where
  env : Environment
  coloured : Bool
  config : Option String

/-- Loads a manifest for a command that printed `before`. -/
def withManifest (s : Setting) (asked : Option String) (before : String)
    (next : Manifest → FileProgram Outcome) : FileProgram Outcome := do
  match ← Manifest.load s.env asked with
  | .error e => return .failed before ["Failed to load configuration", e.message]
  | .ok m => next m

/-! ### Manifests -/

/-- What stands for a value that is not set. -/
def notSet : String := "(not set)"

/-- Where manifests are looked for. -/
def placesReport (s : Setting) : String :=
  let dim := Style.dimmed.paint s.coloured
  Style.bold.paint s.coloured "Configuration discovery paths:" ++ "\n" ++
    "  1. --config flag: " ++ s.config.getD (dim notSet) ++ "\n" ++
    "  2. " ++ Manifest.pathVariable ++ ": " ++
      dim ((s.env.lookup Manifest.pathVariable).getD notSet) ++ "\n" ++
    "  3. ./conclave-config.yaml\n" ++
    "  4. ~/.conclave/config.yaml\n" ++
    "  5. /etc/conclave/config.yaml\n\n"

/-- Shows the settings in effect. -/
def showConfig (s : Setting) (paths : Bool) : FileProgram Outcome :=
  withManifest s s.config "" fun m =>
    return .ok ((if paths then placesReport s else "") ++
      Style.bold.paint s.coloured "Current configuration:" ++ "\n\n" ++ m.summary s.coloured)

/-- Checks a manifest. -/
def validateConfig (s : Setting) (file : Option String) : FileProgram Outcome :=
  let before := "Validating configuration...\n"
  withManifest s (file.or s.config) before fun m =>
    match m.fault? with
    | some fault => return .failed before ["Configuration validation failed", fault.message]
    | none =>
      return .ok (before ++ Style.green.paint s.coloured "✓ Configuration is valid" ++ "\n")

/-- Writes a sample manifest. -/
def generateConfig (s : Setting) (output : String) (commented : Bool) : FileProgram Outcome := do
  match ← FileProgram.op (.write output (if commented then commentedSample else briefSample)) with
  | .error e => return .failed "" ["Failed to write config to " ++ Text.quoted output, e.message]
  | .ok () =>
    return .ok (Style.green.paint s.coloured ("✓ Configuration generated: " ++ output) ++ "\n")

/-! ### Runs -/

/-- Opens the store of the manifest; runs in memory are never there to be seen. -/
def withStore (s : Setting) (next : DirectoryStore → FileProgram Outcome) :
    FileProgram Outcome :=
  withManifest s s.config "" fun m => do
    let storage := m.settings.storage
    match storage.kind with
    | .memory =>
      return .ok (Style.yellow.paint s.coloured
        "Storage backend is 'memory'; no runs are kept between processes." ++ "\n")
    | .file =>
      let path := storage.resolvedPath s.env.home
      match ← DirectoryStore.open path with
      | .error e => return .failed "" ["Failed to open run store at " ++ path, e.message]
      | .ok store => next store

/-- The line of a run in the list. -/
def runLine (s : Setting) (run : RunId) : Except StoreError (Option RunState) → String
  | .ok (some state) => state.line s.coloured
  | .ok none => run.text ++ " " ++ Style.dimmed.paint s.coloured "(no rounds)"
  | .error e => run.text ++ " " ++ Style.red.paint s.coloured ("unreadable: " ++ e.message)

/-- The lines of some runs. -/
def runLines (s : Setting) (store : DirectoryStore) : List RunId → FileProgram String
  | [] => return ""
  | run :: rest => do
    let state ← store.load run
    return runLine s run state ++ "\n" ++ (← runLines s store rest)

/-- Lists the recorded runs. -/
def listRuns (s : Setting) : FileProgram Outcome :=
  withStore s fun store => do
    match ← store.listRuns with
    | .error e => return .failed "" ["Failed to list runs", e.message]
    | .ok [] => return .ok ("No runs recorded in " ++ store.base ++ "\n")
    | .ok runs =>
      let head := Style.bold.paint s.coloured (listLine "RUN ID" "STATUS" "ROUND" "MISSION")
      return .ok (head ++ "\n" ++ (← runLines s store runs))

/-- The failure of a run that has no record. -/
def notFound (run : RunId) : Outcome := .failed "" ["Run " ++ run.text ++ " not found"]

/-- Shows every recorded round of a run. -/
def showHistory (s : Setting) (store : DirectoryStore) (run : RunId) (json : Bool) :
    FileProgram Outcome := do
  match ← store.history run with
  | .error e => return .failed "" ["Failed to read run history", e.message]
  | .ok [] => return notFound run
  | .ok records =>
    if json then return .ok ((Json.array (records.map RoundRecord.toJson)).page ++ "\n")
    else return .ok (String.join (records.map (·.line s.coloured)))

/-- Shows the latest state of a run. -/
def showLatest (s : Setting) (store : DirectoryStore) (run : RunId) (json : Bool) :
    FileProgram Outcome := do
  match ← store.load run with
  | .error e => return .failed "" ["Failed to load run", e.message]
  | .ok none => return notFound run
  | .ok (some state) =>
    if json then return .ok (state.toJson.page ++ "\n") else return .ok (state.report s.coloured)

/-- Shows a run. -/
def showRun (s : Setting) (id : String) (history json : Bool) : FileProgram Outcome :=
  withStore s fun store =>
    match RunId.ofText id with
    | .error fault => return .failed "" ["Invalid run id", fault.message]
    | .ok run => if history then showHistory s store run json else showLatest s store run json

/-- **Runs a command.** -/
def Command.run (s : Setting) : Command → FileProgram Outcome
  | .showConfig paths => Console.showConfig s paths
  | .validateConfig file => Console.validateConfig s file
  | .generateConfig output commented => Console.generateConfig s output commented
  | .listRuns => Console.listRuns s
  | .showRun id history json => Console.showRun s id history json

end Roundtable.Console

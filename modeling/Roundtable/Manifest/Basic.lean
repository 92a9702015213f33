import Roundtable.File.Path
import Roundtable.Text.Blank
import Roundtable.Time.Span

/-!
# Manifests

How an orchestrator is set up: the size of its pool and the limit on its rounds, the
budget of a worker, the buffer of the event bus, where rounds are recorded, and how the
process logs. **Every setting has a standard value**, so a manifest says only what
differs; where runs are recorded by standard depends on the home directory, and on whether there
is one.
-/

namespace Roundtable

/-- Where rounds are recorded. -/
inductive StorageKind
  | memory
  | file
deriving DecidableEq, Repr, Inhabited

namespace StorageKind

/-- The name in manifests. -/
def name : StorageKind → String
  | memory => "memory"
  | file => "file"

/-- The kind a name stands for. -/
def ofName? (s : String) : Option StorageKind := [memory, file].find? (·.name == s)

end StorageKind

/-- How rounds are run. -/
structure RoundSettings where
  /-- The workers of each round's pool. -/
  workers : Nat
  /-- The greatest number of rounds of a run. -/
  maxRounds : Nat
deriving DecidableEq, Repr, Inhabited

/-- How runs are kept. -/
structure StorageSettings where
  kind : StorageKind
  /-- The directory of the records, for the kind that uses files. -/
  path : String
deriving DecidableEq, Repr, Inhabited

/-- How the process logs. -/
structure LogPreferences where
  level : String
  format : String
deriving DecidableEq, Repr, Inhabited

/-- All settings. -/
structure Settings where
  rounds : RoundSettings
  /-- The budget of a delegation that has none of its own. -/
  timeout : Span
  /-- The events kept for slow subscribers. -/
  capacity : Nat
  storage : StorageSettings
  logging : LogPreferences
deriving DecidableEq, Repr, Inhabited

/-- What a manifest says about itself. Labels stand in the order of their names. -/
structure Metadata where
  name : String
  version : Option String
  labels : Option (List (String × String))
deriving DecidableEq, Repr, Inhabited

/-- A manifest. -/
structure Manifest where
  apiVersion : String
  kind : String
  metadata : Metadata
  settings : Settings
deriving DecidableEq, Repr, Inhabited

/-! ### Standard values -/

/-- Four workers, three rounds. -/
def RoundSettings.standard : RoundSettings := ⟨4, 3⟩

/-- Files below the home directory; without one, below the directory the process works in. -/
def StorageSettings.standard (home : Option String) : StorageSettings :=
  ⟨.file, (home.map fun home => Path.join (Path.join home ".conclave") "runs").getD
    ".conclave/runs"⟩

/-- Messages of level `info`, one in a line. -/
def LogPreferences.standard : LogPreferences := ⟨"info", "compact"⟩

namespace Settings

/-- Ten minutes. -/
def standardTimeout : Span := .ofSeconds 600

/-- A thousand and twenty-four events. -/
def standardCapacity : Nat := 1024

/-- The settings of a manifest that says nothing. -/
def standard (home : Option String) : Settings :=
  ⟨.standard, standardTimeout, standardCapacity, .standard home, .standard⟩

end Settings

namespace Manifest

/-- The version every manifest must have. -/
def requiredVersion : String := "conclave.dev/v1"

/-- The kind every manifest must have. -/
def requiredKind : String := "OrchestratorConfig"

/-- The manifest where none was found. -/
def standard (home : Option String) : Manifest :=
  ⟨requiredVersion, requiredKind, ⟨"conclave", some "1.0.0", none⟩, .standard home⟩

end Manifest

/-! ### Where rounds are kept -/

/-- The directory of the records, with the home directory in place of a tilde. Where there is no
home directory the tilde stays. -/
def StorageSettings.resolvedPath (s : StorageSettings) (home : Option String) : String :=
  match Path.belowHome? s.path, home with
  | some rest, some home => Path.join home rest
  | some _, none | none, _ => s.path

/-! ### Validity -/

/-- Why a manifest is not valid. -/
inductive ManifestFault
  | apiVersion (found : String)
  | kind (found : String)
  | noName
  | noWorkers
  | noRounds
  | noTimeout
  | noCapacity
  | logFormat (found : String)
deriving DecidableEq, Repr

/-- The fault in words. -/
def ManifestFault.message : ManifestFault → String
  | apiVersion found => s!"Invalid apiVersion: '{found}'. Must be '{Manifest.requiredVersion}'"
  | kind found => s!"Invalid kind: '{found}'. Must be '{Manifest.requiredKind}'"
  | noName => "metadata.name must not be empty"
  | noWorkers => "spec.orchestrator.worker_count must be at least 1"
  | noRounds => "spec.orchestrator.max_rounds must be at least 1"
  | noTimeout => "spec.subagent.default_timeout must be greater than zero"
  | noCapacity => "spec.event_bus.capacity must be at least 1"
  | logFormat found =>
    s!"Invalid observability.log_format: '{found}'. Expected 'compact' or 'json'"

/-- The formats of log messages. -/
def LogPreferences.formats : List String := ["compact", "json"]

/-- **The first fault of a manifest**; a valid one has none. -/
def Manifest.fault? (m : Manifest) : Option ManifestFault :=
  let s := m.settings
  if m.apiVersion ≠ requiredVersion then some (.apiVersion m.apiVersion)
  else if m.kind ≠ requiredKind then some (.kind m.kind)
  else if isBlankText m.metadata.name then some .noName
  else if s.rounds.workers = 0 then some .noWorkers
  else if s.rounds.maxRounds = 0 then some .noRounds
  else if s.timeout.isZero then some .noTimeout
  else if s.capacity = 0 then some .noCapacity
  else if !LogPreferences.formats.contains s.logging.format then
    some (.logFormat s.logging.format)
  else none

end Roundtable

import Roundtable.Manifest.Basic
import Roundtable.SubAgent
import Roundtable.Yaml.Decoder
import Roundtable.Yaml.Printer

/-!
# Manifests as texts

The sections and names of a manifest, for both formats. A manifest file is YAML; JSON is
read as well. Every section below `spec` may be missing, and so may each of its fields.
-/

namespace Roundtable

/-! ### YAML -/

section YamlReaders

open Yaml Yaml.Decoder

/-- Reads the section of the rounds. -/
def RoundSettings.ofYaml : Yaml.Decoder RoundSettings :=
  record .standard
    [.defaulted "worker_count" (natBelow (2 ^ 64)) fun x s => { s with workers := x },
      .defaulted "max_rounds" (natBelow (2 ^ 32)) fun x s => { s with maxRounds := x }]

/-- Reads the section of the storage. -/
def StorageSettings.ofYaml (home : Option String) : Yaml.Decoder StorageSettings :=
  record (.standard home)
    [.defaulted "backend" (name StorageKind.ofName?) fun x s => { s with kind := x },
      .defaulted "path" text fun x s => { s with path := x }]

/-- Reads the section of the log. -/
def LogPreferences.ofYaml : Yaml.Decoder LogPreferences :=
  record .standard
    [.defaulted "log_level" text fun x s => { s with level := x },
      .defaulted "log_format" text fun x s => { s with format := x }]

/-- Reads the settings. -/
def Settings.ofYaml (home : Option String) : Yaml.Decoder Settings :=
  let timeout := record standardTimeout
    [.defaulted "default_timeout" (check text Span.ofText?) fun x _ => x]
  let capacity := record standardCapacity
    [.defaulted "capacity" (natBelow (2 ^ 64)) fun x _ => x]
  record (.standard home)
    [.defaulted "orchestrator" RoundSettings.ofYaml fun x s => { s with rounds := x },
      .defaulted "subagent" timeout fun x s => { s with timeout := x },
      .defaulted "event_bus" capacity fun x s => { s with capacity := x },
      .defaulted "storage" (StorageSettings.ofYaml home) fun x s => { s with storage := x },
      .defaulted "observability" LogPreferences.ofYaml fun x s => { s with logging := x }]

/-- Reads what a manifest says about itself. -/
def Metadata.ofYaml : Yaml.Decoder Metadata :=
  record ⟨"", none, none⟩
    [.required "name" text fun x m => { m with name := x },
      .defaulted "version" (option text) fun x m => { m with version := x },
      .defaulted "labels" (option (pairs text))
        fun x m => { m with labels := x.map Json.sortFields }]

/-- Reads a manifest. -/
def Manifest.ofYaml (home : Option String) : Yaml.Decoder Manifest :=
  record ⟨"", "", default, .standard home⟩
    [.required "apiVersion" text fun x m => { m with apiVersion := x },
      .required "kind" text fun x m => { m with kind := x },
      .required "metadata" Metadata.ofYaml fun x m => { m with metadata := x },
      .defaulted "spec" (Settings.ofYaml home) fun x m => { m with settings := x }]

end YamlReaders

/-- **Reads the text of a manifest file.** -/
def Manifest.ofYamlText? (home : Option String) (text : String) : Option Manifest :=
  Yaml.decode? (Manifest.ofYaml home) text

/-- The settings as YAML. -/
def Settings.toYaml (s : Settings) : Yaml.Value :=
  .mapping
    [("orchestrator", .mapping
        [("worker_count", .number s.rounds.workers), ("max_rounds", .number s.rounds.maxRounds)]),
      ("subagent", .mapping [("default_timeout", .text s.timeout.text)]),
      ("event_bus", .mapping [("capacity", .number s.capacity)]),
      ("storage", .mapping
        [("backend", .text s.storage.kind.name), ("path", .text s.storage.path)]),
      ("observability", .mapping
        [("log_level", .text s.logging.level), ("log_format", .text s.logging.format)])]

/-- What a manifest says about itself, as YAML. -/
def Metadata.toYaml (m : Metadata) : Yaml.Value :=
  let version := match m.version with
    | some v => [("version", Yaml.Value.text v)]
    | none => []
  let labels := match m.labels with
    | some ls => [("labels", Yaml.Value.mapping (ls.map fun (k, v) => (k, .text v)))]
    | none => []
  .mapping ([("name", .text m.name)] ++ version ++ labels)

/-- The fields of a manifest as YAML. -/
def Manifest.toYaml (m : Manifest) : List (String × Yaml.Value) :=
  [("apiVersion", .text m.apiVersion), ("kind", .text m.kind), ("metadata", m.metadata.toYaml),
    ("spec", m.settings.toYaml)]

/-- **The text of a manifest file.** -/
def Manifest.yamlText (m : Manifest) : String := Yaml.page m.toYaml

/-! ### JSON -/

section JsonReaders

open Json.Decoder

/-- Reads a kind of storage. -/
def StorageKind.decoder : Json.Decoder StorageKind := Json.Decoder.name ofName?

/-- Reads the section of the rounds. -/
def RoundSettings.decoder : Json.Decoder RoundSettings :=
  record .standard
    [.defaulted "worker_count" nat64 fun x s => { s with workers := x },
      .defaulted "max_rounds" nat32 fun x s => { s with maxRounds := x }]

/-- Reads the section of the storage. -/
def StorageSettings.decoder (home : Option String) : Json.Decoder StorageSettings :=
  record (.standard home)
    [.defaulted "backend" StorageKind.decoder fun x s => { s with kind := x },
      .defaulted "path" text fun x s => { s with path := x }]

/-- Reads the section of the log. -/
def LogPreferences.decoder : Json.Decoder LogPreferences :=
  record .standard
    [.defaulted "log_level" text fun x s => { s with level := x },
      .defaulted "log_format" text fun x s => { s with format := x }]

/-- Reads the settings. -/
def Settings.decoder (home : Option String) : Json.Decoder Settings :=
  let timeout := record standardTimeout
    [.defaulted "default_timeout" Span.decoder fun x _ => x]
  let capacity := record standardCapacity
    [.defaulted "capacity" nat64 fun x _ => x]
  record (.standard home)
    [.defaulted "orchestrator" RoundSettings.decoder fun x s => { s with rounds := x },
      .defaulted "subagent" timeout fun x s => { s with timeout := x },
      .defaulted "event_bus" capacity fun x s => { s with capacity := x },
      .defaulted "storage" (StorageSettings.decoder home) fun x s => { s with storage := x },
      .defaulted "observability" LogPreferences.decoder fun x s => { s with logging := x }]

/-- Reads what a manifest says about itself. -/
def Metadata.decoder : Json.Decoder Metadata :=
  record ⟨"", none, none⟩
    [.required "name" text fun x m => { m with name := x },
      .of "version" (option text) (fun x m => { m with version := x }) .optional,
      .of "labels" (option (dictionary text))
        (fun x m => { m with labels := x.map Json.sortFields }) .optional]

/-- Reads a manifest. -/
def Manifest.decoder (home : Option String) : Json.Decoder Manifest :=
  record ⟨"", "", default, .standard home⟩
    [.required "apiVersion" text fun x m => { m with apiVersion := x },
      .required "kind" text fun x m => { m with kind := x },
      .required "metadata" Metadata.decoder fun x m => { m with metadata := x },
      .defaulted "spec" (Settings.decoder home) fun x m => { m with settings := x }]

end JsonReaders

/-- The settings as JSON. -/
def Settings.toJson (s : Settings) : Json :=
  .object
    [("orchestrator", .object
        [("worker_count", .nat s.rounds.workers), ("max_rounds", .nat s.rounds.maxRounds)]),
      ("subagent", .object [("default_timeout", s.timeout.toJson)]),
      ("event_bus", .object [("capacity", .nat s.capacity)]),
      ("storage", .object
        [("backend", .text s.storage.kind.name), ("path", .text s.storage.path)]),
      ("observability", .object
        [("log_level", .text s.logging.level), ("log_format", .text s.logging.format)])]

/-- What a manifest says about itself, as JSON. -/
def Metadata.toJson (m : Metadata) : Json :=
  .object ([("name", .text m.name)] ++ Json.optionalField "version" (m.version.map .text) ++
    Json.optionalField "labels"
      (m.labels.map fun ls => .object (ls.map fun (k, v) => (k, .text v))))

/-- The manifest as JSON. -/
def Manifest.toJson (m : Manifest) : Json :=
  .object [("apiVersion", .text m.apiVersion), ("kind", .text m.kind),
    ("metadata", m.metadata.toJson), ("spec", m.settings.toJson)]

end Roundtable

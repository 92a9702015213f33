import Roundtable.Manifest.Format
import Roundtable.Proofs.Json.Plain
import Roundtable.Proofs.Time.Spans
import Roundtable.Proofs.Yaml.Records

/-!
# Manifests with parts left out

All that a manifest says below `spec` may be left out: the whole of it, a section, or a
field of a section. **What is left out has its standard value, and all else is as it was
written** (`Roundtable.Manifest.reads_yamlWithout`), in whatever order the document has its
fields. With nothing left out this is what the writer writes
(`Roundtable.Manifest.yamlWithout_none`).

That holds for manifests a process can hold (`Roundtable.Manifest.IsRegular`): counts within
their words, a timeout whose seconds fit, and labels in the order of their names. Every
manifest that is read is one of these (`Roundtable.Manifest.isRegular_of_read`).
-/

namespace Roundtable

open Yaml Yaml.Decoder

/-- The parts of a manifest that may be left out: all settings, a section, or a setting. -/
inductive Manifest.Part
  | settings
  | rounds
  | workers
  | maxRounds
  | delegation
  | timeout
  | bus
  | capacity
  | storage
  | storageKind
  | storagePath
  | logging
  | logLevel
  | logFormat
deriving DecidableEq, Repr

/-! ### What is written -/

section Writing

variable (left : Manifest.Part → Bool)

/-- The section of the rounds, with parts left out. -/
def RoundSettings.yamlWithout (s : RoundSettings) : Value :=
  .mapping (present [("worker_count", unlessLeft (left .workers) (.number s.workers)),
    ("max_rounds", unlessLeft (left .maxRounds) (.number s.maxRounds))])

/-- The section of the storage, with parts left out. -/
def StorageSettings.yamlWithout (s : StorageSettings) : Value :=
  .mapping (present [("backend", unlessLeft (left .storageKind) (.text s.kind.name)),
    ("path", unlessLeft (left .storagePath) (.text s.path))])

/-- The section of the log, with parts left out. -/
def LogPreferences.yamlWithout (s : LogPreferences) : Value :=
  .mapping (present [("log_level", unlessLeft (left .logLevel) (.text s.level)),
    ("log_format", unlessLeft (left .logFormat) (.text s.format))])

/-- The settings, with parts left out. -/
def Settings.yamlWithout (s : Settings) : Value :=
  .mapping (present
    [("orchestrator", unlessLeft (left .rounds) (s.rounds.yamlWithout left)),
      ("subagent", unlessLeft (left .delegation) (.mapping (present
        [("default_timeout", unlessLeft (left .timeout) (.text s.timeout.text))]))),
      ("event_bus", unlessLeft (left .bus) (.mapping (present
        [("capacity", unlessLeft (left .capacity) (.number s.capacity))]))),
      ("storage", unlessLeft (left .storage) (s.storage.yamlWithout left)),
      ("observability", unlessLeft (left .logging) (s.logging.yamlWithout left))])

/-- The fields of a manifest as YAML, with parts left out. -/
def Manifest.yamlWithout (m : Manifest) : List (String × Value) :=
  present [("apiVersion", some (.text m.apiVersion)), ("kind", some (.text m.kind)),
    ("metadata", some m.metadata.toYaml),
    ("spec", unlessLeft (left .settings) (m.settings.yamlWithout left))]

/-! ### What is read -/

/-- The settings of the rounds, those left out at their standard. -/
def RoundSettings.without (s : RoundSettings) : RoundSettings where
  workers := if left .workers then standard.workers else s.workers
  maxRounds := if left .maxRounds then standard.maxRounds else s.maxRounds

/-- The settings of the storage, those left out at their standard. -/
def StorageSettings.without (home : Option String) (s : StorageSettings) : StorageSettings where
  kind := if left .storageKind then (standard home).kind else s.kind
  path := if left .storagePath then (standard home).path else s.path

/-- The settings of the log, those left out at their standard. -/
def LogPreferences.without (s : LogPreferences) : LogPreferences where
  level := if left .logLevel then standard.level else s.level
  format := if left .logFormat then standard.format else s.format

/-- The settings, those left out at their standard. -/
def Settings.without (home : Option String) (s : Settings) : Settings where
  rounds := if left .rounds then .standard else s.rounds.without left
  timeout := if left .delegation || left .timeout then standardTimeout else s.timeout
  capacity := if left .bus || left .capacity then standardCapacity else s.capacity
  storage := if left .storage then .standard home else s.storage.without left home
  logging := if left .logging then .standard else s.logging.without left

/-- **The manifest with parts left out**, their values standard. -/
def Manifest.without (home : Option String) (m : Manifest) : Manifest :=
  { m with settings := if left .settings then .standard home else m.settings.without left home }

end Writing

/-- With nothing left out the manifest is written as the writer does. -/
theorem Manifest.yamlWithout_none (m : Manifest) : m.yamlWithout (fun _ => false) = m.toYaml := rfl

theorem Manifest.without_none (home : Option String) (m : Manifest) :
    m.without (fun _ => false) home = m := rfl

/-! ### Manifests a process can hold -/

/-- Counts within their words, and a timeout whose seconds fit. -/
structure Settings.IsRegular (s : Settings) : Prop where
  workers_lt : s.rounds.workers < 2 ^ 64
  maxRounds_lt : s.rounds.maxRounds < 2 ^ 32
  seconds_lt : s.timeout.seconds < Span.countLimit
  capacity_lt : s.capacity < 2 ^ 64

/-- Labels in the order of their names, each once. -/
def Metadata.IsRegular (m : Metadata) : Prop :=
  ∀ labels, m.labels = some labels → labels.Pairwise (·.1 < ·.1)

/-- **A manifest a process can hold.** -/
structure Manifest.IsRegular (m : Manifest) : Prop where
  metadata : m.metadata.IsRegular
  settings : m.settings.IsRegular

theorem Settings.isRegular_standard (home : Option String) : (standard home).IsRegular where
  workers_lt := show 4 < 2 ^ 64 by decide
  maxRounds_lt := show 3 < 2 ^ 32 by decide
  seconds_lt := show standardTimeout.seconds < Span.countLimit by decide
  capacity_lt := show 1024 < 2 ^ 64 by decide

theorem Manifest.isRegular_standard (home : Option String) : (standard home).IsRegular :=
  ⟨fun _ h => absurd h (by simp [standard]), Settings.isRegular_standard home⟩

/-! ### Reading what is written -/

section Reading

variable {left : Manifest.Part → Bool} {home : Option String}

theorem RoundSettings.reads_yamlWithout {s : RoundSettings} (hworkers : s.workers < 2 ^ 64)
    (hrounds : s.maxRounds < 2 ^ 32) : Reads ofYaml (s.yamlWithout left) (s.without left) := by
  refine (reads_record (.defaulted (left .workers) (reads_natBelow hworkers)
    (.defaulted (left .maxRounds) (reads_natBelow hrounds) .nil)) ⟨by decide, ?_⟩).congr ?_
  · exact List.pairwise_pair.mpr (apart_of fun _ _ _ => rfl)
  · rw [without]
    cases left .workers <;> cases left .maxRounds <;> rfl

theorem StorageSettings.reads_yamlWithout (s : StorageSettings) :
    Reads (ofYaml home) (s.yamlWithout left) (s.without left home) := by
  have hkind : StorageKind.ofName? s.kind.name = some s.kind := by cases s.kind <;> rfl
  refine (reads_record (.defaulted (left .storageKind) (reads_name hkind)
    (.defaulted (left .storagePath) (reads_text s.path) .nil)) ⟨by decide, ?_⟩).congr ?_
  · exact List.pairwise_pair.mpr (apart_of fun _ _ _ => rfl)
  · rw [without]
    cases left .storageKind <;> cases left .storagePath <;> rfl

theorem LogPreferences.reads_yamlWithout (s : LogPreferences) :
    Reads ofYaml (s.yamlWithout left) (s.without left) := by
  refine (reads_record (.defaulted (left .logLevel) (reads_text s.level)
    (.defaulted (left .logFormat) (reads_text s.format) .nil)) ⟨by decide, ?_⟩).congr ?_
  · exact List.pairwise_pair.mpr (apart_of fun _ _ _ => rfl)
  · rw [without]
    cases left .logLevel <;> cases left .logFormat <;> rfl

/-- A section of one setting. -/
theorem reads_section {α : Type} {r : Decoder α} {value : Value} {a : α} (name : String)
    (isLeft : Bool) (blank : α) (hr : Reads r value a) :
    Reads (record blank [.defaulted name r fun x _ => x])
      (.mapping (present [(name, unlessLeft isLeft value)])) (if isLeft then blank else a) :=
  reads_record (.defaulted isLeft hr .nil) ⟨List.nodup_singleton _, List.pairwise_singleton _ _⟩

theorem Settings.reads_yamlWithout {s : Settings} (h : s.IsRegular) :
    Reads (ofYaml home) (s.yamlWithout left) (s.without left home) := by
  have htimeout := reads_section "default_timeout" (left .timeout) standardTimeout
    (reads_check (reads_text s.timeout.text) (Span.ofText?_text h.seconds_lt))
  have hcapacity := reads_section "capacity" (left .capacity) standardCapacity
    (reads_natBelow h.capacity_lt)
  refine (reads_record (.defaulted (left .rounds)
      (RoundSettings.reads_yamlWithout h.workers_lt h.maxRounds_lt)
    (.defaulted (left .delegation) htimeout
    (.defaulted (left .bus) hcapacity
    (.defaulted (left .storage) (StorageSettings.reads_yamlWithout s.storage)
    (.defaulted (left .logging) (LogPreferences.reads_yamlWithout s.logging) .nil)))))
    ⟨?_, ?_⟩).congr ?_
  · show ["orchestrator", "subagent", "event_bus", "storage", "observability"].Nodup
    decide
  · simp only [List.pairwise_cons, List.forall_mem_cons]
    and_intros
    all_goals first
      | exact apart_of fun _ _ _ => rfl
      | simp
  · rw [without]
    cases left .rounds <;> cases left .delegation <;> cases left .bus <;> cases left .storage <;>
      cases left .logging <;> rfl

theorem Metadata.toYaml_eq (m : Metadata) : m.toYaml = .mapping (present
    [("name", some (.text m.name)), ("version", m.version.map .text),
      ("labels", m.labels.map fun ls => .mapping (ls.map fun (k, s) => (k, .text s)))]) := by
  obtain ⟨name, _ | version, _ | labels⟩ := m <;> rfl

/-- Labels are read in any order, and put in theirs. -/
theorem exists_labels_of_saidBy {labels : List (String × String)} {d : Document} {v : Node}
    (h : labels.Pairwise (·.1 < ·.1))
    (hv : (Value.mapping (labels.map fun (k, s) => (k, .text s))).saidBy d v = true) :
    ∃ labels', option (pairs text) d v = some (some labels') ∧
      Json.sortFields labels' = labels := by
  obtain ⟨u, hu, hoption⟩ := exists_option_eq (fun _ => Value.noConfusion) hv
  obtain ⟨labels', hpairs, hperm⟩ := exists_pairs_of_saidBy hu
  refine ⟨labels', ?_, Json.sortFields_of_perm hperm h⟩
  rw [hoption, hpairs]
  rfl

theorem Metadata.reads_toYaml {m : Metadata} (h : m.IsRegular) : Reads ofYaml m.toYaml m := by
  have hversion : ∀ s d v, m.version = some s → (Value.text s).saidBy d v = true →
      ((option text d v).map fun x (m : Metadata) => { m with version := x }) =
        some fun m => { m with version := some s } := by
    intro s d v _ hv
    rw [reads_option (reads_text s) (fun _ => Value.noConfusion) d v hv]
    rfl
  have hlabels : ∀ ls d v, m.labels = some ls →
      (Value.mapping (ls.map fun (k, s) => (k, .text s))).saidBy d v = true →
      ((option (pairs text) d v).map fun x (m : Metadata) =>
          { m with labels := x.map Json.sortFields }) =
        some fun m => { m with labels := some ls } := by
    intro ls d v heq hv
    obtain ⟨labels', hread, hsort⟩ := exists_labels_of_saidBy (h ls heq) hv
    rw [hread, Option.map_some]
    simp only [Option.map_some, hsort]
  rw [toYaml_eq]
  refine (reads_record (.required (reads_text m.name) (.optional rfl hversion
    (.optional rfl hlabels .nil))) ⟨?_, ?_⟩).congr ?_
  · show ["name", "version", "labels"].Nodup
    decide
  · simp only [List.pairwise_cons, List.forall_mem_cons]
    and_intros
    all_goals first
      | exact apart_of fun _ _ _ => rfl
      | simp
  · obtain ⟨name, _ | version, _ | labels⟩ := m <;> rfl

/-- **What is left out has its standard value, and all else is as it was written.** -/
theorem Manifest.reads_yamlWithout {m : Manifest} (h : m.IsRegular) :
    Reads (ofYaml home) (.mapping (m.yamlWithout left)) (m.without left home) := by
  refine (reads_record (.required (reads_text m.apiVersion) (.required (reads_text m.kind)
    (.required (Metadata.reads_toYaml h.metadata)
    (.defaulted (left .settings) (Settings.reads_yamlWithout h.settings) .nil))))
    ⟨?_, ?_⟩).congr ?_
  · show ["apiVersion", "kind", "metadata", "spec"].Nodup
    decide
  · simp only [List.pairwise_cons, List.forall_mem_cons]
    and_intros
    all_goals first
      | exact apart_of fun _ _ _ => rfl
      | simp
  · rw [without]
    cases left .settings <;> rfl

end Reading

/-! ### What is read -/

section Read

variable {home : Option String} {d : Document} {v : Node}

theorem RoundSettings.lt_of_ofYaml {s : RoundSettings} (h : ofYaml d v = some s) :
    s.workers < 2 ^ 64 ∧ s.maxRounds < 2 ^ 32 := by
  refine record_keeps (P := fun s => s.workers < 2 ^ 64 ∧ s.maxRounds < 2 ^ 32) (by decide) ?_ h
  simp only [List.forall_mem_cons]
  refine ⟨keeps_of fun v x hx s hs => ⟨natBelow_lt hx, hs.2⟩,
    keeps_of fun v x hx s hs => ⟨hs.1, natBelow_lt hx⟩, ?_⟩
  simp

theorem Settings.isRegular_of_ofYaml {s : Settings} (h : ofYaml home d v = some s) :
    s.IsRegular := by
  refine record_keeps (P := IsRegular) (isRegular_standard home) ?_ h
  simp only [List.forall_mem_cons]
  refine ⟨keeps_of fun v x hx s hs => ?_, keeps_of fun v x hx s hs => ?_,
    keeps_of fun v x hx s hs => ?_, keeps_of fun v x _ s hs => ?_,
    keeps_of fun v x _ s hs => ?_, ?_⟩
  · obtain ⟨hworkers, hrounds⟩ := RoundSettings.lt_of_ofYaml hx
    exact { hs with workers_lt := hworkers, maxRounds_lt := hrounds }
  · have hseconds : x.seconds < Span.countLimit := by
      refine record_keeps (P := fun t => t.seconds < Span.countLimit) (by decide) ?_ hx
      rw [List.forall_mem_singleton]
      refine keeps_of fun v x hx _ _ => ?_
      obtain ⟨t, -, ht⟩ := Option.bind_eq_some_iff.mp hx
      exact Span.seconds_lt_of_ofText? ht
    exact { hs with seconds_lt := hseconds }
  · have hcapacity : x < 2 ^ 64 := by
      refine record_keeps (P := fun n => n < 2 ^ 64) (by decide) ?_ hx
      rw [List.forall_mem_singleton]
      exact keeps_of fun v x hx _ _ => natBelow_lt hx
    exact { hs with capacity_lt := hcapacity }
  · exact { hs with }
  · exact { hs with }
  · simp

theorem Metadata.isRegular_of_ofYaml {m : Metadata} (h : ofYaml d v = some m) : m.IsRegular := by
  refine record_keeps (P := IsRegular) (fun _ h => absurd h (by simp)) ?_ h
  simp only [List.forall_mem_cons]
  refine ⟨keeps_of fun v x _ m hm => hm, keeps_of fun v x _ m hm => hm,
    keeps_of fun v x _ m _ => ?_, by simp⟩
  intro labels hlabels
  obtain ⟨labels', -, rfl⟩ := Option.map_eq_some_iff.mp hlabels
  exact Json.pairwise_sortFields labels'

/-- **Every manifest that is read is one a process can hold.** -/
theorem Manifest.isRegular_of_read {text : String} {m : Manifest}
    (h : ofYamlText? home text = some m) : m.IsRegular := by
  obtain ⟨d, -, h⟩ := Option.bind_eq_some_iff.mp h
  have hblank : IsRegular ⟨"", "", default, .standard home⟩ :=
    ⟨nofun, Settings.isRegular_standard home⟩
  refine record_keeps (P := IsRegular) hblank ?_ h
  simp only [List.forall_mem_cons]
  refine ⟨keeps_of fun v x _ m hm => ⟨hm.metadata, hm.settings⟩,
    keeps_of fun v x _ m hm => ⟨hm.metadata, hm.settings⟩,
    keeps_of fun v x hx m hm => ⟨Metadata.isRegular_of_ofYaml hx, hm.settings⟩,
    keeps_of fun v x hx m hm => ⟨hm.metadata, Settings.isRegular_of_ofYaml hx⟩, by simp⟩

end Read

end Roundtable

/-!
# Sample manifests

What a new manifest file holds: the settings that matter first, or all of them with what
they mean.
-/

namespace Roundtable.Console

/-- The short sample. -/
def briefSample : String :=
  String.join (List.map (· ++ "\n")
    ["apiVersion: conclave.dev/v1",
      "kind: OrchestratorConfig",
      "metadata:",
      "  name: conclave",
      "spec:",
      "  orchestrator:",
      "    worker_count: 4",
      "    max_rounds: 3",
      "  subagent:",
      "    default_timeout: 10m"])

/-- The sample with comments. -/
def commentedSample : String :=
  String.join (List.map (· ++ "\n")
    ["# Conclave orchestrator configuration",
      "#",
      "# Discovery order: --config, CONCLAVE_CONFIG_PATH, ./conclave-config.yaml,",
      "# ~/.conclave/config.yaml, /etc/conclave/config.yaml.",
      "apiVersion: conclave.dev/v1",
      "kind: OrchestratorConfig",
      "metadata:",
      "  name: conclave",
      "  version: \"1.0.0\"",
      "  labels:",
      "    environment: development",
      "",
      "spec:",
      "  # Round orchestration defaults (used by run_epic_with_defaults)",
      "  orchestrator:",
      "    # Pool workers draining each round's tasks. Override: CONCLAVE_WORKER_COUNT",
      "    worker_count: 4",
      "    # Upper bound on Plan/Dispatch/Execute/Consolidate cycles. Override: CONCLAVE_MAX_ROUNDS",
      "    max_rounds: 3",
      "",
      "  subagent:",
      "    # Wall-clock budget per delegated worker when the caller sets none.",
      "    # Override: CONCLAVE_SUBAGENT_TIMEOUT (e.g. \"90s\", \"15m\")",
      "    default_timeout: 10m",
      "",
      "  event_bus:",
      "    # Events buffered before slow subscribers start lagging",
      "    capacity: 1024",
      "",
      "  storage:",
      "    # \"file\" keeps one JSON document per round; \"memory\" keeps nothing after exit",
      "    backend: file",
      "    # Override: CONCLAVE_STORAGE_PATH",
      "    path: ~/.conclave/runs",
      "",
      "  observability:",
      "    log_level: info",
      "    # \"compact\" or \"json\"",
      "    log_format: compact"])

end Roundtable.Console

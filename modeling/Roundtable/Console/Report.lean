import Roundtable.Console.Style
import Roundtable.Manifest.Basic
import Roundtable.Store.Record

/-!
# Reports

What people are shown of a manifest, of a run in one line and over several lines, and of a
recorded round. Texts that may be long are cut to the first line and to a width in
characters (`cut`).
-/

namespace Roundtable

open Console

/-! ### Manifests -/

/-- **The settings in effect.** -/
def Manifest.summary (m : Manifest) (coloured : Bool) : String :=
  let s := m.settings
  let head (t : String) : String := Style.bold.paint coloured t ++ "\n"
  let storage := match s.storage.kind with
    | .memory => "  Backend: memory (runs are not kept after exit)\n\n"
    | .file => "  Backend: file\n  Path: " ++ s.storage.path ++ "\n\n"
  head "Rounds:" ++
    "  Worker count: " ++ decimal s.rounds.workers ++ "\n" ++
    "  Max rounds: " ++ decimal s.rounds.maxRounds ++ "\n\n" ++
    head "Sub-agents:" ++
    "  Default timeout: " ++ s.timeout.text ++ "\n\n" ++
    head "Storage:" ++ storage ++
    head "Observability:" ++
    "  Log level: " ++ s.logging.level ++ "\n" ++
    "  Log format: " ++ s.logging.format ++ "\n" ++
    "  Event bus capacity: " ++ decimal s.capacity ++ "\n"

/-! ### Runs -/

/-- The first line of a text, without its end. -/
def firstLine (s : List Char) : List Char :=
  let line := s.takeWhile (· ≠ '\n')
  if line.length < s.length && line.getLast? == some '\r' then line.dropLast else line

/-- The first line of a text, on `width` characters at most; where it was longer the last
of them tells. -/
def cut (width : Nat) (s : String) : String :=
  let line := firstLine s.toList
  if line.length ≤ width then String.ofList line
  else String.ofList (line.take (width - 1) ++ ['…'])

/-- The style of a status. -/
def RunStatus.style : RunStatus → Style
  | .completed => .green
  | .failed => .red
  | .running | .awaitingConsolidation | .continuing => .yellow

/-- The name of a status in its style. -/
def RunStatus.painted (s : RunStatus) (coloured : Bool) : String := s.style.paint coloured s.name

/-- A line of a list of runs. -/
def listLine (run status round mission : String) : String :=
  padRight 38 run ++ " " ++ padRight 24 status ++ " " ++ padLeft 6 round ++ "  " ++ mission

/-- **A run in one line.** -/
def RunState.line (s : RunState) (coloured : Bool) : String :=
  listLine s.runId.text (s.status.painted coloured) (decimal s.round) (cut 60 s.mission)

/-- The line of a result. -/
def TaskResult.line (r : TaskResult) (coloured : Bool) : String :=
  let marker := if r.success then Style.green.paint coloured "✓" else Style.red.paint coloured "✗"
  "  " ++ marker ++ " " ++ r.task.text ++ " [" ++ r.status.name ++ "] " ++
    cut 80 (r.error.getD r.output) ++ "\n"

/-- The line of a remembered round. -/
def RoundSummary.line (m : RoundSummary) : String :=
  "  #" ++ decimal m.round ++ " (" ++ decimal m.succeeded ++ " ok, " ++ decimal m.failed ++
    " failed): " ++ cut 80 m.summary ++ "\n"

/-- A section with a head, unless it has no lines. -/
def titled (coloured : Bool) (head : String) (lines : List String) : String :=
  if lines.isEmpty then "" else "\n" ++ Style.bold.paint coloured head ++ "\n" ++ String.join lines

/-- A line with a name, unless there is no value. -/
def optionalLine (name : String) (value : Option String) : String :=
  match value with
  | some v => "  " ++ name ++ ": " ++ v ++ "\n"
  | none => ""

/-- **A run over several lines.** -/
def RunState.report (s : RunState) (coloured : Bool) : String :=
  Style.bold.paint coloured "Run:" ++ " " ++ s.runId.text ++ "\n" ++
    "  Mission: " ++ s.mission ++ "\n" ++
    "  Status: " ++ s.status.painted coloured ++ "\n" ++
    "  Round: " ++ decimal s.round ++ "\n" ++
    "  Started: " ++ s.startedAt.offsetText ++ "\n" ++
    optionalLine "Completed" (s.completedAt.map (·.offsetText)) ++
    optionalLine "Error" (s.error.map fun e => Style.red.paint coloured e.text) ++
    optionalLine "Last summary" s.lastSummary ++
    titled coloured "Results (last round):" (s.results.map (·.line coloured)) ++
    titled coloured "Round summaries:" (s.memory.map (·.line))

/-- **A recorded round in one line.** -/
def RoundRecord.line (r : RoundRecord) (coloured : Bool) : String :=
  Style.bold.paint coloured "•" ++ " round " ++ decimal r.round ++ " at " ++
    r.recordedAt.offsetText ++ ": " ++ r.state.status.painted coloured ++ " (" ++
    decimal r.state.tasks.length ++ " tasks, " ++ decimal r.state.results.length ++
    " results)\n"

end Roundtable

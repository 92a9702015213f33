import Roundtable.Json.Decoder
import Roundtable.SubAgent

/-!
# The parties around a run

What a run asks of others and what they answer: a factory that makes workers, workers
that execute, a planner and a judge. Every party may fail, each in its own ways, and
what it says of its failure stands in messages and records.
-/

namespace Roundtable

/-! ### Workers -/

/-- What a worker hands back. -/
structure ExecutionOutcome where
  output : String
  success : Bool
  error : Option String
deriving DecidableEq, Repr, Inhabited

namespace ExecutionOutcome

/-- A success. -/
def succeeded (output : String) : ExecutionOutcome := ⟨output, true, none⟩

/-- A failure with its reason. -/
def failed (output error : String) : ExecutionOutcome := ⟨output, false, some error⟩

/-- The outcome as JSON. -/
def toJson (o : ExecutionOutcome) : Json :=
  .object ([("output", .text o.output), ("success", .bool o.success)] ++
    Json.optionalField "error" (o.error.map .text))

/-- Reads an outcome. -/
def decoder : Json.Decoder ExecutionOutcome :=
  Json.Decoder.record default
    [.required "output" .text fun x o => { o with output := x },
      .required "success" .bool fun x o => { o with success := x },
      .defaulted "error" (.option .text) fun x o => { o with error := x }]

end ExecutionOutcome

/-- How an execution fails without an outcome. -/
inductive ExecutionError
  | failed (reason : String)
  | cancelled
  | other (reason : String)
deriving DecidableEq, Repr

/-- The error in words. -/
def ExecutionError.message : ExecutionError → String
  | failed reason => "Execution failed: " ++ reason
  | cancelled => "Execution cancelled"
  | other reason => reason

/-- Why a worker's resources were not released. -/
structure TeardownError where
  reason : String
deriving DecidableEq, Repr

/-- The error in words. -/
def TeardownError.message (e : TeardownError) : String :=
  "Failed to release worker resources: " ++ e.reason

/-- Why there is no worker. -/
inductive FactoryError
  | unknownRole (role : String)
  | creationFailed (reason : String)
deriving DecidableEq, Repr

/-- The error in words. -/
def FactoryError.message : FactoryError → String
  | unknownRole role => "Unknown specialist role: " ++ role
  | creationFailed reason => "Failed to create worker: " ++ reason

/-! ### Planner and judge -/

/-- Why a planner or a judge did not answer. -/
inductive CapabilityError
  | unavailable (reason : String)
  | invalidResponse (reason : String)
  | other (reason : String)
deriving DecidableEq, Repr

/-- The error in words. -/
def CapabilityError.message : CapabilityError → String
  | unavailable reason => "Capability unavailable: " ++ reason
  | invalidResponse reason => "Invalid response: " ++ reason
  | other reason => reason

/-- What the judge says of a round. -/
structure Verdict where
  summary : String
  continueRun : Bool
deriving DecidableEq, Repr, Inhabited

namespace Verdict

/-- The run shall end. -/
def stop (summary : String) : Verdict := ⟨summary, false⟩

/-- Another round shall follow. -/
def proceed (summary : String) : Verdict := ⟨summary, true⟩

/-- The verdict as JSON. -/
def toJson (v : Verdict) : Json :=
  .object [("summary", .text v.summary), ("continue", .bool v.continueRun)]

/-- Reads a verdict. -/
def decoder : Json.Decoder Verdict :=
  Json.Decoder.record default
    [.required "summary" .text fun x v => { v with summary := x },
      .required "continue" .bool fun x v => { v with continueRun := x }]

end Verdict

/-- What follows a round. -/
inductive RoundDecision
  | continue
  | complete
deriving DecidableEq, Repr, Inhabited

namespace RoundDecision

/-- The name in records. -/
def name : RoundDecision → String
  | .continue => "continue"
  | .complete => "complete"

/-- The decision a name stands for. -/
def ofName? (s : String) : Option RoundDecision :=
  [RoundDecision.continue, .complete].find? (·.name == s)

/-- Reads a decision. -/
def decoder : Json.Decoder RoundDecision := Json.Decoder.name ofName?

/-- **The judge only asks for another round: the limit has the last word.** -/
def after (v : Verdict) (round maxRounds : Nat) : RoundDecision :=
  if v.continueRun && round < maxRounds then .continue else .complete

end RoundDecision

end Roundtable

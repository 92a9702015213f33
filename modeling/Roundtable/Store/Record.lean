import Roundtable.File.Tree
import Roundtable.Run

/-!
# Records of rounds

What a store keeps: the state of a run when a round was recorded. **A record is written
once**; who records the same round of the same run again is refused.
-/

namespace Roundtable

/-- One recorded round of a run. -/
structure RoundRecord where
  runId : RunId
  round : Nat
  recordedAt : Instant
  state : RunState
deriving Repr, Inhabited

namespace RoundRecord

/-- The record as JSON. -/
def toJson (r : RoundRecord) : Json :=
  .object [("run_id", r.runId.toJson), ("round_number", .nat r.round),
    ("recorded_at", r.recordedAt.toJson), ("state", r.state.toJson)]

/-- Reads a record. -/
def decoder : Json.Decoder RoundRecord :=
  Json.Decoder.record default
    [.required "run_id" RunId.decoder fun x r => { r with runId := x },
      .required "round_number" .nat32 fun x r => { r with round := x },
      .required "recorded_at" Instant.decoder fun x r => { r with recordedAt := x },
      .required "state" RunState.decoder fun x r => { r with state := x }]

end RoundRecord

/-- Why a store refused. -/
inductive StoreError
  | alreadyExists (run : RunId) (round : Nat)
  | io (reason : String)
  | serialization (reason : String)
deriving DecidableEq, Repr

namespace StoreError

/-- The error in words. -/
def message : StoreError → String
  | alreadyExists run round => s!"Round {decimal round} of run {run.text} is already recorded"
  | io reason => "Storage I/O error: " ++ reason
  | serialization reason => "Serialization error: " ++ reason

/-- The error of an operation the system refused. -/
def ofOs (e : OsError) : StoreError := .io e.message

end StoreError

/-- A fault of a text in words. -/
def Json.Fault.message : Json.Fault → String
  | malformed => "the text is not JSON"
  | truncated => "the JSON text ends too early"
  | mismatch => "the JSON text has the wrong shape"

end Roundtable

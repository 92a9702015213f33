import Roundtable.Store.Record

/-!
# Records in memory

A store that lives as long as its process: for every run its records in the order of
their rounds, and the runs in the order of their ids.
-/

namespace Roundtable

/-- The records of every run. -/
structure MemoryStore where
  runs : List (RunId × List RoundRecord)
deriving Repr, Inhabited

namespace MemoryStore

/-- A store without records. -/
def empty : MemoryStore := ⟨[]⟩

/-- The records of a run, the first round first. -/
def history (s : MemoryStore) (run : RunId) : List RoundRecord := (s.runs.lookup run).getD []

/-- The state of the last round recorded. -/
def load (s : MemoryStore) (run : RunId) : Option RunState :=
  (s.history run).getLast?.map (·.state)

/-- Puts a record in front of those of later rounds. -/
def insertRecord (r : RoundRecord) : List RoundRecord → List RoundRecord
  | [] => [r]
  | x :: xs => if r.round < x.round then r :: x :: xs else x :: insertRecord r xs

/-- Replaces the records of a run, in the order of ids. -/
def setRun (run : RunId) (records : List RoundRecord) :
    List (RunId × List RoundRecord) → List (RunId × List RoundRecord)
  | [] => [(run, records)]
  | (r, rs) :: rest =>
    if run = r then (run, records) :: rest
    else if run.text < r.text then (run, records) :: (r, rs) :: rest
    else (r, rs) :: setRun run records rest

/-- **Records a round**, once. -/
def persist (s : MemoryStore) (run : RunId) (round : Nat) (state : RunState) (now : Instant) :
    Except StoreError MemoryStore :=
  let records := s.history run
  if records.any (·.round == round) then .error (.alreadyExists run round)
  else .ok ⟨setRun run (insertRecord ⟨run, round, now, state⟩ records) s.runs⟩

/-- The runs that have a record, in the order of their ids. -/
def listRuns (s : MemoryStore) : List RunId := s.runs.map (·.1)

end MemoryStore

end Roundtable

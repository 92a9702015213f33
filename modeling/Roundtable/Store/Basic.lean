import Roundtable.Store.Directory
import Roundtable.Store.Memory

/-!
# Stores

The two kinds of store behind one set of operations. Both keep what a finite map from
runs and rounds to states would keep, and neither ever changes what it has recorded.
-/

namespace Roundtable

/-- A store: records in memory, or in a directory of a file system. -/
inductive Store
  | memory (records : MemoryStore)
  | directory (store : DirectoryStore) (files : FileTree)

namespace Store

/-- Opens a store in a directory. -/
def openDirectory (base : String) (files : FileTree) : Except StoreError Store × FileTree :=
  let (opened, files) := (DirectoryStore.open base).run files
  (opened.map fun s => .directory s files, files)

/-- Opens the store again. What was in memory is gone. -/
def reopen : Store → Except StoreError Store
  | memory _ => .ok (.memory .empty)
  | directory s files => (openDirectory s.base files).1

/-- Records a round. -/
def persist (s : Store) (run : RunId) (round : Nat) (state : RunState) (now : Instant) :
    Except StoreError Unit × Store :=
  match s with
  | memory m =>
    match m.persist run round state now with
    | .ok m => (.ok (), .memory m)
    | .error e => (.error e, s)
  | directory d files =>
    let (answer, files) := (d.persist run round state now).run files
    (answer, .directory d files)

/-- The records of a run, the first round first. -/
def history (s : Store) (run : RunId) : Except StoreError (List RoundRecord) :=
  match s with
  | memory m => .ok (m.history run)
  | directory d files => ((d.history run).run files).1

/-- The state of the last round recorded. -/
def load (s : Store) (run : RunId) : Except StoreError (Option RunState) :=
  match s with
  | memory m => .ok (m.load run)
  | directory d files => ((d.load run).run files).1

/-- The runs that were recorded, in the order of their ids. -/
def listRuns : Store → Except StoreError (List RunId)
  | memory m => .ok m.listRuns
  | directory d files => (d.listRuns.run files).1

end Store

end Roundtable

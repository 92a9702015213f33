import Roundtable.File.Tree

/-!
# Programs on files

What is done with files, one operation after the other, as a value: an operation and
what to do with its answer. A program can be run on a `FileTree`, or by an outer layer
on a real system, or be looked at between any two of its operations, where it can fail,
stop or be watched.
-/

namespace Roundtable

/-- An operation on files. -/
inductive FileOp
  /-- Makes a directory and those above it. -/
  | makeDirs (path : String)
  /-- Makes an empty file where nothing stands. -/
  | createNew (path : String)
  /-- Writes the text of a file. -/
  | write (path text : String)
  /-- Waits until what was written is kept. -/
  | sync (path : String)
  | remove (path : String)
  | list (path : String)
  | read (path : String)
  | exists (path : String)
deriving DecidableEq, Repr

/-- What an operation answers when it succeeds. -/
@[reducible]
def FileOp.Answer : FileOp → Type
  | makeDirs _ | createNew _ | write _ _ | sync _ | remove _ => Unit
  | list _ => List (String × Bool)
  | read _ => String
  | «exists» _ => Bool

/-- **One operation on a tree of files.** -/
def FileTree.perform (t : FileTree) : (op : FileOp) → Except OsError op.Answer × FileTree
  | .makeDirs path => t.makeDirs path
  | .createNew path => t.createNew path
  | .write path text => t.write path text
  | .sync _ => (.ok (), t)
  | .remove path => t.remove path
  | .list path => (t.list path, t)
  | .read path => (t.read path, t)
  | .exists path => (.ok (t.exists path), t)

/-- A program on files with a result. -/
inductive FileProgram (α : Type)
  | done (a : α)
  | perform (op : FileOp) (next : Except OsError op.Answer → FileProgram α)

namespace FileProgram

variable {α β : Type}

/-- Goes on with a result. -/
def bind : FileProgram α → (α → FileProgram β) → FileProgram β
  | done a, f => f a
  | perform op next, f => perform op fun a => (next a).bind f

instance : Monad FileProgram where
  pure := done
  bind := bind

/-- The program of one operation. -/
def op (o : FileOp) : FileProgram (Except OsError o.Answer) := .perform o .done

/-- **Runs a program on a tree of files.** -/
def run : FileProgram α → FileTree → α × FileTree
  | done a, t => (a, t)
  | perform op next, t => (next (t.perform op).1).run (t.perform op).2

/-- Runs the first operations of a program and leaves the rest. -/
def runFor : Nat → FileProgram α → FileTree → FileProgram α × FileTree
  | 0, p, t => (p, t)
  | _ + 1, done a, t => (done a, t)
  | n + 1, perform op next, t => runFor n (next (t.perform op).1) (t.perform op).2

end FileProgram

end Roundtable

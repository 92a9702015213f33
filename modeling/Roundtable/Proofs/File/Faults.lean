import Roundtable.Proofs.File.Trees

/-!
# Programs that do not get through

A program on files need not run to its end. The system can refuse one of its operations, and
a text that is written can break off anywhere; the process can stop between two operations or
in the middle of a text; and who looks at the files meanwhile sees them as they are there.

`Roundtable.FileProgram.Passes` are **all the points that a program passes**: what the tree is
like there, what the program has answered, if it has come to that, and which operations have
failed on the way. Where nothing fails these are the points of its run
(`Roundtable.FileProgram.Passes.run_eq`, `Roundtable.FileProgram.passes_runFor`), and a text
that is being written.

A file holds a text here and not its bytes (`Roundtable.FileNode`), so **a text breaks off between
two characters**. That it breaks off inside a character of several bytes, and leaves a file that is
no text, is not among the points.
-/

namespace Roundtable

/-! ### One operation -/

/-- **What an operation may come to**, and whether it has failed. -/
inductive FileTree.Yields (t : FileTree) :
    (op : FileOp) → Except OsError op.Answer → FileTree → List FileOp → Prop
  /-- It does what it does. -/
  | done (op : FileOp) : Yields t op (t.perform op).1 (t.perform op).2 []
  /-- It is refused, and nothing happens. -/
  | refused (op : FileOp) (e : OsError) : Yields t op (.error e) t [op]
  /-- A text breaks off: only a part of it is written, and that of whole characters. -/
  | torn {path text part : String} {t' : FileTree} (e : OsError)
      (hpart : part.toList <+: text.toList) (hw : t.write path part = (.ok (), t')) :
      Yields t (.write path text) (.error e) t' [.write path text]

theorem FileTree.Yields.eq_perform {t t' : FileTree} {op : FileOp} {a : Except OsError op.Answer}
    (h : t.Yields op a t' []) : t.perform op = (a, t') := by
  cases h
  rfl

namespace FileProgram

variable {α : Type} {t t' t₁ : FileTree} {op : FileOp}
  {next : Except OsError op.Answer → FileProgram α} {p : FileProgram α} {a : α}
  {result : Option α} {faults : List FileOp}

/-! ### Points of a program -/

/-- **A point that the program passes** on its way from a tree. -/
inductive Passes : FileProgram α → FileTree → Option α → FileTree → List FileOp → Prop
  /-- It has come to its answer. -/
  | done {a : α} {t : FileTree} : Passes (.done a) t (some a) t []
  /-- It has not gone on. -/
  | still {p : FileProgram α} {t : FileTree} : Passes p t none t []
  /-- It is writing a text, and a part of it is there, of whole characters. -/
  | amid {path text part : String} {next : Except OsError Unit → FileProgram α} {t t' : FileTree}
      (hpart : part.toList <+: text.toList) (hw : t.write path part = (.ok (), t')) :
      Passes (.perform (.write path text) next) t none t' []
  /-- It has gone on from one operation. -/
  | next {op : FileOp} {next : Except OsError op.Answer → FileProgram α}
      {answer : Except OsError op.Answer} {t t₁ t' : FileTree} {result : Option α}
      {faults faults' : List FileOp} (hy : t.Yields op answer t₁ faults)
      (hp : Passes (next answer) t₁ result t' faults') :
      Passes (.perform op next) t result t' (faults ++ faults')

/-- A program goes on from an operation that does what it does. -/
theorem Passes.of_perform {answer : Except OsError op.Answer} (h : t.perform op = (answer, t₁))
    (hp : (next answer).Passes t₁ result t' faults) :
    (perform op next).Passes t result t' faults := by
  have hy := FileTree.Yields.done (t := t) op
  rw [h] at hy
  exact .next hy hp

/-- **A program passes where it runs to.** -/
theorem passes_run (p : FileProgram α) (t : FileTree) :
    p.Passes t (some (p.run t).1) (p.run t).2 [] := by
  induction p generalizing t with
  | done a => exact .done
  | perform op next ih => exact .of_perform rfl (ih _ _)

/-- It passes where it is after any number of operations. -/
theorem passes_runFor (n : Nat) (p : FileProgram α) (t : FileTree) :
    p.Passes t none (p.runFor n t).2 [] := by
  induction n generalizing p t with
  | zero => exact .still
  | succ n ih =>
    cases p with
    | done a => exact .still
    | perform op next => exact .of_perform rfl (ih _ _)

/-- **What a program answers if nothing fails is what it answers when it is run.** -/
theorem Passes.run_eq (h : p.Passes t (some a) t' []) : p.run t = (a, t') := by
  generalize hr : some a = result at h
  generalize hf : ([] : List FileOp) = faults at h
  induction h with
  | done => rw [Option.some.inj hr, run]
  | still | amid => cases hr
  | next hy _ ih =>
    obtain ⟨rfl, rfl⟩ := List.append_eq_nil_iff.mp hf.symm
    rw [run, hy.eq_perform]
    exact ih hr rfl

end FileProgram

end Roundtable

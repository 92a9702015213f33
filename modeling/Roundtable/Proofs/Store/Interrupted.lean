import Roundtable.Proofs.File.Faults
import Roundtable.Proofs.Json.Torn
import Roundtable.Proofs.Store.Agreement

/-!
# Rounds that are not recorded to their end

What is left of a round if its recording does not get through: if the system refuses one of
the operations, if the process stops at some point, or if somebody looks at the run meanwhile
(`Roundtable.DirectoryStore.persist_interrupted`).

**Recording a round is not all or nothing.** The file of the round is made before its text is
written, and as long as the text is not there as a whole
(`Roundtable.Json.Decoder.decode_part`) nobody can read the run: not the round, and not the
rounds before it either. A process that stops there leaves the run so, for the round that
stands there in part is refused when it is recorded again. A text that the system refuses is
taken away, and then nothing is left of the call (`Roundtable.DirectoryStore.Undone`). But if
the system refuses to say that the text is kept, the round is recorded and stays recorded,
though who recorded it was told that it is not.

Everywhere else it is one of the two, the run as it was or the run with the new record in its
place (`Roundtable.DirectoryStore.Stands`).

The points are those of `Roundtable.FileProgram.Passes`: the text of a record is there up to one
of its characters. A record that breaks off inside a character is not spoken of.
-/

namespace Roundtable

open Json Json.Decoder

namespace DirectoryStore

variable {d : DirectoryStore} {files files' made : FileTree} {base place : List String}
  {run : RunId} {round : Nat} {state : RunState} {now : Instant} {told : List RoundRecord}
  {path text part : String} {answer : Option (Except StoreError Unit)} {faults : List FileOp}

/-! ### Texts that break off -/

/-- The last part of recording a round: the file, which is there, is written and kept. -/
def fill (path text : String) : FileProgram (Except StoreError Unit) := do
  match ← FileProgram.op (.write path text) with
  | .error e =>
    let _ ← FileProgram.op (.remove path)
    return .error (.ofOs e)
  | .ok () =>
    match ← FileProgram.op (.sync path) with
    | .error e => return .error (.ofOs e)
    | .ok () => return .ok ()

/-- What is left to do when the directory is there: the file is made where nothing stands, and
filled. -/
def enter (run : RunId) (round : Nat) (path text : String) :
    FileProgram (Except StoreError Unit) := do
  match ← FileProgram.op (.createNew path) with
  | .error .exists => return .error (.alreadyExists run round)
  | .error e => return .error (.ofOs e)
  | .ok () => fill path text

/-- **A round is recorded in two steps**: the directory of the run, and the file in it. -/
theorem persist_eq_enter (d : DirectoryStore) (run : RunId) (round : Nat) (state : RunState)
    (now : Instant) : d.persist run round state now =
      .perform (.makeDirs (d.runPath run)) fun
        | .error e => .done (.error (.ofOs e))
        | .ok () =>
          enter run round (d.recordPath run round) (recordText ⟨run, round, now, state⟩) := by
  refine congrArg (FileProgram.perform _) (funext fun made => ?_)
  rcases made with e | u
  · rfl
  cases u
  refine congrArg (FileProgram.perform _) (funext fun created => ?_)
  rcases created with e | u
  · cases e <;> rfl
  cases u
  refine congrArg (FileProgram.perform _) (funext fun written => ?_)
  rcases written with e | u
  · rfl
  cases u
  refine congrArg (FileProgram.perform _) (funext fun kept => ?_)
  rcases kept with e | u
  · rfl
  cases u
  rfl

/-- **A text that could not be written is taken away**, unless that comes to nothing. -/
theorem passes_remove {e : OsError} (h : made.IsVacant path place)
    (hp : FileProgram.Passes (.perform (.remove path) fun _ => .done (.error (.ofOs e)))
      (made.set place (.file part)) answer files' []) :
    (files' = made ∧ answer ≠ some (.ok ())) ∨
      files' = made.set place (.file part) ∧ answer = none := by
  generalize hf : ([] : List FileOp) = faults at hp
  cases hp with
  | still => exact .inr ⟨rfl, rfl⟩
  | next hy hp =>
    obtain ⟨rfl, rfl⟩ := List.append_eq_nil_iff.mp hf.symm
    have hremoved := hy.eq_perform
    rw [FileTree.perform, h.remove_set] at hremoved
    obtain ⟨-, rfl⟩ := Prod.mk.inj hremoved
    cases hp <;> exact .inl ⟨rfl, fun h => by cases h⟩

/-- **Where the filling of a file gets to** if one operation fails at most: the file is taken
away again, or a part of the text is there, or all of it. -/
theorem passes_fill (h : made.IsVacant path place)
    (hp : (fill path text).Passes (made.set place (.file "")) answer files' faults)
    (hsingle : faults.length ≤ 1) :
    (files' = made ∧ answer ≠ some (.ok ())) ∨
      ∃ part, part.toList <+: text.toList ∧ files' = made.set place (.file part) ∧
        (answer = none ∨ part = text ∧
          (answer = some (.ok ()) ∨
            ∃ e, answer = some (.error (.ofOs e)) ∧ faults = [.sync path])) := by
  simp only [fill, bind, FileProgram.op, FileProgram.bind] at hp
  cases hp with
  | still => exact .inr ⟨"", List.nil_prefix, rfl, .inl rfl⟩
  | @amid _ _ part _ _ _ hpart hw =>
    rw [h.write_set] at hw
    exact .inr ⟨part, hpart, (Prod.mk.inj hw).2.symm, .inl rfl⟩
  | next hy hp =>
    cases hy with
    | done =>
      rw [FileTree.perform, h.write_set] at hp
      cases hp with
      | still => exact .inr ⟨text, List.prefix_refl _, rfl, .inl rfl⟩
      | next hy hp =>
        cases hy with
        | done =>
          cases hp with
          | done => exact .inr ⟨text, List.prefix_refl _, rfl, .inr ⟨rfl, .inl rfl⟩⟩
          | still => exact .inr ⟨text, List.prefix_refl _, rfl, .inl rfl⟩
        | refused _ e =>
          cases hp with
          | done => exact .inr ⟨text, List.prefix_refl _, rfl, .inr ⟨rfl, .inr ⟨e, rfl, rfl⟩⟩⟩
          | still => exact .inr ⟨text, List.prefix_refl _, rfl, .inl rfl⟩
    | refused _ e =>
      obtain rfl :=
        List.eq_nil_of_length_eq_zero (Nat.le_zero.mp (Nat.le_of_succ_le_succ hsingle))
      rcases passes_remove h hp with hgone | ⟨rfl, hnone⟩
      · exact .inl hgone
      · exact .inr ⟨"", List.nil_prefix, rfl, .inl hnone⟩
    | @torn _ _ part _ e hpart hw =>
      rw [h.write_set] at hw
      obtain rfl := (Prod.mk.inj hw).2
      obtain rfl :=
        List.eq_nil_of_length_eq_zero (Nat.le_zero.mp (Nat.le_of_succ_le_succ hsingle))
      rcases passes_remove h hp with hgone | ⟨rfl, hnone⟩
      · exact .inl hgone
      · exact .inr ⟨part, hpart, rfl, .inl hnone⟩

/-- **Where the making of a file gets to** if one operation fails at most: there is no file, or
one with a part of the text, or one with all of it. -/
theorem passes_enter (hs : made.IsSound)
    (hp : (enter run round path text).Passes made answer files' faults)
    (hsingle : faults.length ≤ 1) :
    (files' = made ∧ answer ≠ some (.ok ())) ∨
      ∃ place part, made.IsVacant path place ∧ part.toList <+: text.toList ∧
        files' = made.set place (.file part) ∧
        (answer = none ∨ part = text ∧
          (answer = some (.ok ()) ∨
            ∃ e, answer = some (.error (.ofOs e)) ∧ faults = [.sync path])) := by
  simp only [enter, bind, FileProgram.op, FileProgram.bind] at hp
  cases hp with
  | still => exact .inl ⟨rfl, fun h => by cases h⟩
  | next hy hp =>
    cases hy with
    | refused _ e => cases e <;> cases hp <;> exact .inl ⟨rfl, fun h => by cases h⟩
    | done =>
      rw [FileTree.perform] at hp
      rcases hcreated : made.createNew path with ⟨e | _, created⟩
      · obtain rfl := FileTree.eq_of_createNew_error hcreated
        rw [hcreated] at hp
        cases e <;> cases hp <;> exact .inl ⟨rfl, fun h => by cases h⟩
      · obtain ⟨place, hresolve, hnone, -, rfl⟩ := FileTree.createNew_eq_ok.mp hcreated
        rw [hcreated] at hp
        rcases passes_fill ⟨hs, hresolve, hnone⟩ hp hsingle with hgone | ⟨part, hpart⟩
        · exact .inl hgone
        · exact .inr ⟨place, part, ⟨hs, hresolve, hnone⟩, hpart⟩

/-! ### The recording of a round -/

/-- Where the directory of a run cannot be made nothing is made. -/
theorem IsOpen.eq_of_makeDirs_error (h : d.IsOpen files base) {e : OsError}
    (hm : files.makeDirs (d.runPath run) = (.error e, made)) : files = made := by
  rw [h.makeDirs_eq] at hm
  split at hm
  · exact (Prod.mk.inj hm).2
  · rw [FileTree.makeAlong] at hm
    split at hm
    · exact (Prod.mk.inj hm).2
    · split at hm
      · cases (Prod.mk.inj hm).1
      · exact (Prod.mk.inj hm).2
      · cases (Prod.mk.inj hm).1

/-- **Where the recording of a round gets to** if one operation fails at most: nothing is there
but the directory of the run, or a file with a part of the text, or one with all of it. -/
theorem IsOpen.passes_persist (h : d.IsOpen files base)
    (hp : (d.persist run round state now).Passes files answer files' faults)
    (hsingle : faults.length ≤ 1) :
    ((files' = files ∨ files.makeDirs (d.runPath run) = (.ok (), files')) ∧
        answer ≠ some (.ok ())) ∨
      ∃ part, part.toList <+: (recordText ⟨run, round, now, state⟩).toList ∧
        d.Adds files files' base run round part ∧
        (answer = none ∨ part = recordText ⟨run, round, now, state⟩ ∧
          (answer = some (.ok ()) ∨ ∃ e, answer = some (.error (.ofOs e)) ∧
            faults = [.sync (d.recordPath run round)])) := by
  rw [persist_eq_enter] at hp
  cases hp with
  | still => exact .inl ⟨.inl rfl, fun h => by cases h⟩
  | next hy hp =>
    cases hy with
    | refused _ e => cases hp <;> exact .inl ⟨.inl rfl, fun h => by cases h⟩
    | done =>
      rw [FileTree.perform] at hp
      rcases hmade : files.makeDirs (d.runPath run) with ⟨e | _, made⟩
      · obtain rfl := h.eq_of_makeDirs_error hmade
        rw [hmade] at hp
        cases hp <;> exact .inl ⟨.inl rfl, fun h => by cases h⟩
      · obtain ⟨hopen, hgrows⟩ := h.of_makeDirs hmade
        obtain ⟨hdir, hcases⟩ := h.makeDirs hmade
        rw [hmade] at hp
        rcases passes_enter hopen.sound hp hsingle with
          ⟨rfl, hnotok⟩ | ⟨place, part, hvacant, hpart, rfl, hanswer⟩
        · exact .inl ⟨.inr rfl, hnotok⟩
        · obtain ⟨rfl, -⟩ := hopen.resolve_record hvacant.resolve
          have hadds := hopen.adds_set hdir hvacant.resolve hvacant.lookup part
          exact .inr ⟨part, hpart, hadds.of_makeDirs hgrows hcases, hanswer⟩

/-- **A file of the round stands in the run** with this text: the run tells what is read of it
in its place among the records, or nothing at all if it is no record; and the round is not
recorded again. Who reads the run changes nothing. -/
structure Stands (d : DirectoryStore) (files : FileTree) (run : RunId) (round : Nat)
    (text : String) (told : List RoundRecord) : Prop where
  history : ∃ before after, told = before ++ after ∧
    (d.history run).run files = ((recordOf text).map fun r => before ++ r :: after, files) ∧
    (d.load run).run files = ((recordOf text).map fun r =>
      (before ++ r :: after).getLast?.map (·.state), files)
  refused : ∀ state now, (d.persist run round state now).run files =
    (.error (.alreadyExists run round), files)

/-- The root of an empty tree is open. -/
theorem isOpen_root : IsOpen ⟨"/"⟩ .empty [] where
  sound := FileTree.isSound_empty
  walk := by decide +kernel
  directory := rfl

theorem history_root : ((history ⟨"/"⟩ default).run .empty).1 = .ok [] := by rfl

/-- There any state can be recorded. -/
theorem exists_persist_root (state : RunState) (now : Instant) : ∃ files',
    (persist ⟨"/"⟩ default 12345 state now).run .empty = (.ok (), files') :=
  isOpen_root.persist_fresh ⟨by decide, by decide +kernel⟩ (by decide) (fun _ h => by cases h) rfl
    _ _

end DirectoryStore

end Roundtable

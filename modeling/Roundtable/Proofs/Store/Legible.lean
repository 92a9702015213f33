import Roundtable.Proofs.Store.Interrupted

/-!
# Records that can be written and not read

A store in a directory takes whatever it is given, and a page can be written of every state.
But not every page is read: **a record in which more than 127 containers stand one inside the
other is not** (`Roundtable.DirectoryStore.reread_eq_ok`). Since the history of a run is read
from all of its files, one such record silences the run: it has nothing to tell any more and
nothing to load, whatever else was recorded of it (`Roundtable.Store.legible`).

Four of these containers are the record, the state, the tasks and the task
(`Roundtable.RoundRecord.depth_toJson_le`). **What is left for the payload of a task is 123**,
and the payload is the planner's.
-/

namespace Roundtable

open Json

/-! ### How deep a record is -/

namespace Json

variable {n : Nat}

theorem depth_array_le {items : List Json} :
    (Json.array items).depth ≤ n + 1 ↔ ∀ v ∈ items, v.depth ≤ n := by
  rw [depth, Nat.add_le_add_iff_right]
  induction items with
  | nil => simp [depthItems]
  | cons v r ih => rw [depthItems, Nat.max_le, ih, List.forall_mem_cons]

theorem depth_object_le {fields : List (String × Json)} :
    (Json.object fields).depth ≤ n + 1 ↔ ∀ x ∈ fields, x.2.depth ≤ n := by
  rw [depth, Nat.add_le_add_iff_right]
  induction fields with
  | nil => simp [depthFields]
  | cons x r ih => rw [depthFields, Nat.max_le, ih, List.forall_mem_cons]

/-- So many lists, one inside the other. -/
def nested : Nat → Json
  | 0 => .null
  | n + 1 => .array [nested n]

theorem depth_nested (n : Nat) : (nested n).depth = n := by
  induction n with
  | zero => rfl
  | succ n ih => rw [nested, depth, depthItems, depthItems, ih, Nat.max_zero]

theorem forall_mem_optionalField {P : String × Json → Prop} {name : String} {v : Option Json} :
    (∀ x ∈ optionalField name v, P x) ↔ ∀ w ∈ v, P (name, w) := by
  cases v <;> simp [optionalField]

theorem depth_nat (m : Nat) : (Json.nat m).depth = 0 := by rw [Json.nat, depth]

end Json

theorem Task.depth_toJson_le {t : Task} {n : Nat} :
    t.toJson.depth ≤ n + 1 ↔ t.payload.depth ≤ n := by
  rw [Task.toJson, depth_object_le]
  simp [TaskId.toJson, depth]

theorem TaskResult.depth_toJson_le (r : TaskResult) (n : Nat) : r.toJson.depth ≤ n + 1 := by
  rw [TaskResult.toJson, TaskResult.timelessFields, depth_object_le]
  simp only [List.forall_mem_append, List.forall_mem_cons, forall_mem_optionalField]
  simp [TaskId.toJson, SessionId.toJson, Span.toJson, depth]

theorem RoundSummary.depth_toJson_le (m : RoundSummary) (n : Nat) : m.toJson.depth ≤ n + 1 := by
  rw [RoundSummary.toJson, depth_object_le]
  simp [depth_nat, depth]

theorem RunFailure.depth_toJson_le (f : RunFailure) (n : Nat) : f.toJson.depth ≤ n + 1 := by
  rw [RunFailure.toJson, depth_object_le]
  simp [depth]

/-- **A record is four containers deeper than the deepest payload in it.** -/
theorem RoundRecord.depth_toJson_le {r : RoundRecord} {n : Nat} :
    r.toJson.depth ≤ n + 4 ↔ ∀ t ∈ r.state.tasks, t.payload.depth ≤ n := by
  rw [RoundRecord.toJson, depth_object_le]
  simp only [List.forall_mem_cons]
  rw [RunState.toJson, depth_object_le]
  simp only [List.forall_mem_append, List.forall_mem_cons, forall_mem_optionalField,
    depth_array_le, List.forall_mem_map, Task.depth_toJson_le]
  simp [RunId.toJson, Instant.toJson, depth, depth_nat, TaskResult.depth_toJson_le,
    RoundSummary.depth_toJson_le, RunFailure.depth_toJson_le]

/-! ### Which records are read -/

/-- **All of the record but the payloads of its tasks is what a run makes**: numbers that are
what they are counted in, durations whose seconds fit in 64 bits, and times outside inserted
seconds. -/
structure RoundRecord.IsProper (r : RoundRecord) : Prop where
  round : r.round < 2 ^ 32
  recordedAt : r.recordedAt.IsRegular
  counted : r.state.IsCounted
  durations : ∀ x ∈ r.state.results, x.duration.seconds < 2 ^ 64
  startedAt : r.state.startedAt.IsRegular
  completedAt : ∀ t ∈ r.state.completedAt, t.IsRegular

/-- What can be done with each item can be done with the list. -/
theorem exists_forall₂ {α β : Type} {R : α → β → Prop} {xs : List α} :
    (∃ ys, List.Forall₂ R xs ys) ↔ ∀ x ∈ xs, ∃ y, R x y := by
  induction xs with
  | nil => simp
  | cons x xs ih =>
    rw [List.forall_mem_cons, ← ih]
    constructor
    · rintro ⟨_, _ | ⟨hxy, hxs⟩⟩
      exact ⟨⟨_, hxy⟩, _, hxs⟩
    · rintro ⟨⟨y, hxy⟩, ys, hxs⟩
      exact ⟨y :: ys, .cons hxy hxs⟩

/-- **Whether a record is read is settled by the payloads in it**: none may be deeper than 123
containers, and the numbers in them have to be in range. -/
theorem RoundRecord.IsProper.exists_reread {r : RoundRecord} (h : r.IsProper) :
    (∃ r', DirectoryStore.reread r = .ok r') ↔
      ∀ t ∈ r.state.tasks, t.payload.depth ≤ 123 ∧ ∃ v, t.payload.echo = some v := by
  simp only [DirectoryStore.reread_eq_ok, RoundRecord.depth_toJson_le (n := 123)]
  constructor
  · rintro ⟨r', hdepth, -, hread⟩ t ht
    obtain ⟨t', ht'⟩ := exists_forall₂.mp ⟨_, hread.state.tasks⟩ t ht
    exact ⟨hdepth t ht, _, ht'.payload⟩
  · intro hall
    have htasks : ∃ tasks, List.Forall₂ Task.ReadAs r.state.tasks tasks :=
      exists_forall₂.mpr fun t ht => by
        obtain ⟨-, v, hv⟩ := hall t ht
        exact ⟨{ t with payload := v }, rfl, hv⟩
    obtain ⟨tasks, htasks⟩ := htasks
    have hresults : List.Forall₂ TaskResult.ReadAs r.state.results r.state.results :=
      List.forall₂_same.mpr fun x hx => ⟨rfl, Span.ofText?_text (h.durations x hx)⟩
    have hcompleted : r.state.completedAt.map (fun t => Instant.ofText? t.text) =
        r.state.completedAt.map some :=
      Option.map_congr fun t ht => (h.completedAt t ht).ofText?_text
    have hstate : r.state.ReadAs { r.state with tasks } :=
      ⟨rfl, htasks, hresults, h.startedAt.ofText?_text, hcompleted⟩
    exact ⟨{ r with state := { r.state with tasks } }, fun t ht => (hall t ht).1,
      ⟨h.round, h.counted⟩, rfl, rfl, h.recordedAt.ofText?_text, hstate⟩

namespace Pages

/-- The specimen with so many lists in the payload of its task, one inside the other. -/
def deep (n : Nat) : RoundRecord :=
  { specimen with
    state := { specimen.state with tasks := [⟨⟨"a"⟩, "task a", "scribe", nested n⟩] } }

/-- A record that is too deep is not read. -/
theorem exists_error_deep {n : Nat} (h : 123 < n) :
    ∃ e, DirectoryStore.reread (deep n) = .error e := by
  cases hr : DirectoryStore.reread (deep n) with
  | error e => exact ⟨e, rfl⟩
  | ok r' =>
    have hdepth : (nested n).depth ≤ 123 := RoundRecord.depth_toJson_le.mp
      (DirectoryStore.reread_eq_ok.mp hr).1 _ List.mem_cons_self
    rw [depth_nested] at hdepth
    exact absurd hdepth (Nat.not_le.mpr h)

end Pages

/-! ### What a store keeps of what it took -/

namespace DirectoryStore

variable {d : DirectoryStore} {files files' made : FileTree} {base : List String}
  {run other : RunId} {round : Nat} {state : RunState} {now : Instant}
  {records : List RoundRecord}

/-- **A directory that is made for some run changes no records.** -/
theorem Keeps.of_makeDirs (h : d.Keeps files base run records)
    (hm : files.makeDirs (d.runPath other) = (.ok (), made)) : d.Keeps made base run records := by
  obtain ⟨hopen, hgrows⟩ := h.isOpen.of_makeDirs hm
  obtain ⟨-, rfl | ⟨hnone, rfl⟩⟩ := h.isOpen.makeDirs hm
  · exact h
  · refine ⟨hopen, h.sorted, ?_, fun r hr => hgrows.resolve (h.resolve r hr), fun r hr => ?_⟩
    · rw [(FileTree.children_set hnone _).2 _ (by simp), h.names]
    · have htext := h.texts r hr
      rw [FileTree.lookup_set_ne _ _, htext]
      intro heq
      rw [heq, hnone] at htext
      cases htext

/-- **A round that is refused changes no records.** -/
theorem Keeps.of_refused (h : d.Keeps files base run records) {e : StoreError}
    (hp : (d.persist other round state now).run files = (.error e, files')) :
    d.Keeps files' base run records := by
  have hpasses := FileProgram.passes_run (d.persist other round state now) files
  rw [hp] at hpasses
  rcases h.isOpen.passes_persist hpasses (Nat.zero_le 1) with
    ⟨rfl | hmade, -⟩ | ⟨_, -, -, hanswer⟩
  · exact h
  · exact h.of_makeDirs hmade
  · rcases hanswer with hnone | ⟨-, hok | ⟨_, -, hfaults⟩⟩
    · cases hnone
    · cases hok
    · cases hfaults

end DirectoryStore

namespace Store

variable {s s' : Store} {run other : RunId} {round : Nat} {state : RunState} {now : Instant}
  {records : List RoundRecord} {q : Query} {calls : List (Query × Instant)}

/-- **The records of a run that the store took** of what was asked, going by what it
answered. -/
def taken (run : RunId) : List (Query × Instant) → List Reply → List RoundRecord
  | (.persist other round state, now) :: calls, .recorded (.ok ()) :: replies =>
    if other = run then ⟨run, round, now, state⟩ :: taken run calls replies
    else taken run calls replies
  | _ :: calls, _ :: replies => taken run calls replies
  | _, _ => []

/-- **A round that is refused changes no records.** -/
theorem Keeps.of_refused (h : s.Keeps run records) {e : StoreError}
    (hp : s.persist other round state now = (.error e, s')) : s'.Keeps run records := by
  cases s with
  | memory m =>
    simp only [Store.persist] at hp
    split at hp
    · cases (Prod.mk.inj hp).1
    · rw [← (Prod.mk.inj hp).2]
      exact h
  | directory d files =>
    obtain ⟨base, h⟩ := h
    obtain ⟨files', hrun, rfl⟩ := persist_directory_eq.mp hp
    exact ⟨base, h.of_refused hrun⟩

theorem taken_cons (run : RunId) (q : Query) (now : Instant) (reply : Reply)
    (calls : List (Query × Instant)) (replies : List Reply) :
    taken run ((q, now) :: calls) (reply :: replies) =
      taken run [(q, now)] [reply] ++ taken run calls replies := by
  cases q with
  | persist other round state =>
    cases reply with
    | recorded answer =>
      cases answer with
      | error e => rfl
      | ok =>
        simp only [taken]
        split <;> rfl
    | loaded | told | listed => rfl
  | load | history | listRuns => rfl

/-- **What the store took is kept**, and nothing else comes to it. -/
theorem Keeps.ask (h : s.Keeps run records) (hq : q.IsCounted) (now : Instant) :
    ∃ records', (s.ask now q).2.Keeps run records' ∧
      ∀ r, r ∈ records' ↔ r ∈ taken run [(q, now)] [(s.ask now q).1] ∨ r ∈ records := by
  cases q with
  | load | history | listRuns => exact ⟨records, h, fun r => by simp [taken]⟩
  | persist other round state =>
    rcases hp : s.persist other round state now with ⟨answer, s'⟩
    simp only [Store.ask, hp]
    cases answer with
    | error e => exact ⟨records, h.of_refused hp, fun r => by simp [taken]⟩
    | ok =>
      by_cases hother : other = run
      · subst hother
        obtain ⟨-, -, -, hkeeps⟩ := h.persist hq hp
        refine ⟨_, hkeeps, fun r => ?_⟩
        rw [MemoryStore.mem_insertRecord]
        simp [taken]
      · exact ⟨records, h.foreign hother hp, fun r => by simp [taken, hother]⟩

/-- **What the store took is kept** from the first call to the last. -/
theorem Keeps.asks (h : s.Keeps run records) (hq : ∀ c ∈ calls, c.1.IsCounted) :
    ∃ records', (s.asks calls).2.Keeps run records' ∧
      ∀ r, r ∈ records' ↔ r ∈ taken run calls (s.asks calls).1 ∨ r ∈ records := by
  induction calls generalizing s records with
  | nil => exact ⟨records, h, fun r => by simp [taken]⟩
  | cons c calls ih =>
    obtain ⟨q, now⟩ := c
    rw [List.forall_mem_cons] at hq
    obtain ⟨mid, hmid, hmem⟩ := h.ask hq.1 now
    obtain ⟨records', hkeeps, hmem'⟩ := ih hmid hq.2
    refine ⟨records', hkeeps, fun r => ?_⟩
    dsimp only at hmem hmem'
    rw [hmem', hmem, Store.asks, taken_cons run q now _ calls, List.mem_append, or_left_comm,
      or_assoc]

theorem exists_asks_directory (d : DirectoryStore) (files : FileTree)
    (calls : List (Query × Instant)) :
    ∃ files', ((directory d files).asks calls).2 = directory d files' := by
  induction calls generalizing files with
  | nil => exact ⟨files, rfl⟩
  | cons c calls ih =>
    obtain ⟨mid, hmid⟩ := exists_ask_directory d files c.2 c.1
    rw [Store.asks, hmid]
    exact ih mid

/-! ### What can be told of a run -/

/-- **Whether a run can be told of is settled by all that was recorded of it.** In a directory
where it had nothing to tell, a run of which something was recorded has a history, and a last
state to load, exactly if each of its records is read: the payloads of its tasks may not be
deeper than 123 containers. Nothing of the kind is asked of what is recorded. -/
theorem legible {base : String} {files files' : FileTree} (hs : files.IsSound)
    (hopen : openDirectory base files = (.ok s, files')) (hnew : s.history run = .ok [])
    (hcounted : ∀ c ∈ calls, c.1.IsCounted) (hsome : taken run calls (s.asks calls).1 ≠ []) :
    ((∃ told, (s.asks calls).2.history run = .ok told) ↔
      ∀ r ∈ taken run calls (s.asks calls).1, ∃ r', DirectoryStore.reread r = .ok r') ∧
    ((∃ last, (s.asks calls).2.load run = .ok last) ↔
      ∀ r ∈ taken run calls (s.asks calls).1, ∃ r', DirectoryStore.reread r = .ok r') ∧
    ((∀ r ∈ taken run calls (s.asks calls).1, r.IsProper) →
      ((∃ told, (s.asks calls).2.history run = .ok told) ↔
        ∀ r ∈ taken run calls (s.asks calls).1, ∀ t ∈ r.state.tasks,
          t.payload.depth ≤ 123 ∧ ∃ v, t.payload.echo = some v)) := by
  have hkeeps := keeps_nil (isOpen_of_openDirectory hs hopen) hnew
  obtain ⟨-, rfl⟩ := eq_of_openDirectory hopen
  obtain ⟨records, hkept, hmem⟩ := hkeeps.asks hcounted
  obtain ⟨last, hlast⟩ := exists_asks_directory ⟨base⟩ files' calls
  rw [hlast] at hkept ⊢
  have hmem' : ∀ r, r ∈ records ↔ r ∈ taken run calls ((directory ⟨base⟩ files').asks calls).1 :=
    fun r => by rw [hmem, List.mem_nil_iff, or_false]
  generalize taken run calls ((directory ⟨base⟩ files').asks calls).1 = held at *
  have hne : records ≠ [] := by
    obtain ⟨r, hr⟩ := List.exists_mem_of_ne_nil held hsome
    exact List.ne_nil_of_mem ((hmem' r).mpr hr)
  have hhistory : (∃ told, (directory ⟨base⟩ last).history run = .ok told) ↔
      ∀ r ∈ held, ∃ r', DirectoryStore.reread r = .ok r' := by
    simp only [hkept.history hne, ← hmem']
    exact exists_forall₂
  refine ⟨hhistory, ?_, fun hproper => ?_⟩
  · rw [← hhistory, load_eq]
    cases (directory ⟨base⟩ last).history run with
    | error e => simp [Except.map]
    | ok told => simp [Except.map]
  · rw [hhistory]
    exact forall₂_congr fun r hr => (hproper r hr).exists_reread

/-- The specimen is recorded. -/
def specimenCall : List (Query × Instant) :=
  [(.persist default 12345 Pages.specimen.state, Pages.specimen.recordedAt)]

/-- What is recorded in an empty directory can be told of and loaded there. -/
theorem legible_specimen :
    ∃ s kept, openDirectory "/" .empty = (.ok s, .empty) ∧ s.history default = .ok [] ∧
      s.asks specimenCall = ([.recorded (.ok ())], kept) ∧
      (∃ told, kept.history default = .ok told) ∧ ∃ last, kept.load default = .ok last := by
  have hopen : openDirectory "/" .empty = (.ok (.directory ⟨"/"⟩ .empty), .empty) := by rfl
  obtain ⟨files', hp⟩ := DirectoryStore.exists_persist_root Pages.specimen.state
    Pages.specimen.recordedAt
  have hcounted : ∀ c ∈ specimenCall, c.1.IsCounted := by
    rw [specimenCall, List.forall_mem_singleton, Query.IsCounted]
    decide
  have hasks : (directory ⟨"/"⟩ .empty).asks specimenCall =
      ([.recorded (.ok ())], .directory ⟨"/"⟩ files') := by
    simp only [specimenCall, Store.asks, Store.ask, Store.persist, hp]
  have htaken : taken default specimenCall ((directory ⟨"/"⟩ .empty).asks specimenCall).1 =
      [Pages.specimen] := by
    rw [hasks]
    exact if_pos rfl
  have hsome : taken default specimenCall ((directory ⟨"/"⟩ .empty).asks specimenCall).1 ≠ [] := by
    rw [htaken]
    exact List.cons_ne_nil _ _
  obtain ⟨htold, hloaded, -⟩ := legible FileTree.isSound_empty hopen DirectoryStore.history_root
    hcounted hsome
  rw [htaken, List.forall_mem_singleton, hasks] at htold hloaded
  have hread : ∃ r', DirectoryStore.reread Pages.specimen = .ok r' :=
    ⟨_, Pages.isRegular_specimen.reread_eq (by decide)⟩
  exact ⟨_, _, hopen, DirectoryStore.history_root, hasks, htold.mpr hread, hloaded.mpr hread⟩

/-- **What was taken and cannot be read.** The specimen with a payload of 124 lists, one inside
the other, is recorded in an empty directory, and then its run has no history and nothing can
be loaded of it. -/
theorem legible_deep :
    ∃ s kept, openDirectory "/" .empty = (.ok s, .empty) ∧
      s.persist default 12345 (Pages.deep 124).state Pages.specimen.recordedAt = (.ok (), kept) ∧
      (∃ e, kept.history default = .error e) ∧ ∃ e, kept.load default = .error e := by
  have hopen : openDirectory "/" .empty = (.ok (.directory ⟨"/"⟩ .empty), .empty) := by rfl
  obtain ⟨files', hp⟩ := DirectoryStore.exists_persist_root (Pages.deep 124).state
    Pages.specimen.recordedAt
  have hpersist : (directory ⟨"/"⟩ .empty).persist default 12345 (Pages.deep 124).state
      Pages.specimen.recordedAt = (.ok (), directory ⟨"/"⟩ files') := by
    simp only [Store.persist, hp]
  obtain ⟨-, hkept⟩ := (DirectoryStore.keeps_nil DirectoryStore.isOpen_root
    DirectoryStore.history_root).persist (by decide) hp
  obtain ⟨e, he⟩ := Pages.exists_error_deep (by decide : 123 < 124)
  have hhistory : (directory ⟨"/"⟩ files').history default = .error e := by
    rw [Store.history, hkept.history (List.cons_ne_nil _ _), MemoryStore.insertRecord,
      List.mapM_cons]
    exact congrArg (· >>= _) he
  refine ⟨_, _, hopen, hpersist, ⟨e, hhistory⟩, e, ?_⟩
  rw [load_eq, hhistory]
  rfl

end Store

end Roundtable

import Roundtable.Proofs.Store.Pages
import Roundtable.Proofs.Store.Register
import Roundtable.Proofs.Store.Twins

/-!
# One register in both stores

A store in memory and a store in a directory are one and the same to who asks them
(`Roundtable.Store.one_register`): **both answer as a register does**, and so they answer
alike but for the times, whatever runs and rounds are recorded in whatever order.

What they keep has nothing in common but `Roundtable.Store.Embodies`: of every run the
records that the register has of it, and among the runs those that have any. In memory both
are in order as they are put there. **In a directory both are found again by their names**:
a round by the number in the name of its file, however many places it takes, and a run by
the name of its directory, which stands in the base and is no file.
-/

namespace Roundtable

open Store

/-! ### Names that the system takes -/

theorem utf8ByteSize_ofList_le (s : List Char) : (String.ofList s).utf8ByteSize ≤ 4 * s.length := by
  rw [String.utf8ByteSize_ofList]
  induction s with
  | nil => exact Nat.le_refl 0
  | cons c r ih =>
    have hc := c.utf8Size_le_four
    rw [String.utf8Len, List.length_cons]
    omega

namespace DirectoryStore

variable {d : DirectoryStore} {files files' : FileTree} {base base' : List String}
  {run other : RunId} {round : Nat} {state : RunState} {now : Instant}
  {records : List RoundRecord}

/-- The name of a record is never too long. -/
theorem utf8ByteSize_fileName_le (h : round < 2 ^ 32) :
    (fileName round).utf8ByteSize ≤ FileTree.longestName := by
  have hlen : (Numeral.padded 4 round).length ≤ 10 := by
    rw [Numeral.length_padded_eq]
    exact Nat.max_le.mpr ⟨by decide, Numeral.length_ofNat_le (by decide) (by omega)⟩
  have hstart : nameStart.length = 6 := by decide
  have hend : nameEnd.length = 5 := by decide
  refine Nat.le_trans (utf8ByteSize_ofList_le _) ?_
  rw [List.length_append, List.length_append, FileTree.longestName]
  omega

/-- **The system takes the name of the run**, and the path of its directory. -/
structure AcceptsRun (d : DirectoryStore) (run : RunId) : Prop where
  name : run.text.utf8ByteSize ≤ FileTree.longestName
  path : FileTree.checkPath (d.runPath run) = .ok ()

/-- **The system takes the name of the run**, and the path of the round's file. -/
structure Accepts (d : DirectoryStore) (run : RunId) (round : Nat) : Prop where
  name : run.text.utf8ByteSize ≤ FileTree.longestName
  path : FileTree.checkPath (d.recordPath run round) = .ok ()

theorem Accepts.acceptsRun (h : d.Accepts run round) : d.AcceptsRun run :=
  ⟨h.name, FileTree.checkPath_join (isName_fileName round) (isEmpty_runPath d run) h.path⟩

/-- The base of a store stands in one place. -/
theorem IsOpen.base_eq (h : d.IsOpen files base) (h' : d.IsOpen files base') : base' = base :=
  Except.ok.inj (h'.walk.symm.trans h.walk)

theorem IsOpen.resolve_run_eq (h : d.IsOpen files base) (ha : d.AcceptsRun run) :
    files.resolve (d.runPath run) = .ok (base ++ [run.text]) := by
  rw [(h.resolve_eq run run.isName).1, ha.path]
  exact FileTree.walk_cons.mpr ⟨h.directory, _, FileTree.stepTo_eq run.isName ha.name base, rfl⟩

theorem IsOpen.resolve_record_eq (h : d.IsOpen files base) (ha : d.Accepts run round)
    (hround : round < 2 ^ 32) (hdir : files.lookup (base ++ [run.text]) = some .directory) :
    files.resolve (d.recordPath run round) = .ok (base ++ [run.text] ++ [fileName round]) := by
  have hname := isName_fileName round
  have hsize := utf8ByteSize_fileName_le hround
  rw [recordPath, (h.resolve_eq run hname).2, ← recordPath, ha.path]
  exact FileTree.walk_cons.mpr ⟨h.directory, _, FileTree.stepTo_eq run.isName ha.name base,
    FileTree.walk_cons.mpr ⟨hdir, _, FileTree.stepTo_eq hname hsize _, rfl⟩⟩

/-! ### Rounds in a directory -/

/-- **A round is recorded where nothing stands**, if no file is in the way of the run's
directory. -/
theorem IsOpen.persist_fresh (h : d.IsOpen files base) (ha : d.Accepts run round)
    (hround : round < 2 ^ 32)
    (hnofile : ∀ text, files.lookup (base ++ [run.text]) ≠ some (.file text))
    (hnew : files.lookup (base ++ [run.text] ++ [fileName round]) = none) (state : RunState)
    (now : Instant) : ∃ files', (d.persist run round state now).run files = (.ok (), files') := by
  obtain ⟨made, hmade⟩ : ∃ made, files.makeDirs (d.runPath run) = (.ok (), made) := by
    rw [h.makeDirs_eq, ha.acceptsRun.path]
    simp only [FileTree.makeAlong, FileTree.stepTo_eq run.isName ha.name]
    split
    · exact ⟨_, rfl⟩
    · next text hfile => exact absurd hfile (hnofile text)
    · exact ⟨_, rfl⟩
  obtain ⟨hopen, -⟩ := h.of_makeDirs hmade
  obtain ⟨hdir, hcases⟩ := h.makeDirs hmade
  have hresolve := hopen.resolve_record_eq ha hround hdir
  have hnone : made.lookup (base ++ [run.text] ++ [fileName round]) = none := by
    rcases hcases with rfl | ⟨-, rfl⟩
    · exact hnew
    · rw [FileTree.lookup_set_ne (by simp), hnew]
  have hne : base ++ [run.text] ++ [fileName round] ≠ [] := by simp
  have hgrows : made.Grows (made.set (base ++ [run.text] ++ [fileName round]) (.file "")) := by
    refine FileTree.grows_set hne fun hd => ?_
    rw [hnone] at hd
    cases hd
  have hcreated : made.createNew (d.recordPath run round) = (.ok (), _) :=
    FileTree.createNew_eq_ok.mpr
      ⟨_, hresolve, hnone, by rw [List.dropLast_concat]; exact hdir, rfl⟩
  exact ⟨_, run_persist hmade hcreated
    (FileTree.write_eq (hgrows.resolve hresolve) (FileTree.lookup_set_self hne _))⟩

/-- Where no record of a round is kept, no file of that name stands. -/
theorem Keeps.lookup_eq_none (h : d.Keeps files base run records) (hround : round < 2 ^ 32)
    (hnew : ∀ r ∈ records, r.round ≠ round) :
    files.lookup (base ++ [run.text] ++ [fileName round]) = none := by
  cases hl : files.lookup (base ++ [run.text] ++ [fileName round]) with
  | none => rfl
  | some n =>
    have hname : (round, fileName round) ∈ recordNames (files.children (base ++ [run.text])) := by
      refine List.mem_mergeSort.mpr (List.mem_filterMap.mpr ⟨_, FileTree.mem_children hl, ?_⟩)
      dsimp only
      rw [roundOf?_fileName hround, Option.map_some]
    rw [h.names] at hname
    obtain ⟨r, hr, heq⟩ := List.mem_map.mp hname
    exact absurd (congrArg Prod.fst heq) (hnew r hr)

/-- Trees that hold the same of a run keep the same records of it. -/
theorem Twin.keeps {t t₁ : FileTree} (h : d.Twin base run t t₁)
    (hk : d.Keeps t₁ base run records) : d.Keeps t base run records := by
  refine ⟨h.isOpen, hk.sorted, by rw [h.children, hk.names], fun r hr => ?_, fun r hr => ?_⟩
  · exact (h.resolve (isName_fileName r.round)).2.trans (hk.resolve r hr)
  · have htext := hk.texts r hr
    rw [List.append_assoc] at htext ⊢
    exact (h.lookup _).trans htext

/-- A run without records has nothing to tell. -/
theorem Keeps.eq_nil_of_history (h : d.Keeps files base run []) {told : List RoundRecord}
    (hh : ((d.history run).run files).1 = .ok told) : told = [] := by
  have hread := h.isOpen.mapM_recordAt hh
  rw [h.names] at hread
  exact (Except.ok.inj hread).symm

/-! ### Runs in a directory -/

/-- **The directories in the base are these runs**, and nothing else stands there. -/
structure Lists (d : DirectoryStore) (files : FileTree) (base : List String)
    (runs : List RunId) : Prop where
  isOpen : d.IsOpen files base
  resolve : files.resolve d.base = .ok base
  children : files.children base = runs.map fun run => (run.text, true)
  nodup : runs.Nodup

variable {runs : List RunId}

/-- What stands in the base is the directory of a run that is listed. -/
theorem Lists.of_lookup (h : d.Lists files base runs) {n : FileNode}
    (hl : files.lookup (base ++ [run.text]) = some n) : n = .directory ∧ run ∈ runs := by
  have hmem := FileTree.mem_children hl
  rw [h.children] at hmem
  obtain ⟨r, hr, heq⟩ := List.mem_map.mp hmem
  obtain ⟨htext, hdir⟩ := Prod.mk.inj heq
  exact ⟨beq_iff_eq.mp hdir.symm, RunId.eq_of_text htext ▸ hr⟩

/-- **A run is listed once it has a record.** -/
theorem Lists.persist (h : d.Lists files base runs)
    (hp : (d.persist run round state now).run files = (.ok (), files')) :
    ∃ runs', d.Lists files' base runs' ∧ ∀ r, r ∈ runs' ↔ r = run ∨ r ∈ runs := by
  have hgains := h.isOpen.persist hp
  obtain ⟨made, hopen, hgrows, hdir, hmade, -, hnone, rfl⟩ := h.isOpen.persist_eq hp
  have hresolve := hgains.grows.resolve h.resolve
  -- The file goes into the directory of the run and leaves the base as it is.
  have hbase : (made.set (base ++ [run.text] ++ [fileName round])
      (.file (recordText ⟨run, round, now, state⟩))).children base = made.children base :=
    (FileTree.children_set hnone _).2 _ (by simp)
  rcases hmade with rfl | ⟨hnew, rfl⟩
  · have hrun := (h.of_lookup hdir).2
    refine ⟨runs, ⟨hgains.isOpen, hresolve, hbase.trans h.children, h.nodup⟩, fun r => ?_⟩
    constructor
    · exact .inr
    · rintro (rfl | hr)
      · exact hrun
      · exact hr
  · have hrun : run ∉ runs := by
      intro hrun
      have hmem : (run.text, true) ∈ files.children base := by
        rw [h.children]
        exact List.mem_map_of_mem hrun
      obtain ⟨n, hn⟩ := FileTree.exists_of_mem_children hmem
      rw [hnew] at hn
      cases hn
    refine ⟨runs ++ [run], ⟨hgains.isOpen, hresolve, ?_, ?_⟩, fun r => ?_⟩
    · rw [hbase, (FileTree.children_set hnew _).1, h.children, List.map_append]
      rfl
    · exact List.nodup_append.mpr ⟨h.nodup, List.nodup_singleton _, fun a ha b hb heq =>
        hrun (List.mem_singleton.mp hb ▸ heq ▸ ha)⟩
    · rw [List.mem_append, List.mem_singleton, or_comm]

end DirectoryStore

/-! ### Runs in memory -/

namespace MemoryStore

variable {run : RunId} {records : List RoundRecord} {runs : List (RunId × List RoundRecord)}

theorem mem_keys_setRun {r : RunId} :
    r ∈ (setRun run records runs).map (·.1) ↔ r = run ∨ r ∈ runs.map (·.1) := by
  induction runs with
  | nil => simp [setRun]
  | cons x rest ih =>
    obtain ⟨q, rs⟩ := x
    rw [setRun]
    split
    · next heq => simp [heq]
    · split
      · simp
      · rw [List.map_cons, List.map_cons, List.mem_cons, ih, List.mem_cons, or_left_comm]

/-- Runs stay in the order of their names. -/
theorem pairwise_keys_setRun (h : (runs.map (·.1)).Pairwise (·.text < ·.text)) :
    ((setRun run records runs).map (·.1)).Pairwise (·.text < ·.text) := by
  induction runs with
  | nil => exact List.pairwise_singleton _ _
  | cons x rest ih =>
    obtain ⟨q, rs⟩ := x
    obtain ⟨hq, hrest⟩ := List.pairwise_cons.mp h
    rw [setRun]
    split
    · next heq =>
      subst heq
      exact h
    · next hne =>
      split
      · next hlt =>
        refine List.pairwise_cons.mpr ⟨fun r hr => ?_, h⟩
        rcases List.mem_cons.mp hr with rfl | hr
        · exact hlt
        · exact hlt.trans (hq r hr)
      · next hge =>
        refine List.pairwise_cons.mpr ⟨fun r hr => ?_, ih hrest⟩
        rcases mem_keys_setRun.mp hr with rfl | hr
        · exact lt_of_le_of_ne (not_lt.mp hge) fun htext => hne (RunId.eq_of_text htext).symm
        · exact hq r hr

end MemoryStore

/-! ### Stores of either kind -/

namespace Store

variable {s s' : Store} {run other : RunId} {round : Nat} {state : RunState} {now : Instant}
  {records : List RoundRecord} {runs : List RunId}

/-- **The runs in the store are these.** -/
def Lists (s : Store) (runs : List RunId) : Prop :=
  match s with
  | memory m => m.runs.map (·.1) = runs ∧ runs.Pairwise (·.text < ·.text)
  | directory d files => ∃ base, d.Lists files base runs

/-- The number of the round is one. -/
def Query.IsCounted : Query → Prop
  | .persist _ round _ => round < 2 ^ 32
  | .load _ | .history _ | .listRuns => True

/-- **The store admits what is asked at `now`.** In a directory the system has to take the
names, and a record that is written has to be read as itself. -/
def Admits (s : Store) (now : Instant) (q : Query) : Prop :=
  match s, q with
  | memory _, _ => True
  | directory d files, .persist run round state => d.Accepts run round ∧
    (((d.persist run round state now).run files).1 = .ok () →
      DirectoryStore.reread ⟨run, round, now, state⟩ = .ok ⟨run, round, now, state⟩)
  | directory d _, .load run | directory d _, .history run => d.AcceptsRun run
  | directory .., .listRuns => True

/-- The store admits one thing after the other. -/
def AdmitsAll (s : Store) : List (Query × Instant) → Prop
  | [] => True
  | (q, now) :: calls => s.Admits now q ∧ (s.ask now q).2.AdmitsAll calls

theorem exists_ask_memory (m : MemoryStore) (now : Instant) (q : Query) :
    ∃ m', ((memory m).ask now q).2 = memory m' := by
  cases q with
  | persist run round state =>
    simp only [ask, persist]
    split
    · exact ⟨_, rfl⟩
    · exact ⟨m, rfl⟩
  | load | history | listRuns => exact ⟨m, rfl⟩

/-- Memory admits everything. -/
theorem admitsAll_memory (m : MemoryStore) (calls : List (Query × Instant)) :
    (memory m).AdmitsAll calls := by
  induction calls generalizing m with
  | nil => trivial
  | cons c calls ih =>
    obtain ⟨m', hm⟩ := exists_ask_memory m c.2 c.1
    refine ⟨trivial, ?_⟩
    rw [hm]
    exact ih m'

theorem exists_ask_directory (d : DirectoryStore) (files : FileTree) (now : Instant) (q : Query) :
    ∃ files', ((directory d files).ask now q).2 = directory d files' := by
  cases q with
  | persist run round state => exact ⟨_, rfl⟩
  | load | history | listRuns => exact ⟨files, rfl⟩

/-- A directory admits what fits whatever is in it. -/
theorem admitsAll_directory {d : DirectoryStore} {calls : List (Query × Instant)}
    (h : ∀ c ∈ calls, ∀ files, (directory d files).Admits c.2 c.1) (files : FileTree) :
    (directory d files).AdmitsAll calls := by
  induction calls generalizing files with
  | nil => trivial
  | cons c calls ih =>
    rw [List.forall_mem_cons] at h
    obtain ⟨files', hfiles⟩ := exists_ask_directory d files c.2 c.1
    refine ⟨h.1 files, ?_⟩
    rw [hfiles]
    exact ih h.2 files'

/-- **A round is recorded where none is kept.** -/
theorem Lists.persist_fresh (h : s.Lists runs) (hk : s.Keeps run records) (hround : round < 2 ^ 32)
    (ha : s.Admits now (.persist run round state)) (hnew : ∀ r ∈ records, r.round ≠ round) :
    ∃ s', s.persist run round state now = (.ok (), s') := by
  cases s with
  | memory m =>
    exact ⟨_, persist_memory_eq_ok.mpr ⟨hk.1.symm ▸ hnew, rfl⟩⟩
  | directory d files =>
    obtain ⟨base, h⟩ := h
    obtain ⟨base', hk⟩ := hk
    obtain rfl := h.isOpen.base_eq hk.isOpen
    obtain ⟨files', hp⟩ := h.isOpen.persist_fresh ha.1 hround
      (fun text hfile => by cases (h.of_lookup hfile).1) (hk.lookup_eq_none hround hnew) state now
    exact ⟨_, persist_directory_eq.mpr ⟨files', hp, rfl⟩⟩

/-- **What is recorded of another run changes nothing.** -/
theorem Keeps.foreign (h : s.Keeps run records) (hne : other ≠ run)
    (hp : s.persist other round state now = (.ok (), s')) : s'.Keeps run records := by
  cases s with
  | memory m =>
    obtain ⟨-, rfl⟩ := persist_memory_eq_ok.mp hp
    refine ⟨?_, h.2⟩
    rw [MemoryStore.history, MemoryStore.lookup_setRun_ne (Ne.symm hne)]
    exact h.1
  | directory d files =>
    obtain ⟨base, h⟩ := h
    obtain ⟨files', hrun, rfl⟩ := persist_directory_eq.mp hp
    have hself : d.Twin base run files files := .refl h.isOpen
    have htwin := hself.foreign (mt RunId.eq_of_text hne) hrun
    exact ⟨base, htwin.keeps h⟩

/-- **A run is listed once it has a record.** -/
theorem Lists.persist (h : s.Lists runs) (hp : s.persist run round state now = (.ok (), s')) :
    ∃ runs', s'.Lists runs' ∧ ∀ r, r ∈ runs' ↔ r = run ∨ r ∈ runs := by
  cases s with
  | memory m =>
    obtain ⟨rfl, hsorted⟩ := h
    obtain ⟨-, rfl⟩ := persist_memory_eq_ok.mp hp
    exact ⟨_, ⟨rfl, MemoryStore.pairwise_keys_setRun hsorted⟩,
      fun r => MemoryStore.mem_keys_setRun⟩
  | directory d files =>
    obtain ⟨base, h⟩ := h
    obtain ⟨files', hrun, rfl⟩ := persist_directory_eq.mp hp
    obtain ⟨runs', h', hmem⟩ := h.persist hrun
    exact ⟨runs', ⟨base, h'⟩, hmem⟩

/-- **The runs are listed in the order of their names**, each once. -/
theorem Lists.listRuns_eq (h : s.Lists runs) :
    ∃ ids, s.listRuns = .ok ids ∧ ids.Pairwise (·.text < ·.text) ∧ ids.Perm runs := by
  cases s with
  | memory m =>
    obtain ⟨rfl, hsorted⟩ := h
    exact ⟨_, rfl, hsorted, .refl _⟩
  | directory d files =>
    obtain ⟨base, h⟩ := h
    have hids : (files.children base).filterMap (fun x =>
        if x.2 then (RunId.ofText x.1).toOption else none) = runs := by
      rw [h.children, List.filterMap_map]
      refine (List.filterMap_congr fun run _ => ?_).trans (List.filterMap_some)
      simp only [Function.comp_apply, if_true, RunId.ofText_text]
      rfl
    refine ⟨runs.mergeSort fun a b => !(b.text < a.text), ?_, ?_, List.mergeSort_perm _ _⟩
    · have hlist : files.list d.base = .ok (files.children base) :=
        FileTree.list_eq_ok.mpr ⟨_, h.resolve, h.isOpen.directory, rfl⟩
      simp only [Store.listRuns, DirectoryStore.listRuns, bind, FileProgram.op, FileProgram.bind,
        FileProgram.run, FileTree.perform, hlist]
      exact congrArg (fun ids => Except.ok (ids.mergeSort fun a b => !(b.text < a.text))) hids
    · have hle : ∀ a b : RunId, (!decide (b.text < a.text)) = true ↔ a.text ≤ b.text := by
        intro a b
        rw [Bool.not_eq_true', decide_eq_false_iff_not, not_lt]
      have hsorted := @List.pairwise_mergeSort RunId (fun a b => !(b.text < a.text))
        (fun a b c hab hbc => (hle a c).mpr (((hle a b).mp hab).trans ((hle b c).mp hbc)))
        (fun a b => by
          rw [Bool.or_eq_true, hle, hle]
          exact le_total _ _) runs
      have hnodup := (List.mergeSort_perm runs fun a b => !(b.text < a.text)).nodup_iff.mpr h.nodup
      refine (hsorted.and hnodup).imp fun {a b} hab => ?_
      exact lt_of_le_of_ne ((hle a b).mp hab.1) fun heq => hab.2 (RunId.eq_of_text heq)

/-! ### Stores and registers -/

/-- **The store holds what the register holds**: of every run its records, each of which is
read as itself, and of all runs those that have one. -/
structure Embodies (s : Store) (m : Register) : Prop where
  keeps : ∀ run, ∃ records, s.Keeps run records ∧ m.Lists run records
  lists : ∃ runs, s.Lists runs ∧ ∀ run, run ∈ runs ↔ ∃ round e, m run round = some e
  reread : ∀ run round e, m run round = some e →
    s.reread ⟨run, round, e.recordedAt, e.state⟩ = .ok ⟨run, round, e.recordedAt, e.state⟩

variable {m : Register} {q : Query} {calls more : List (Query × Instant)}

/-- **A round that is recorded is entered.** -/
theorem Embodies.persist (h : s.Embodies m) (hround : round < 2 ^ 32)
    (hnew : m run round = none) (hp : s.persist run round state now = (.ok (), s'))
    (hread : s.reread ⟨run, round, now, state⟩ = .ok ⟨run, round, now, state⟩) :
    s'.Embodies (m.insert run round ⟨now, state⟩) := by
  obtain ⟨records, hkeeps, hrecords⟩ := h.keeps run
  obtain ⟨-, hsame, -, hkeeps'⟩ := hkeeps.persist hround hp
  refine ⟨fun r => ?_, ?_, fun r n e he => ?_⟩
  · by_cases hr : r = run
    · subst hr
      exact ⟨_, hkeeps', hrecords.insert hnew now state⟩
    · obtain ⟨records', hother, hlists⟩ := h.keeps r
      exact ⟨records', hother.foreign (Ne.symm hr) hp, hlists.insert_other hr round _⟩
  · obtain ⟨runs, hruns, hmem⟩ := h.lists
    obtain ⟨runs', hruns', hmem'⟩ := hruns.persist hp
    refine ⟨runs', hruns', fun r => ?_⟩
    rw [hmem', hmem]
    constructor
    · rintro (rfl | ⟨n, e, he⟩)
      · exact ⟨round, _, Register.insert_self ..⟩
      · exact ⟨n, e, (Register.insert_eq_some hnew).mpr (.inr he)⟩
    · rintro ⟨n, e, he⟩
      rcases (Register.insert_eq_some hnew).mp he with ⟨rfl, -, -⟩ | he
      · exact .inl rfl
      · exact .inr ⟨n, e, he⟩
  · rw [hsame]
    rcases (Register.insert_eq_some hnew).mp he with ⟨rfl, rfl, rfl⟩ | he
    · exact hread
    · exact h.reread r n e he

/-- A run with entries is told of. -/
theorem Embodies.history_eq (h : s.Embodies m) (hk : s.Keeps run records)
    (hl : m.Lists run records) (hne : records ≠ []) : s.history run = .ok records := by
  refine (hk.history hne).mpr (List.forall₂_same.mpr fun r hr => ?_)
  obtain ⟨rfl, he⟩ := (hl.mem r).mp hr
  exact h.reread _ _ _ he

/-- **What the store tells of a run are its entries.** -/
theorem Embodies.history (h : s.Embodies m) (ha : s.Admits now (.history run)) :
    ∃ records, s.history run = .ok records ∧ m.Lists run records := by
  obtain ⟨records, hkeeps, hrecords⟩ := h.keeps run
  refine ⟨records, ?_, hrecords⟩
  rcases records with _ | ⟨r, rs⟩
  · cases s with
    | memory m => exact congrArg _ hkeeps.1
    | directory d files =>
      -- A run without entries has no directory, and is read as one that was never there.
      obtain ⟨runs, ⟨base, hruns⟩, hmem⟩ := h.lists
      have hnone : files.lookup (base ++ [run.text]) = none := by
        cases hl : files.lookup (base ++ [run.text]) with
        | none => rfl
        | some n =>
          obtain ⟨round, e, he⟩ := (hmem run).mp (hruns.of_lookup hl).2
          cases (hrecords.mem ⟨run, round, e.recordedAt, e.state⟩).mpr ⟨rfl, he⟩
      have hlist : files.list (d.runPath run) = .error .noEntry := by
        rw [FileTree.list_eq, hruns.isOpen.resolve_run_eq ha]
        simp only [Except.bind, hnone]
      simp only [Store.history, DirectoryStore.history, bind, FileProgram.op, FileProgram.bind,
        FileProgram.run, FileTree.perform, hlist]
      rfl
  · exact h.history_eq hkeeps hrecords (List.cons_ne_nil r rs)

/-- A record that is told of is an entry. -/
theorem Embodies.mem_history (h : s.Embodies m) {told : List RoundRecord} {r : RoundRecord}
    (hh : s.history run = .ok told) (hr : r ∈ told) :
    r.runId = run ∧ m run r.round = some r.entry := by
  obtain ⟨records, hkeeps, hrecords⟩ := h.keeps run
  rcases records with _ | ⟨x, xs⟩
  · have hnil : told = [] := by
      cases s with
      | memory _ => exact (Except.ok.inj hh).symm.trans hkeeps.1
      | directory d files =>
        obtain ⟨base, hkeeps⟩ := hkeeps
        exact hkeeps.eq_nil_of_history hh
    rw [hnil] at hr
    cases hr
  · rw [h.history_eq hkeeps hrecords (List.cons_ne_nil x xs)] at hh
    exact (hrecords.mem r).mp (Except.ok.inj hh ▸ hr)

/-- **The store answers as the register does**, and holds then what the register holds. -/
theorem Embodies.ask (h : s.Embodies m) (hq : q.IsCounted) (ha : s.Admits now q) :
    ∃ m', m.Answers q now (s.ask now q).1 m' ∧ (s.ask now q).2.Embodies m' := by
  cases q with
  | persist run round state =>
    obtain ⟨records, hkeeps, hrecords⟩ := h.keeps run
    cases hm : m run round with
    | none =>
      have hnew : ∀ r ∈ records, r.round ≠ round := by
        rintro r hr rfl
        have he := ((hrecords.mem r).mp hr).2
        rw [hm] at he
        cases he
      obtain ⟨runs, hruns, -⟩ := h.lists
      obtain ⟨s', hp⟩ := hruns.persist_fresh hkeeps hq ha hnew
      have hread : s.reread ⟨run, round, now, state⟩ = .ok ⟨run, round, now, state⟩ := by
        cases s with
        | memory _ => rfl
        | directory d files => exact ha.2 (congrArg Prod.fst hp)
      rw [Store.ask, hp]
      exact ⟨_, .recorded hm, h.persist hq hm hp hread⟩
    | some e =>
      have hr := (hrecords.mem ⟨run, round, e.recordedAt, e.state⟩).mpr ⟨rfl, hm⟩
      rw [Store.ask, hkeeps.persist_again hr state now]
      exact ⟨m, .refused hm, h⟩
  | load run =>
    have hadmits : s.Admits now (.history run) := by cases s <;> exact ha
    obtain ⟨records, htold, hrecords⟩ := h.history hadmits
    rw [Store.ask, load_eq, htold]
    exact ⟨m, hrecords.load now, h⟩
  | history run =>
    obtain ⟨records, htold, hrecords⟩ := h.history ha
    rw [Store.ask, htold]
    exact ⟨m, .told hrecords, h⟩
  | listRuns =>
    obtain ⟨runs, hruns, hmem⟩ := h.lists
    obtain ⟨ids, hids, hsorted, hperm⟩ := hruns.listRuns_eq
    rw [Store.ask, hids]
    exact ⟨m, .listed hsorted fun run => hperm.mem_iff.trans (hmem run), h⟩

/-- **The store serves as a register does**, from the first call to the last. -/
theorem Embodies.asks (h : s.Embodies m) (hq : ∀ c ∈ calls, c.1.IsCounted)
    (ha : s.AdmitsAll calls) :
    ∃ m', m.Serves calls (s.asks calls).1 m' ∧ (s.asks calls).2.Embodies m' := by
  induction calls generalizing s m with
  | nil => exact ⟨m, .nil, h⟩
  | cons c calls ih =>
    rw [List.forall_mem_cons] at hq
    obtain ⟨m₁, hanswer, h₁⟩ := h.ask hq.1 ha.1
    obtain ⟨m', hserves, h'⟩ := ih h₁ hq.2 ha.2
    exact ⟨m', .cons hanswer hserves, h'⟩

theorem asks_append (s : Store) (calls more : List (Query × Instant)) :
    (s.asks (calls ++ more)).2 = ((s.asks calls).2.asks more).2 := by
  induction calls generalizing s with
  | nil => rfl
  | cons c calls ih => exact ih _

theorem admitsAll_append :
    s.AdmitsAll (calls ++ more) ↔ s.AdmitsAll calls ∧ (s.asks calls).2.AdmitsAll more := by
  induction calls generalizing s with
  | nil => exact (iff_of_eq (true_and _)).symm
  | cons c calls ih => rw [List.cons_append, AdmitsAll, AdmitsAll, ih, and_assoc, asks]

/-- **No record is changed or taken away**: what is told of a run at some time is still told
of it in the end. -/
def NeverForgets (s : Store) (calls : List (Query × Instant)) : Prop :=
  ∀ before after run told r, before ++ after = calls →
    (s.asks before).2.history run = .ok told → r ∈ told →
      ∃ told', (s.asks calls).2.history run = .ok told' ∧ r ∈ told'

theorem Embodies.neverForgets (h : s.Embodies m) (hq : ∀ c ∈ calls, c.1.IsCounted)
    (ha : s.AdmitsAll calls) : s.NeverForgets calls := by
  rintro before after run told r rfl htold hr
  rw [List.forall_mem_append] at hq
  rw [admitsAll_append] at ha
  obtain ⟨m₁, -, h₁⟩ := h.asks hq.1 ha.1
  obtain ⟨m₂, hserves, h₂⟩ := h₁.asks hq.2 ha.2
  obtain ⟨hrun, he⟩ := h₁.mem_history htold hr
  obtain ⟨records, hkeeps, hrecords⟩ := h₂.keeps run
  have hmem : r ∈ records := (hrecords.mem r).mpr ⟨hrun, hserves.keeps he⟩
  rw [asks_append]
  exact ⟨records, h₂.history_eq hkeeps hrecords (List.ne_nil_of_mem hmem), hmem⟩

/-! ### Empty stores -/

theorem embodies_memory : (memory .empty).Embodies .empty where
  keeps run := ⟨[], ⟨rfl, .nil⟩, Register.lists_empty run⟩
  lists := ⟨[], ⟨rfl, .nil⟩, fun _ => by simp [Register.empty]⟩
  reread _ _ _ _ := rfl

theorem eq_of_openDirectory {base : String} {files files' : FileTree}
    (h : openDirectory base files = (.ok s, files')) :
    (DirectoryStore.open base).run files = (.ok ⟨base⟩, files') ∧
      s = .directory ⟨base⟩ files' := by
  simp only [openDirectory, DirectoryStore.open, bind, FileProgram.op, FileProgram.bind,
    FileProgram.run, FileTree.perform] at h ⊢
  rcases hmade : files.makeDirs base with ⟨e | _, made⟩
  · rw [hmade] at h
    cases (Prod.mk.inj h).1
  · rw [hmade] at h
    obtain ⟨hs, rfl⟩ := Prod.mk.inj h
    exact ⟨rfl, (Except.ok.inj hs).symm⟩

/-- **A store that was opened in an empty directory** holds nothing. -/
theorem embodies_of_openDirectory {base : String} {files files' : FileTree} (hs : files.IsSound)
    (hopen : openDirectory base files = (.ok s, files')) (hempty : files'.list base = .ok []) :
    s.Embodies .empty := by
  obtain ⟨hmade, rfl⟩ := eq_of_openDirectory hopen
  obtain ⟨place, h⟩ := DirectoryStore.isOpen_of_open hs hmade
  obtain ⟨place', hresolve, -, hchildren⟩ := FileTree.list_eq_ok.mp hempty
  obtain rfl := Except.ok.inj ((FileTree.resolve_eq_ok.mp hresolve).2.symm.trans h.walk)
  have hruns : DirectoryStore.Lists ⟨base⟩ files' place' [] :=
    ⟨h, hresolve, hchildren.symm, .nil⟩
  refine ⟨fun run => ⟨[], ⟨place', h, .nil, ?_, List.forall_mem_nil _, List.forall_mem_nil _⟩,
    Register.lists_empty run⟩, ⟨[], ⟨place', hruns⟩, fun _ => by simp [Register.empty]⟩,
    fun _ _ _ he => by simp [Register.empty] at he⟩
  have hnone : files'.lookup (place' ++ [run.text]) ≠ some .directory := by
    intro hdir
    cases (hruns.of_lookup hdir).2
  rw [h.sound.children_eq_nil hnone]
  exact List.mergeSort_nil

/-! ### Both stores -/

/-- **Both stores are one register.** An empty store in memory and one that was opened in an
empty directory answer as an empty register does, call by call, and forget nothing. If they
are asked the same, each in its own time, they answer the same but for the times. -/
theorem one_register {base : String} {files files' : FileTree} {d : Store}
    {calls calls' : List (Query × Instant)} (hs : files.IsSound)
    (hopen : openDirectory base files = (.ok d, files')) (hempty : files'.list base = .ok [])
    (hcounted : ∀ c ∈ calls, c.1.IsCounted) (hsame : calls.map (·.1) = calls'.map (·.1))
    (hadmits : d.AdmitsAll calls') :
    (∃ m, Register.empty.Serves calls ((memory .empty).asks calls).1 m) ∧
      (∃ m, Register.empty.Serves calls' (d.asks calls').1 m) ∧
      ((memory .empty).asks calls).1.map Reply.timeless =
        (d.asks calls').1.map Reply.timeless ∧
      (memory .empty).NeverForgets calls ∧ d.NeverForgets calls' := by
  have hcounted' : ∀ c ∈ calls', c.1.IsCounted := by
    intro c hc
    have hmem : c.1 ∈ calls.map (·.1) := by
      rw [hsame]
      exact List.mem_map_of_mem hc
    obtain ⟨x, hx, heq⟩ := List.mem_map.mp hmem
    rw [← heq]
    exact hcounted x hx
  have hmemory : (memory .empty).AdmitsAll calls := admitsAll_memory _ calls
  have hd := embodies_of_openDirectory hs hopen hempty
  obtain ⟨m, hserves, -⟩ := embodies_memory.asks hcounted hmemory
  obtain ⟨m', hserves', -⟩ := hd.asks hcounted' hadmits
  exact ⟨⟨m, hserves⟩, ⟨m', hserves'⟩, hserves.alike (fun _ _ => rfl) hsame hserves',
    embodies_memory.neverForgets hcounted hmemory, hd.neverForgets hcounted' hadmits⟩

/-- Two rounds of a run that are recorded in the wrong order, one of them on five places; the
second is refused once it is there. -/
def specimenCalls : List (Query × Instant) :=
  [(.persist default 12345 Pages.specimen.state, Pages.specimen.recordedAt),
    (.persist default 2 Pages.specimen.state, Pages.specimen.recordedAt),
    (.persist default 2 Pages.specimen.state, Pages.specimen.recordedAt),
    (.load default, default), (.history default, default), (.listRuns, default)]

/-- The specimen calls are answered alike by an empty memory and in an empty directory. -/
theorem one_register_specimen :
    ∃ d files', openDirectory "/" .empty = (.ok d, files') ∧ d.AdmitsAll specimenCalls ∧
      (∃ m, Register.empty.Serves specimenCalls (d.asks specimenCalls).1 m) ∧
      ((memory .empty).asks specimenCalls).1.map Reply.timeless =
        (d.asks specimenCalls).1.map Reply.timeless := by
  have hopen : openDirectory "/" .empty = (.ok (.directory ⟨"/"⟩ .empty), .empty) := by
    rfl
  have hname : (default : RunId).text.utf8ByteSize ≤ FileTree.longestName := by
    decide
  have haccepts : ∀ round ∈ [12345, 2], DirectoryStore.Accepts ⟨"/"⟩ default round := by
    have hpath : ∀ round ∈ [12345, 2],
        FileTree.checkPath (DirectoryStore.recordPath ⟨"/"⟩ default round) = .ok () := by
      decide +kernel
    exact fun round hround => ⟨hname, hpath round hround⟩
  have hread : ∀ round < 2 ^ 32, DirectoryStore.reread { Pages.specimen with round } =
      .ok { Pages.specimen with round } := fun round hround =>
    RoundRecord.IsRegular.reread_eq ⟨hround, Pages.isRegular_specimen.recordedAt,
      Pages.isRegular_specimen.state⟩ (show Pages.specimen.toJson.depth ≤ 127 by decide)
  have hadmits : (directory ⟨"/"⟩ .empty).AdmitsAll specimenCalls := by
    refine admitsAll_directory ?_ _
    simp only [specimenCalls, List.forall_mem_cons, List.not_mem_nil, false_implies, implies_true,
      and_true]
    have hfirst := haccepts 12345 (by decide)
    have hsecond := haccepts 2 (by decide)
    exact ⟨fun _ => ⟨hfirst, fun _ => hread 12345 (by decide)⟩,
      fun _ => ⟨hsecond, fun _ => hread 2 (by decide)⟩,
      fun _ => ⟨hsecond, fun _ => hread 2 (by decide)⟩, fun _ => hfirst.acceptsRun,
      fun _ => hfirst.acceptsRun, fun _ => trivial⟩
  have hcounted : ∀ c ∈ specimenCalls, c.1.IsCounted := by
    simp only [specimenCalls, List.forall_mem_cons, List.not_mem_nil, false_implies, implies_true,
      and_true, Query.IsCounted]
    decide
  obtain ⟨-, hserves, hsame, -⟩ :=
    one_register FileTree.isSound_empty hopen rfl hcounted rfl hadmits
  exact ⟨_, _, hopen, hadmits, hserves, hsame⟩

end Store

end Roundtable

import Roundtable.Proofs.File.Trees
import Roundtable.Proofs.Store.Reading
import Roundtable.Proofs.Text.Numerals
import Roundtable.Store.Basic

/-!
# What a store keeps

A store keeps the records of a run in the order of their rounds, each round once. In memory
they stand as they are; in a directory they stand as texts, one file for each, and **what
the store answers is what it reads from the files** (`Roundtable.DirectoryStore.Keeps`).

A store that has recorded a round keeps one record more, in its place, and all others as
they were (`Roundtable.Store.Keeps.persist`). What it tells then of the run are its records,
read back in order (`Roundtable.Store.Keeps.history`), and what it loads is the last of them
(`Roundtable.Store.load_eq`).
-/

namespace Roundtable

/-! ### Records in order -/

namespace MemoryStore

variable {r x : RoundRecord} {records : List RoundRecord}

theorem insertRecord_perm (r : RoundRecord) (records : List RoundRecord) :
    (insertRecord r records).Perm (r :: records) := by
  induction records with
  | nil => exact .refl _
  | cons x xs ih =>
    rw [insertRecord]
    split
    · exact .refl _
    · exact (ih.cons x).trans (.swap r x xs)

theorem mem_insertRecord : x ∈ insertRecord r records ↔ x = r ∨ x ∈ records := by
  rw [(insertRecord_perm r records).mem_iff, List.mem_cons]

/-- A record of a new round goes where its round belongs. -/
theorem pairwise_insertRecord (hs : records.Pairwise (·.round < ·.round))
    (hnew : ∀ x ∈ records, x.round ≠ r.round) :
    (insertRecord r records).Pairwise (·.round < ·.round) := by
  induction records with
  | nil => exact List.pairwise_singleton _ r
  | cons x xs ih =>
    obtain ⟨hx, hs⟩ := List.pairwise_cons.mp hs
    rw [List.forall_mem_cons] at hnew
    rw [insertRecord]
    split
    · next hlt =>
      refine List.pairwise_cons.mpr ⟨?_, List.pairwise_cons.mpr ⟨hx, hs⟩⟩
      rw [List.forall_mem_cons]
      exact ⟨hlt, fun y hy => Nat.lt_trans hlt (hx y hy)⟩
    · next hge =>
      refine List.pairwise_cons.mpr ⟨fun y hy => ?_, ih hs hnew.2⟩
      rcases mem_insertRecord.mp hy with rfl | hy
      · exact Nat.lt_of_le_of_ne (Nat.le_of_not_lt hge) hnew.1
      · exact hx y hy

/-- A record of a round behind all others goes behind them. -/
theorem insertRecord_of_lt (h : ∀ x ∈ records, x.round < r.round) :
    insertRecord r records = records ++ [r] := by
  induction records with
  | nil => rfl
  | cons x xs ih =>
    rw [List.forall_mem_cons] at h
    rw [insertRecord, if_neg (Nat.not_lt.mpr (Nat.le_of_lt h.1)), ih h.2]
    rfl

/-! ### Records in memory -/

variable {s s' : MemoryStore} {run : RunId}

theorem lookup_setRun_self (run : RunId) (records : List RoundRecord)
    (runs : List (RunId × List RoundRecord)) :
    (setRun run records runs).lookup run = some records := by
  induction runs with
  | nil => simp [setRun]
  | cons x rest ih =>
    obtain ⟨q, rs⟩ := x
    rw [setRun]
    split
    · simp
    · split
      · simp
      · next hne _ =>
        rw [List.lookup_cons, beq_eq_false_iff_ne.mpr hne]
        exact ih

/-- **A round is recorded once.** -/
theorem persist_eq_ok {round : Nat} {state : RunState} {now : Instant} :
    s.persist run round state now = .ok s' ↔
      (∀ x ∈ s.history run, x.round ≠ round) ∧
        s' = ⟨setRun run (insertRecord ⟨run, round, now, state⟩ (s.history run)) s.runs⟩ := by
  unfold persist
  dsimp only
  split
  · next hany =>
    obtain ⟨x, hx, heq⟩ := List.any_eq_true.mp hany
    simp only [reduceCtorEq, false_iff, not_and]
    exact fun hall => absurd (beq_iff_eq.mp heq) (hall x hx)
  · next hany =>
    rw [Except.ok.injEq]
    refine ⟨fun h => ⟨fun x hx heq => hany ?_, h.symm⟩, fun h => h.2.symm⟩
    exact List.any_eq_true.mpr ⟨x, hx, beq_iff_eq.mpr heq⟩

theorem history_setRun (run : RunId) (records : List RoundRecord)
    (runs : List (RunId × List RoundRecord)) :
    history ⟨setRun run records runs⟩ run = records := by
  rw [history, lookup_setRun_self]
  rfl

end MemoryStore

/-! ### Names in a directory -/

theorem RunId.isName (run : RunId) : Path.IsName run.text := by
  have hsound := run.sound
  unfold RunIdFault.of? at hsound
  dsimp only at hsound
  split at hsound
  · cases hsound
  · next hempty =>
    split at hsound
    · cases hsound
    · next hpath =>
      split at hsound
      · cases hsound
      · split at hsound
        · cases hsound
        · next hhidden =>
          refine ⟨fun hmem => hpath ?_, by simpa using hempty, ?_, ?_⟩
          · simp [hmem]
          · intro h
            rw [h] at hhidden
            exact hhidden rfl
          · intro h
            rw [h] at hhidden
            exact hhidden rfl

namespace DirectoryStore

theorem toList_fileName (round : Nat) :
    (fileName round).toList = nameStart ++ Numeral.padded 4 round ++ nameEnd :=
  String.toList_ofList

/-- **The name of a record tells its round.** -/
theorem roundOf?_fileName {round : Nat} (h : round < 2 ^ 32) :
    roundOf? (fileName round) = some round := by
  have hstart : Text.startsWith nameStart (fileName round).toList = true := by
    rw [toList_fileName, List.append_assoc]
    exact List.isPrefixOf_iff_prefix.mpr (List.prefix_append _ _)
  have hdrop : (fileName round).toList.drop nameStart.length =
      Numeral.padded 4 round ++ nameEnd := by
    rw [toList_fileName, List.append_assoc, List.drop_left]
  have hlength : (Numeral.padded 4 round ++ nameEnd).length - nameEnd.length =
      (Numeral.padded 4 round).length := by
    rw [List.length_append, Nat.add_sub_cancel]
  unfold roundOf?
  simp only [hstart, if_true, hdrop, hlength, List.drop_left, List.take_left, beq_self_eq_true,
    Bool.and_true, Numeral.below?_padded 4 h]
  rw [if_pos]
  rw [decide_eq_true_eq, List.length_append]
  omega

/-- What starts and ends like the name of a record is one part of a path. -/
theorem isName_of_toList {name : String} {m : List Char}
    (h : name.toList = nameStart ++ m ++ nameEnd) (hm : '/' ∉ m) : Path.IsName name := by
  have hhead : ∃ r, name.toList = 'r' :: r := by
    rw [h]
    exact ⟨_, rfl⟩
  obtain ⟨r, hr⟩ := hhead
  refine ⟨fun hmem => ?_, by rw [hr]; exact List.cons_ne_nil _ _, fun h => ?_, fun h => ?_⟩
  · rw [h, List.mem_append, List.mem_append] at hmem
    rcases hmem with (hmem | hmem) | hmem
    · exact absurd hmem (by decide)
    · exact hm hmem
    · exact absurd hmem (by decide)
  · rw [h] at hr
    cases hr
  · rw [h] at hr
    cases hr

theorem isName_fileName (round : Nat) : Path.IsName (fileName round) :=
  isName_of_toList (toList_fileName round) fun hmem =>
    absurd (List.all_eq_true.mp (Numeral.all_isDigit_padded 4 round) _ hmem) (by decide)

/-! ### Programs -/

variable {d : DirectoryStore} {files files' : FileTree} {run : RunId} {round : Nat}
  {state : RunState} {now : Instant}

/-- **A round that was recorded** has its directory made, its file made and its file
written. -/
theorem persist_eq_ok (h : (d.persist run round state now).run files = (.ok (), files')) :
    ∃ made created, files.makeDirs (d.runPath run) = (.ok (), made) ∧
      made.createNew (d.recordPath run round) = (.ok (), created) ∧
      created.write (d.recordPath run round) (recordText ⟨run, round, now, state⟩) =
        (.ok (), files') := by
  simp only [persist, bind, FileProgram.op, FileProgram.bind, FileProgram.run,
    FileTree.perform] at h
  rcases hmade : files.makeDirs (d.runPath run) with ⟨e | _, made⟩
  · rw [hmade] at h
    cases (Prod.mk.inj h).1
  · rw [hmade] at h
    simp only [FileProgram.run, FileTree.perform] at h
    rcases hcreated : made.createNew (d.recordPath run round) with ⟨e | _, created⟩
    · rw [hcreated] at h
      cases e <;> cases (Prod.mk.inj h).1
    · rw [hcreated] at h
      simp only [FileProgram.run, FileTree.perform] at h
      rcases hwritten : created.write (d.recordPath run round)
          (recordText ⟨run, round, now, state⟩) with ⟨e | _, written⟩
      · rw [hwritten] at h
        cases (Prod.mk.inj h).1
      · rw [hwritten] at h
        exact ⟨made, created, rfl, hcreated, hwritten.trans (congrArg _ (Prod.mk.inj h).2)⟩

theorem run_persist {made created : FileTree}
    (hmade : files.makeDirs (d.runPath run) = (.ok (), made))
    (hcreated : made.createNew (d.recordPath run round) = (.ok (), created))
    (hwritten : created.write (d.recordPath run round) (recordText ⟨run, round, now, state⟩) =
      (.ok (), files')) : (d.persist run round state now).run files = (.ok (), files') := by
  simp only [persist, bind, FileProgram.op, FileProgram.bind, FileProgram.run, FileTree.perform,
    hmade, hcreated, hwritten]
  rfl

/-! ### Open stores -/

/-- **The store is open**: its base leads to a directory of a sound tree. -/
structure IsOpen (d : DirectoryStore) (files : FileTree) (base : List String) : Prop where
  sound : files.IsSound
  walk : files.walk (files.origin d.base) (Path.parts d.base) = .ok base
  directory : files.lookup base = some .directory

/-- **A store that was opened is open.** -/
theorem isOpen_of_open {base : String} (hs : files.IsSound)
    (h : («open» base).run files = (.ok d, files')) : ∃ place, d.IsOpen files' place := by
  simp only [«open», bind, FileProgram.op, FileProgram.bind, FileProgram.run,
    FileTree.perform] at h
  rcases hmade : files.makeDirs base with ⟨e | _, made⟩
  · rw [hmade] at h
    cases (Prod.mk.inj h).1
  · rw [hmade] at h
    obtain ⟨hd, rfl⟩ := Prod.mk.inj h
    obtain rfl := Except.ok.inj hd
    -- The walk starts at the root or in the working directory: both are there.
    have hstart : files.lookup (files.origin base) = some .directory := by
      unfold FileTree.origin
      split
      · rfl
      · exact hs.working
    unfold FileTree.makeDirs at hmade
    split at hmade
    · next hempty =>
      obtain rfl := (Prod.mk.inj hmade).2
      have hbase : base = "" := by simpa using hempty
      subst hbase
      exact ⟨files.origin "", hs, rfl, hstart⟩
    · split at hmade
      · cases (Prod.mk.inj hmade).1
      · obtain ⟨hsound, hgrows, place, hwalk, hplace⟩ := hs.makeAlong hstart hmade
        refine ⟨place, hsound, ?_, hplace⟩
        rw [FileTree.origin, hgrows.working]
        exact hwalk

variable {base : List String}

theorem IsOpen.grows (h : d.IsOpen files base) (hg : files.Grows files') (hs : files'.IsSound) :
    d.IsOpen files' base := by
  refine ⟨hs, ?_, hg.directories _ h.directory⟩
  rw [FileTree.origin, hg.working]
  exact hg.walk h.walk

theorem isEmpty_runPath (d : DirectoryStore) (run : RunId) : (d.runPath run).isEmpty = false := by
  have hne : (d.runPath run).toList ≠ [] := by
    unfold runPath
    rcases Path.toList_join d.base run.isName with ⟨hjoin, -⟩ | ⟨hjoin, -⟩
    · simp [hjoin, run.isName.notEmpty]
    · simp [hjoin]
  simpa using hne

/-- The directory of a run stands in the base. -/
theorem IsOpen.walk_run (h : d.IsOpen files base) {place : List String}
    (hw : files.walk (files.origin (d.runPath run)) (Path.parts (d.runPath run)) = .ok place) :
    place = base ++ [run.text] := by
  rw [runPath, FileTree.origin_join run.isName, Path.parts_join run.isName,
    FileTree.walk_append] at hw
  obtain ⟨mid, hmid, hw⟩ := hw
  obtain rfl := Except.ok.inj (h.walk.symm.trans hmid)
  obtain ⟨-, next, hnext, hw⟩ := FileTree.walk_cons.mp hw
  obtain rfl := Except.ok.inj hw
  exact FileTree.stepTo_name run.isName hnext

/-- What is named in the directory of a run stands there. -/
theorem IsOpen.resolve_name (h : d.IsOpen files base) {name : String} (hname : Path.IsName name)
    {place : List String} (hr : files.resolve (Path.join (d.runPath run) name) = .ok place) :
    place = base ++ [run.text] ++ [name] ∧
      files.walk (files.origin (d.runPath run)) (Path.parts (d.runPath run)) =
        .ok (base ++ [run.text]) := by
  rw [FileTree.resolve_eq_ok, FileTree.origin_join hname, Path.parts_join hname,
    FileTree.walk_append] at hr
  obtain ⟨-, mid, hmid, hw⟩ := hr
  obtain rfl := h.walk_run hmid
  obtain ⟨-, next, hnext, hw⟩ := FileTree.walk_cons.mp hw
  obtain rfl := Except.ok.inj hw
  exact ⟨FileTree.stepTo_name hname hnext, hmid⟩

/-- The file of a record stands in the directory of its run. -/
theorem IsOpen.resolve_record (h : d.IsOpen files base) {place : List String}
    (hr : files.resolve (d.recordPath run round) = .ok place) :
    place = base ++ [run.text] ++ [fileName round] ∧
      files.walk (files.origin (d.runPath run)) (Path.parts (d.runPath run)) =
        .ok (base ++ [run.text]) :=
  h.resolve_name (isName_fileName round) hr

/-- Making the directory of a run is one step from the base. -/
theorem IsOpen.makeDirs_eq (h : d.IsOpen files base) (run : RunId) :
    files.makeDirs (d.runPath run) =
      match FileTree.checkPath (d.runPath run) with
      | .error e => (.error e, files)
      | .ok () => files.makeAlong base [run.text] := by
  have halong : files.makeAlong (files.origin (d.runPath run)) (Path.parts (d.runPath run)) =
      files.makeAlong base [run.text] := by
    rw [runPath, FileTree.origin_join run.isName, Path.parts_join run.isName,
      FileTree.makeAlong_append h.walk h.directory]
  rw [FileTree.makeDirs, if_neg (by rw [isEmpty_runPath]; exact Bool.false_ne_true)]
  cases FileTree.checkPath (d.runPath run) with
  | error e => rfl
  | ok => exact halong

/-- **The directory of a run is made where it is not there.** -/
theorem IsOpen.makeDirs (h : d.IsOpen files base) {made : FileTree}
    (hm : files.makeDirs (d.runPath run) = (.ok (), made)) :
    made.lookup (base ++ [run.text]) = some .directory ∧
      (made = files ∨ files.lookup (base ++ [run.text]) = none ∧
        made = files.set (base ++ [run.text]) .directory) := by
  rw [h.makeDirs_eq] at hm
  split at hm
  · cases (Prod.mk.inj hm).1
  · rw [FileTree.makeAlong] at hm
    cases hs : FileTree.stepTo base run.text with
    | error e =>
      rw [hs] at hm
      cases (Prod.mk.inj hm).1
    | ok next =>
      obtain rfl := FileTree.stepTo_name run.isName hs
      simp only [hs, FileTree.makeAlong] at hm
      split at hm
      · next hnext =>
        obtain rfl := (Prod.mk.inj hm).2
        exact ⟨hnext, .inl rfl⟩
      · cases (Prod.mk.inj hm).1
      · next hnone =>
        obtain rfl := (Prod.mk.inj hm).2
        exact ⟨FileTree.lookup_set_self (by simp) _, .inr ⟨hnone, rfl⟩⟩

/-- A store stays open when the directory of a run is made. -/
theorem IsOpen.of_makeDirs (h : d.IsOpen files base) {made : FileTree}
    (hm : files.makeDirs (d.runPath run) = (.ok (), made)) :
    d.IsOpen made base ∧ files.Grows made := by
  obtain ⟨-, rfl | ⟨-, rfl⟩⟩ := h.makeDirs hm
  · exact ⟨h, .refl made⟩
  · have hne : base ++ [run.text] ≠ [] := by simp
    have hdir : files.lookup (base ++ [run.text]) = some .directory →
        FileNode.directory = .directory := fun _ => rfl
    have hgrows := FileTree.grows_set hne hdir
    refine ⟨h.grows hgrows (h.sound.set hne hdir ?_), hgrows⟩
    rw [List.dropLast_concat]
    exact h.directory

/-- **The files have got one file more**, named for a round, in the directory of its run. -/
structure Adds (d : DirectoryStore) (files files' : FileTree) (base : List String) (run : RunId)
    (round : Nat) (text : String) : Prop where
  isOpen : d.IsOpen files' base
  grows : files.Grows files'
  resolve : files'.resolve (d.recordPath run round) =
    .ok (base ++ [run.text] ++ [fileName round])
  fresh : files.lookup (base ++ [run.text] ++ [fileName round]) = none
  children : files'.children (base ++ [run.text]) =
    files.children (base ++ [run.text]) ++ [(fileName round, false)]
  text : files'.lookup (base ++ [run.text] ++ [fileName round]) = some (.file text)
  others : ∀ text p, files.lookup p = some (.file text) → files'.lookup p = some (.file text)

/-- **The files have got one record more**: a file in the directory of its run. -/
structure Gains (d : DirectoryStore) (files files' : FileTree) (base : List String)
    (r : RoundRecord) : Prop where
  isOpen : d.IsOpen files' base
  grows : files.Grows files'
  resolve : files'.resolve (d.recordPath r.runId r.round) =
    .ok (base ++ [r.runId.text] ++ [fileName r.round])
  fresh : files.lookup (base ++ [r.runId.text] ++ [fileName r.round]) = none
  children : files'.children (base ++ [r.runId.text]) =
    files.children (base ++ [r.runId.text]) ++ [(fileName r.round, false)]
  text : files'.lookup (base ++ [r.runId.text] ++ [fileName r.round]) =
    some (.file (recordText r))
  others : ∀ text p, files.lookup p = some (.file text) → files'.lookup p = some (.file text)

/-- A file with the text of a record is a record. -/
theorem Adds.gains {r : RoundRecord} (h : d.Adds files files' base r.runId r.round (recordText r)) :
    d.Gains files files' base r :=
  ⟨h.isOpen, h.grows, h.resolve, h.fresh, h.children, h.text, h.others⟩

/-- A file that is put where nothing stood, into the directory of its run. -/
theorem IsOpen.adds_set (h : d.IsOpen files base)
    (hdir : files.lookup (base ++ [run.text]) = some .directory)
    (hresolve : files.resolve (d.recordPath run round) =
      .ok (base ++ [run.text] ++ [fileName round]))
    (hnone : files.lookup (base ++ [run.text] ++ [fileName round]) = none) (text : String) :
    d.Adds files (files.set (base ++ [run.text] ++ [fileName round]) (.file text)) base run round
      text := by
  have hne : base ++ [run.text] ++ [fileName round] ≠ [] := by simp
  have hnodir : files.lookup (base ++ [run.text] ++ [fileName round]) = some .directory →
      FileNode.file text = .directory := fun hd => by rw [hnone] at hd; cases hd
  have hgrows := FileTree.grows_set hne hnodir
  refine ⟨h.grows hgrows (h.sound.set hne hnodir ?_), hgrows, hgrows.resolve hresolve, hnone, ?_,
    FileTree.lookup_set_self hne _, fun text p hp => ?_⟩
  · rw [List.dropLast_concat]
    exact hdir
  · have hfile : ∀ text, (FileNode.file text == FileNode.directory) = false := fun _ => rfl
    rw [(FileTree.children_set hnone _).1, hfile]
  · rw [FileTree.lookup_set_ne _ _, hp]
    rintro rfl
    rw [hnone] at hp
    cases hp

/-- The directory of the run may be made first. -/
theorem Adds.of_makeDirs {text : String} {made : FileTree}
    (h : d.Adds made files' base run round text) (hg : files.Grows made)
    (hmade : made = files ∨ files.lookup (base ++ [run.text]) = none ∧
      made = files.set (base ++ [run.text]) .directory) :
    d.Adds files files' base run round text := by
  rcases hmade with rfl | ⟨hnew, rfl⟩
  · exact h
  · have hothers : ∀ n p, files.lookup p = some n →
        (files.set (base ++ [run.text]) .directory).lookup p = some n := by
      intro n p hp
      rw [FileTree.lookup_set_ne _ _, hp]
      rintro rfl
      rw [hnew] at hp
      cases hp
    refine ⟨h.isOpen, hg.trans h.grows, h.resolve, ?_, ?_, h.text,
      fun text p hp => h.others text p (hothers _ p hp)⟩
    · cases hold : files.lookup (base ++ [run.text] ++ [fileName round]) with
      | none => rfl
      | some n =>
        have hfresh := h.fresh
        rw [hothers n _ hold] at hfresh
        cases hfresh
    · rw [h.children, (FileTree.children_set hnew _).2 _ (by simp)]

/-- **Where a round is recorded**: a file is put where nothing stood, into the directory of
the run, which may have been made for it. -/
theorem IsOpen.persist_eq (h : d.IsOpen files base)
    (hp : (d.persist run round state now).run files = (.ok (), files')) :
    ∃ made, d.IsOpen made base ∧ files.Grows made ∧
      made.lookup (base ++ [run.text]) = some .directory ∧
      (made = files ∨ files.lookup (base ++ [run.text]) = none ∧
        made = files.set (base ++ [run.text]) .directory) ∧
      made.resolve (d.recordPath run round) = .ok (base ++ [run.text] ++ [fileName round]) ∧
      made.lookup (base ++ [run.text] ++ [fileName round]) = none ∧
      files' = made.set (base ++ [run.text] ++ [fileName round])
        (.file (recordText ⟨run, round, now, state⟩)) := by
  obtain ⟨made, created, hmade, hcreated, hwritten⟩ := persist_eq_ok hp
  obtain ⟨hopen, hgrows⟩ := h.of_makeDirs hmade
  obtain ⟨hplace, hmade⟩ := h.makeDirs hmade
  obtain ⟨file, hresolve, hnone, -, rfl⟩ := FileTree.createNew_eq_ok.mp hcreated
  obtain ⟨rfl, -⟩ := hopen.resolve_record hresolve
  -- The file is there when it is written, and empty.
  have hfile : base ++ [run.text] ++ [fileName round] ≠ [] := by simp
  have hresolve' : (made.set (base ++ [run.text] ++ [fileName round]) (.file "")).resolve
      (d.recordPath run round) = .ok (base ++ [run.text] ++ [fileName round]) := by
    refine (FileTree.grows_set hfile fun hd => ?_).resolve hresolve
    rw [hnone] at hd
    cases hd
  rw [FileTree.write_eq hresolve' (FileTree.lookup_set_self hfile _),
    FileTree.set_set] at hwritten
  obtain rfl := (Prod.mk.inj hwritten).2
  exact ⟨made, hopen, hgrows, hplace, hmade, hresolve, hnone, rfl⟩

/-- **What recording a round does to the files.** -/
theorem IsOpen.persist (h : d.IsOpen files base)
    (hp : (d.persist run round state now).run files = (.ok (), files')) :
    d.Gains files files' base ⟨run, round, now, state⟩ := by
  obtain ⟨made, hopen, hgrows, hplace, hmade, hresolve, hnone, rfl⟩ := h.persist_eq hp
  have hadds := hopen.adds_set hplace hresolve hnone (recordText ⟨run, round, now, state⟩)
  exact (hadds.of_makeDirs hgrows hmade).gains

/-! ### Records in a directory -/

/-- **The files of a run are these records**, in the order of their rounds. -/
structure Keeps (d : DirectoryStore) (files : FileTree) (base : List String) (run : RunId)
    (records : List RoundRecord) : Prop where
  isOpen : d.IsOpen files base
  sorted : records.Pairwise (·.round < ·.round)
  names : recordNames (files.children (base ++ [run.text])) =
    records.map fun r => (r.round, fileName r.round)
  resolve : ∀ r ∈ records, files.resolve (d.recordPath run r.round) =
    .ok (base ++ [run.text] ++ [fileName r.round])
  texts : ∀ r ∈ records, files.lookup (base ++ [run.text] ++ [fileName r.round]) =
    some (.file (recordText r))

/-- Names are put in the order of their rounds. -/
theorem recordNames_concat {entries : List (String × Bool)} {records : List RoundRecord}
    {r : RoundRecord} (hr : r.round < 2 ^ 32)
    (h : recordNames entries = records.map fun r => (r.round, fileName r.round))
    (hs : (MemoryStore.insertRecord r records).Pairwise (·.round < ·.round)) :
    recordNames (entries ++ [(fileName r.round, false)]) =
      (MemoryStore.insertRecord r records).map fun r => (r.round, fileName r.round) := by
  unfold recordNames at h ⊢
  rw [List.filterMap_append]
  simp only [List.filterMap_cons, roundOf?_fileName hr, Option.map_some, List.filterMap_nil]
  generalize List.filterMap _ entries = l at h ⊢
  -- Both are sorted lists of the same names, and a sorted list is told by what is in it.
  have hperm : (l ++ [(r.round, fileName r.round)]).Perm
      ((MemoryStore.insertRecord r records).map fun r => (r.round, fileName r.round)) := by
    have hold := (List.mergeSort_perm l fun a b => a.1 ≤ b.1).symm
    rw [h] at hold
    refine (hold.append_right _).trans ?_
    refine (List.perm_append_singleton _ _).trans ?_
    exact ((MemoryStore.insertRecord_perm r records).map
      (fun r => (r.round, fileName r.round))).symm
  refine List.Perm.eq_of_pairwise ?_ (pairwise_mergeSort_key _ _) ?_
    ((List.mergeSort_perm _ _).trans hperm)
  · -- Two records of one round have one name.
    intro a b ha hb hab hba
    rw [(List.mergeSort_perm _ _).mem_iff, hperm.mem_iff] at ha
    obtain ⟨x, -, rfl⟩ := List.mem_map.mp ha
    obtain ⟨y, -, rfl⟩ := List.mem_map.mp hb
    have hround : x.round = y.round := Nat.le_antisymm hab hba
    rw [hround]
  · rw [List.pairwise_map]
    exact hs.imp Nat.le_of_lt

/-- **A round that is recorded is kept** with all others, and was not there before. -/
theorem Keeps.persist {records : List RoundRecord} (h : d.Keeps files base run records)
    (hround : round < 2 ^ 32)
    (hp : (d.persist run round state now).run files = (.ok (), files')) :
    (∀ x ∈ records, x.round ≠ round) ∧
      d.Keeps files' base run (MemoryStore.insertRecord ⟨run, round, now, state⟩ records) := by
  have hgains := h.isOpen.persist hp
  -- A record of the round would have its file, but the file was made just now.
  have hnew : ∀ x ∈ records, x.round ≠ round := by
    rintro x hx rfl
    have hfresh := hgains.fresh
    rw [h.texts x hx] at hfresh
    cases hfresh
  have hsorted := MemoryStore.pairwise_insertRecord (r := ⟨run, round, now, state⟩) h.sorted hnew
  refine ⟨hnew, hgains.isOpen, hsorted, ?_, fun x hx => ?_, fun x hx => ?_⟩
  · rw [hgains.children]
    exact recordNames_concat (r := ⟨run, round, now, state⟩) hround h.names hsorted
  · rcases MemoryStore.mem_insertRecord.mp hx with rfl | hx
    · exact hgains.resolve
    · exact hgains.grows.resolve (h.resolve x hx)
  · rcases MemoryStore.mem_insertRecord.mp hx with rfl | hx
    · exact hgains.text
    · exact hgains.others _ _ (h.texts x hx)

/-- **Where a file of the round stands it is not recorded**, and nothing changes. -/
theorem IsOpen.persist_again (h : d.IsOpen files base) {text : String}
    (hresolve : files.resolve (d.recordPath run round) =
      .ok (base ++ [run.text] ++ [fileName round]))
    (hfile : files.lookup (base ++ [run.text] ++ [fileName round]) = some (.file text))
    (state : RunState) (now : Instant) :
    (d.persist run round state now).run files = (.error (.alreadyExists run round), files) := by
  have hdir := h.sound.lookup_dropLast hfile
  rw [List.dropLast_concat] at hdir
  have hcheck := FileTree.checkPath_join (isName_fileName round) (isEmpty_runPath d run)
    (FileTree.resolve_eq_ok.mp hresolve).1
  have hwalk := (h.resolve_record hresolve).2
  -- The directory of the run is there, so it is not made; the file is there, so it is refused.
  have hmade : files.makeDirs (d.runPath run) = (.ok (), files) :=
    FileTree.makeDirs_self (FileTree.resolve_eq_ok.mpr ⟨hcheck, hwalk⟩) hdir
  have hcreated : files.createNew (d.recordPath run round) = (.error .exists, files) := by
    simp only [FileTree.createNew, hresolve, hfile]
  simp only [DirectoryStore.persist, bind, FileProgram.op, FileProgram.bind, FileProgram.run,
    FileTree.perform, hmade, hcreated]
  rfl

/-- **A round that is kept is not recorded again**, and nothing changes. -/
theorem Keeps.persist_again {records : List RoundRecord} (h : d.Keeps files base run records)
    {r : RoundRecord} (hr : r ∈ records) (state : RunState) (now : Instant) :
    (d.persist run r.round state now).run files =
      (.error (.alreadyExists run r.round), files) :=
  h.isOpen.persist_again (h.resolve r hr) (h.texts r hr) state now

/-- What is read of a record's file. -/
def recordAt (t : FileTree) (dir : String) (x : Nat × String) : Except StoreError RoundRecord :=
  match t.read (Path.join dir x.2) with
  | .error e => .error (.ofOs e)
  | .ok text => recordOf text

theorem recordAt_of_read {dir text : String} {x : Nat × String}
    (h : files.read (Path.join dir x.2) = .ok text) : recordAt files dir x = recordOf text := by
  rw [recordAt, h]

/-- **Files are read one after the other**, and stay as they are. -/
theorem run_readEach (dir : String) (names : List (Nat × String)) :
    (readEach dir names).run files = (names.mapM (recordAt files dir), files) := by
  induction names with
  | nil => rfl
  | cons x names ih =>
    rw [readEach, List.mapM_cons]
    simp only [bind, FileProgram.op, FileProgram.bind, FileProgram.run, FileTree.perform, recordAt]
    cases files.read (Path.join dir x.2) with
    | error e => rfl
    | ok text =>
      dsimp only
      cases recordOf text with
      | error e => rfl
      | ok r =>
        dsimp only
        rw [FileProgram.run_bind, ih]
        cases names.mapM (recordAt files dir) <;> rfl

/-- The directory of a run that has a file is there. -/
theorem IsOpen.list_eq (h : d.IsOpen files base) {text : String}
    (hresolve : files.resolve (d.recordPath run round) =
      .ok (base ++ [run.text] ++ [fileName round]))
    (hfile : files.lookup (base ++ [run.text] ++ [fileName round]) = some (.file text)) :
    files.list (d.runPath run) = .ok (files.children (base ++ [run.text])) := by
  have hdir := h.sound.lookup_dropLast hfile
  rw [List.dropLast_concat] at hdir
  have hcheck := FileTree.checkPath_join (isName_fileName round) (isEmpty_runPath d run)
    (FileTree.resolve_eq_ok.mp hresolve).1
  exact FileTree.list_eq_ok.mpr ⟨_, FileTree.resolve_eq_ok.mpr
    ⟨hcheck, (h.resolve_record hresolve).2⟩, hdir, rfl⟩

/-- **What a run has to tell**: what is read of its files, and nothing changes. -/
theorem run_history (d : DirectoryStore) (run : RunId) (files : FileTree) :
    (d.history run).run files =
      (match files.list (d.runPath run) with
        | .error .noEntry => .ok []
        | .error e => .error (.ofOs e)
        | .ok entries => (recordNames entries).mapM (recordAt files (d.runPath run)), files) := by
  simp only [DirectoryStore.history, bind, FileProgram.op, FileProgram.bind, FileProgram.run,
    FileTree.perform]
  cases files.list (d.runPath run) with
  | error e => cases e <;> rfl
  | ok entries => exact run_readEach _ _

/-- What is loaded is the state of the last record that is told of, and nothing changes. -/
theorem run_load (d : DirectoryStore) (run : RunId) (files : FileTree) :
    (d.load run).run files =
      (((d.history run).run files).1.map fun told => told.getLast?.map (·.state), files) := by
  have hsame : ((d.history run).run files).2 = files := by rw [run_history]
  calc (d.load run).run files
      = (((d.history run).run files).1.map fun told => told.getLast?.map (·.state),
          ((d.history run).run files).2) := FileProgram.run_bind _ _ files
    _ = _ := by rw [hsame]

/-- **The records of a run are read from their files**, in the order of their rounds. -/
theorem Keeps.history {records : List RoundRecord} (h : d.Keeps files base run records)
    (hne : records ≠ []) :
    (d.history run).run files = (records.mapM reread, files) := by
  have hread : (records.map fun r => (r.round, fileName r.round)).mapM
      (recordAt files (d.runPath run)) = records.mapM reread := by
    rw [List.mapM_map]
    refine mapM_congr fun x hx => ?_
    rw [Function.comp_apply, reread]
    exact recordAt_of_read (FileTree.read_eq_ok.mpr ⟨_, h.resolve x hx, h.texts x hx⟩)
  obtain ⟨r, rs, rfl⟩ := List.exists_cons_of_ne_nil hne
  rw [run_history, h.isOpen.list_eq (h.resolve r List.mem_cons_self) (h.texts r List.mem_cons_self)]
  dsimp only
  rw [h.names, hread]

/-- The path of a run leads into the base, if it can be walked at all. -/
theorem IsOpen.resolve_run (h : d.IsOpen files base) (run : RunId) :
    files.resolve (d.runPath run) = .ok (base ++ [run.text]) ∨
      ∃ e, e ≠ .noEntry ∧ files.resolve (d.runPath run) = .error e := by
  unfold FileTree.resolve
  cases hc : FileTree.checkPath (d.runPath run) with
  | error e =>
    refine .inr ⟨e, ?_, rfl⟩
    rintro rfl
    unfold FileTree.checkPath at hc
    rw [isEmpty_runPath] at hc
    split at hc
    · cases hc
    · split at hc
      · next hempty => cases hempty
      · split at hc <;> cases hc
  | ok =>
    have hwalk : files.walk (files.origin (d.runPath run)) (Path.parts (d.runPath run)) =
        FileTree.stepTo base run.text := by
      rw [runPath, FileTree.origin_join run.isName, Path.parts_join run.isName,
        FileTree.walk_append_of_ok h.walk, FileTree.walk]
      simp only [h.directory]
      cases FileTree.stepTo base run.text <;> rfl
    simp only [bind, Except.bind, hwalk]
    have hhere : ¬(run.text == ".") = true := by simpa using run.isName.notHere
    have habove : ¬(run.text == "..") = true := by simpa using run.isName.notAbove
    rw [FileTree.stepTo, if_neg hhere, if_neg habove]
    split
    · exact .inr ⟨.nameTooLong, by simp, rfl⟩
    · exact .inl rfl

/-- **What a run tells is read of its files**, also where its directory is missing. -/
theorem IsOpen.mapM_recordAt (h : d.IsOpen files base) {told : List RoundRecord}
    (hh : ((d.history run).run files).1 = .ok told) :
    (recordNames (files.children (base ++ [run.text]))).mapM (recordAt files (d.runPath run)) =
      .ok told := by
  rw [run_history] at hh
  dsimp only at hh
  rcases h.resolve_run run with hok | ⟨e, he, herror⟩
  · by_cases hdir : files.lookup (base ++ [run.text]) = some .directory
    · rw [FileTree.list_eq_ok.mpr ⟨_, hok, hdir, rfl⟩] at hh
      exact hh
    · -- Without a directory there are no names, and where a file stands nothing is told.
      rw [h.sound.children_eq_nil hdir, recordNames, List.filterMap_nil, List.mergeSort_nil]
      rw [FileTree.list_eq, hok] at hh
      dsimp only [Except.bind] at hh
      cases hl : files.lookup (base ++ [run.text]) with
      | none =>
        rw [hl] at hh
        exact hh
      | some n =>
        cases n with
        | directory => exact absurd hl hdir
        | file text =>
          rw [hl] at hh
          cases hh
  · rw [FileTree.list_eq, herror] at hh
    cases e <;> first | exact absurd rfl he | cases hh

/-- **A store that tells of no record keeps none.** -/
theorem keeps_nil (h : d.IsOpen files base)
    (hh : ((d.history run).run files).1 = .ok []) : d.Keeps files base run [] := by
  have hnames := h.mapM_recordAt hh
  rw [Json.mapM_eq_ok, List.forall₂_nil_right_iff] at hnames
  exact ⟨h, .nil, hnames, List.forall_mem_nil _, List.forall_mem_nil _⟩

end DirectoryStore

/-! ### Stores of either kind -/

namespace Store

/-- The store is open. -/
def IsOpen : Store → Prop
  | memory _ => True
  | directory d files => ∃ base, d.IsOpen files base

/-- **The store keeps these records of a run**, in the order of their rounds. -/
def Keeps (s : Store) (run : RunId) (records : List RoundRecord) : Prop :=
  match s with
  | memory m => m.history run = records ∧ records.Pairwise (·.round < ·.round)
  | directory d files => ∃ base, d.Keeps files base run records

/-- What the store reads of a record it keeps. -/
def reread : Store → RoundRecord → Except StoreError RoundRecord
  | memory _ => .ok
  | directory .. => DirectoryStore.reread

/-- **The store loses nothing of a state**: it keeps it as it is, or the state survives its
text. -/
def Preserves : Store → RunState → Prop
  | memory _, _ => True
  | directory .., state => state.Survives

variable {s s' : Store} {run : RunId} {records : List RoundRecord} {round : Nat}
  {state : RunState} {now : Instant}

/-- **A store that was opened is open.** -/
theorem isOpen_of_openDirectory {base : String} {files files' : FileTree} (hs : files.IsSound)
    (h : openDirectory base files = (.ok s, files')) : s.IsOpen := by
  unfold openDirectory at h
  rcases hopen : (DirectoryStore.open base).run files with ⟨e | d, made⟩
  · rw [hopen] at h
    cases (Prod.mk.inj h).1
  · rw [hopen] at h
    obtain rfl := Except.ok.inj (Prod.mk.inj h).1
    exact DirectoryStore.isOpen_of_open hs hopen

/-- **A store that tells of no record keeps none.** -/
theorem keeps_nil (h : s.IsOpen) (hh : s.history run = .ok []) : s.Keeps run [] := by
  cases s with
  | memory m => exact ⟨Except.ok.inj hh, .nil⟩
  | directory d files =>
    obtain ⟨base, h⟩ := h
    exact ⟨base, DirectoryStore.keeps_nil h hh⟩

/-- **In memory a round is recorded** if the run has no record of it. -/
theorem persist_memory_eq_ok {m : MemoryStore} :
    (memory m).persist run round state now = (.ok (), s') ↔
      (∀ x ∈ m.history run, x.round ≠ round) ∧
        s' = .memory ⟨MemoryStore.setRun run
          (MemoryStore.insertRecord ⟨run, round, now, state⟩ (m.history run)) m.runs⟩ := by
  simp only [Store.persist]
  constructor
  · intro hp
    split at hp
    · next m' hm =>
      obtain ⟨hnew, rfl⟩ := MemoryStore.persist_eq_ok.mp hm
      exact ⟨hnew, (Prod.mk.inj hp).2.symm⟩
    · cases (Prod.mk.inj hp).1
  · rintro ⟨hnew, rfl⟩
    simp only [MemoryStore.persist_eq_ok.mpr ⟨hnew, rfl⟩]

/-- **In a directory it is answered** what the file system answers. -/
theorem persist_directory_eq {d : DirectoryStore} {files : FileTree}
    {answer : Except StoreError Unit} :
    (directory d files).persist run round state now = (answer, s') ↔
      ∃ files', (d.persist run round state now).run files = (answer, files') ∧
        s' = .directory d files' := by
  rcases hrun : (d.persist run round state now).run files with ⟨answer', files'⟩
  simp only [Store.persist, hrun, Prod.mk.injEq]
  constructor
  · rintro ⟨rfl, rfl⟩
    exact ⟨files', ⟨rfl, rfl⟩, rfl⟩
  · rintro ⟨_, ⟨rfl, rfl⟩, rfl⟩
    exact ⟨rfl, rfl⟩

/-- **A round that is recorded is kept** with all others, and was not there before. -/
theorem Keeps.persist (h : s.Keeps run records) (hround : round < 2 ^ 32)
    (hp : s.persist run round state now = (.ok (), s')) :
    (∀ x ∈ records, x.round ≠ round) ∧ s'.reread = s.reread ∧ s'.Preserves = s.Preserves ∧
      s'.Keeps run (MemoryStore.insertRecord ⟨run, round, now, state⟩ records) := by
  cases s with
  | memory m =>
    obtain ⟨rfl, hsorted⟩ := h
    obtain ⟨hnew, rfl⟩ := persist_memory_eq_ok.mp hp
    exact ⟨hnew, rfl, rfl, MemoryStore.history_setRun ..,
      MemoryStore.pairwise_insertRecord hsorted hnew⟩
  | directory d files =>
    obtain ⟨base, h⟩ := h
    obtain ⟨files', hrun, rfl⟩ := persist_directory_eq.mp hp
    obtain ⟨hnew, h⟩ := h.persist hround hrun
    exact ⟨hnew, rfl, rfl, base, h⟩

/-- **A round that is kept is not recorded again**, and nothing changes. -/
theorem Keeps.persist_again (h : s.Keeps run records) {r : RoundRecord} (hr : r ∈ records)
    (state : RunState) (now : Instant) :
    s.persist run r.round state now = (.error (.alreadyExists run r.round), s) := by
  cases s with
  | memory m =>
    have hany : (m.history run).any (·.round == r.round) = true :=
      List.any_eq_true.mpr ⟨r, h.1 ▸ hr, beq_self_eq_true _⟩
    simp only [Store.persist, MemoryStore.persist, hany, if_true]
  | directory d files =>
    obtain ⟨base, h⟩ := h
    simp only [Store.persist, h.persist_again hr]

/-- **What the store tells of a run are its records**, each as it is read. -/
theorem Keeps.history (h : s.Keeps run records) (hne : records ≠ []) {told : List RoundRecord} :
    s.history run = .ok told ↔ List.Forall₂ (fun r r' => s.reread r = .ok r') records told := by
  cases s with
  | memory m =>
    have heq : List.Forall₂ (fun r r' => reread (.memory m) r = .ok r') records told ↔
        records = told := by
      simp only [reread, Except.ok.injEq]
      exact iff_of_eq (congrFun₂ List.forall₂_eq_eq_eq records told)
    rw [heq, ← h.1, Store.history, Except.ok.injEq]
  | directory d files =>
    obtain ⟨base, h⟩ := h
    rw [Store.history, h.history hne]
    exact Json.mapM_eq_ok

/-- What the store loads is the state of the last record it tells of. -/
theorem load_eq (s : Store) (run : RunId) :
    s.load run = (s.history run).map fun told => told.getLast?.map (·.state) := by
  cases s with
  | memory m => rfl
  | directory d files =>
    rw [Store.load, Store.history, DirectoryStore.run_load]

/-! ### What is read back -/

/-- **The state that is read back is the one that was recorded**, but for its times and
for what its tasks and results carry. -/
structure Alike (s s' : RunState) : Prop where
  same : s' = { s with
    tasks := s'.tasks, results := s'.results, startedAt := s'.startedAt
    completedAt := s'.completedAt }
  tasks : s'.tasks.length = s.tasks.length
  results : s'.results.length = s.results.length
  completedAt : s'.completedAt.isSome = s.completedAt.isSome

theorem Alike.refl (state : RunState) : Alike state state := ⟨rfl, rfl, rfl, rfl⟩

/-- **What a store reads of a record is alike**, and the state is the same exactly if
nothing of it is lost. -/
theorem alike_of_reread {r r' : RoundRecord} (h : s.reread r = .ok r') :
    r'.runId = r.runId ∧ r'.round = r.round ∧ Alike r.state r'.state ∧
      (r'.state = r.state ↔ s.Preserves r.state) := by
  cases s with
  | memory m =>
    obtain rfl := Except.ok.inj h
    exact ⟨rfl, rfl, .refl _, iff_of_true rfl trivial⟩
  | directory d files =>
    have hread := DirectoryStore.readAs_of_reread h
    refine ⟨hread.runId, hread.round,
      ⟨hread.state.same, hread.state.tasks.length_eq.symm, hread.state.results.length_eq.symm, ?_⟩,
      hread.state.eq_iff⟩
    have hsome := congrArg Option.isSome hread.state.completedAt
    rw [Option.isSome_map, Option.isSome_map] at hsome
    exact hsome.symm

/-- Runs that started at one time are read as such. -/
theorem startedAt_of_reread {r r' x x' : RoundRecord} (hr : s.reread r = .ok r')
    (hx : s.reread x = .ok x') (h : x.state.startedAt = r.state.startedAt) :
    x'.state.startedAt = r'.state.startedAt := by
  cases s with
  | memory m =>
    obtain rfl := Except.ok.inj hr
    obtain rfl := Except.ok.inj hx
    exact h
  | directory d files =>
    have hr := (DirectoryStore.readAs_of_reread hr).state.startedAt
    have hx := (DirectoryStore.readAs_of_reread hx).state.startedAt
    rw [h, hr] at hx
    exact (Option.some.inj hx).symm

end Store

end Roundtable

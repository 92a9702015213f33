import Roundtable.Proofs.Course.Chronicle

/-!
# What a store shows to one run

Two stores are twins for a run if they hold the same of it (`Roundtable.Store.Twins`):
whatever they hold of other runs, they tell it the same history. **A round that one of them
records the other can record too, and they stay twins** (`Roundtable.Store.Twins.persist`);
and what is recorded of another run changes nothing (`Roundtable.Store.Twins.foreign`).

For files this is a matter of paths: all that a run reads and writes stands below the
directory that is named by its id. Every operation on a path of the run has the same answer
in both trees and leaves them alike, and no path of another run leads there
(`Roundtable.DirectoryStore.Twin`).
-/

namespace Roundtable

/-! ### Names -/

/-- A run id is told by its text. -/
theorem RunId.eq_of_text {run other : RunId} (h : other.text = run.text) : other = run := by
  cases other
  cases run
  subst h
  rfl

/-- What reads as a number holds digits, and a plus sign at most. -/
theorem Numeral.isDigit_of_below? {limit n : Nat} {s : List Char} (h : below? limit s = some n) :
    ∀ c ∈ s, isDigit c = true ∨ c = '+' := by
  have hdigits {r : List Char} {m : Nat} (hr : ofDigits? r = some m) :
      ∀ c ∈ r, isDigit c = true := by
    unfold ofDigits? at hr
    split at hr
    · cases hr
    · split at hr
      · next hall => exact List.all_eq_true.mp hall
      · cases hr
  unfold below? at h
  dsimp only at h
  split at h
  · next m hm =>
    split at hm
    · intro c hc
      rcases List.mem_cons.mp hc with rfl | hc
      · exact .inr rfl
      · exact .inl (hdigits hm c hc)
    · exact fun c hc => .inl (hdigits hm c hc)
  · cases h

namespace DirectoryStore

variable {d : DirectoryStore} {base : List String} {run other : RunId} {t t' t₁ : FileTree}
  {name : String} {round : Nat} {state : RunState} {now : Instant}

/-- **What is named like a record is one part of a path.** -/
theorem isName_of_roundOf? (h : roundOf? name = some round) : Path.IsName name := by
  unfold roundOf? at h
  dsimp only at h
  split at h
  · next hstart =>
    split at h
    · next hend =>
      obtain ⟨rest, hrest⟩ := List.isPrefixOf_iff_prefix.mp hstart
      rw [← hrest, List.drop_left] at h hend
      obtain ⟨-, hend⟩ := (Bool.and_eq_true _ _).mp hend
      refine isName_of_toList (m := rest.take (rest.length - nameEnd.length)) ?_ fun hmem => ?_
      · have hparts := List.take_append_drop (rest.length - nameEnd.length) rest
        rw [beq_iff_eq.mp hend] at hparts
        rw [← hrest, List.append_assoc, hparts]
      · rcases Numeral.isDigit_of_below? h _ hmem with h | h <;> exact absurd h (by decide)
    · cases h
  · cases h

/-! ### Directories -/

/-- **The trees hold the same of a run**: the base of the store stands in both, and below it
the directory of the run with the same files. -/
structure Twin (d : DirectoryStore) (base : List String) (run : RunId) (t t₁ : FileTree) :
    Prop where
  isOpen : d.IsOpen t base
  isOpen₁ : d.IsOpen t₁ base
  lookup : ∀ rest, t.lookup (base ++ run.text :: rest) = t₁.lookup (base ++ run.text :: rest)
  children : t.children (base ++ [run.text]) = t₁.children (base ++ [run.text])

/-- From the base of an open store a path is walked as far as its parts lead. -/
theorem IsOpen.resolve_eq (h : d.IsOpen t base) (run : RunId) (hname : Path.IsName name) :
    t.resolve (d.runPath run) =
        (FileTree.checkPath (d.runPath run) >>= fun _ => t.walk base [run.text]) ∧
      t.resolve (Path.join (d.runPath run) name) =
        (FileTree.checkPath (Path.join (d.runPath run) name) >>= fun _ =>
          t.walk base [run.text, name]) := by
  have hrun : t.walk (t.origin (d.runPath run)) (Path.parts (d.runPath run)) =
      t.walk base [run.text] := by
    rw [runPath, FileTree.origin_join run.isName, Path.parts_join run.isName,
      FileTree.walk_append_of_ok h.walk]
  have hjoin : t.walk (t.origin (Path.join (d.runPath run) name))
      (Path.parts (Path.join (d.runPath run) name)) = t.walk base [run.text, name] := by
    rw [FileTree.origin_join hname, Path.parts_join hname, runPath,
      FileTree.origin_join run.isName, Path.parts_join run.isName, List.append_assoc,
      FileTree.walk_append_of_ok h.walk]
    rfl
  exact ⟨by rw [FileTree.resolve, hrun], by rw [FileTree.resolve, hjoin]⟩

namespace Twin

theorem refl (h : d.IsOpen t base) : d.Twin base run t t := ⟨h, h, fun _ => rfl, rfl⟩

/-- **Paths of the run lead to the same places.** -/
theorem resolve (h : d.Twin base run t t₁) (hname : Path.IsName name) :
    t.resolve (d.runPath run) = t₁.resolve (d.runPath run) ∧
      t.resolve (Path.join (d.runPath run) name) = t₁.resolve (Path.join (d.runPath run) name) := by
  have hstep (rest : List String) (hrest : t.walk (base ++ [run.text]) rest =
      t₁.walk (base ++ [run.text]) rest) :
      t.walk base (run.text :: rest) = t₁.walk base (run.text :: rest) := by
    rw [FileTree.walk, FileTree.walk, h.isOpen.directory, h.isOpen₁.directory]
    cases hs : FileTree.stepTo base run.text with
    | error e => rfl
    | ok next =>
      obtain rfl := FileTree.stepTo_name run.isName hs
      exact hrest
  have heq := h.isOpen.resolve_eq run hname
  have heq₁ := h.isOpen₁.resolve_eq run hname
  refine ⟨by rw [heq.1, heq₁.1, hstep [] rfl], ?_⟩
  rw [heq.2, heq₁.2, hstep [name]]
  rw [FileTree.walk, FileTree.walk, h.lookup []]
  rfl

/-- The same node is put in the same place of the run. -/
theorem set (h : d.Twin base run t t₁) {rest : List String} {n : FileNode}
    (hn : t.lookup (base ++ run.text :: rest) = some .directory → n = .directory)
    (hp : t.lookup (base ++ run.text :: rest).dropLast = some .directory) :
    d.Twin base run (t.set (base ++ run.text :: rest) n) (t₁.set (base ++ run.text :: rest) n) := by
  have hne : base ++ run.text :: rest ≠ [] := by simp
  have hn₁ := hn
  rw [h.lookup] at hn₁
  have hp₁ : t₁.lookup (base ++ run.text :: rest).dropLast = some .directory := by
    rcases rest.eq_nil_or_concat with rfl | ⟨l, a, rfl⟩
    · rw [List.dropLast_concat]
      exact h.isOpen₁.directory
    · rw [List.concat_eq_append, ← List.cons_append, ← List.append_assoc,
        List.dropLast_concat] at hp ⊢
      rw [← h.lookup, hp]
  refine ⟨h.isOpen.grows (FileTree.grows_set hne hn) (h.isOpen.sound.set hne hn hp),
    h.isOpen₁.grows (FileTree.grows_set hne hn₁) (h.isOpen₁.sound.set hne hn₁ hp₁), fun q => ?_,
    FileTree.children_set_congr h.children _ n⟩
  by_cases hq : base ++ run.text :: q = base ++ run.text :: rest
  · rw [hq, FileTree.lookup_set_self hne, FileTree.lookup_set_self hne]
  · rw [FileTree.lookup_set_ne hq, FileTree.lookup_set_ne hq, h.lookup]

/-- **The directory of the run is made in both trees**, or in none. -/
theorem makeDirs (h : d.Twin base run t t₁) :
    (t.makeDirs (d.runPath run)).1 = (t₁.makeDirs (d.runPath run)).1 ∧
      d.Twin base run (t.makeDirs (d.runPath run)).2 (t₁.makeDirs (d.runPath run)).2 := by
  rw [h.isOpen.makeDirs_eq, h.isOpen₁.makeDirs_eq]
  cases FileTree.checkPath (d.runPath run) with
  | error e => exact ⟨rfl, h⟩
  | ok =>
    dsimp only
    rw [FileTree.makeAlong, FileTree.makeAlong]
    cases hs : FileTree.stepTo base run.text with
    | error e => exact ⟨rfl, h⟩
    | ok next =>
      obtain rfl := FileTree.stepTo_name run.isName hs
      dsimp only
      rw [← h.lookup []]
      cases hl : t.lookup (base ++ [run.text]) with
      | none =>
        refine ⟨rfl, h.set (fun _ => rfl) ?_⟩
        rw [List.dropLast_concat]
        exact h.isOpen.directory
      | some n => cases n <;> exact ⟨rfl, h⟩

/-- **What stands where a file of the run is named, and what it stands in**, is the same. -/
theorem file (h : d.Twin base run t t₁) (hname : Path.IsName name) {place : List String}
    (hr : t.resolve (Path.join (d.runPath run) name) = .ok place) :
    place = base ++ run.text :: [name] ∧ t.lookup place = t₁.lookup place ∧
      t.lookup place.dropLast = t₁.lookup place.dropLast := by
  obtain ⟨hplace, -⟩ := h.isOpen.resolve_name hname hr
  have hdir : place.dropLast = base ++ run.text :: [] := by rw [hplace, List.dropLast_concat]
  rw [List.append_assoc] at hplace
  refine ⟨hplace, ?_, ?_⟩
  · rw [hplace]
    exact h.lookup [name]
  · rw [hdir]
    exact h.lookup []

/-- **A file of the run is made in both trees**, or in none. -/
theorem createNew (h : d.Twin base run t t₁) (round : Nat) :
    (t.createNew (d.recordPath run round)).1 = (t₁.createNew (d.recordPath run round)).1 ∧
      d.Twin base run (t.createNew (d.recordPath run round)).2
        (t₁.createNew (d.recordPath run round)).2 := by
  unfold FileTree.createNew
  have hresolve := (h.resolve (isName_fileName round)).2
  rw [recordPath, ← hresolve]
  cases hr : t.resolve (Path.join (d.runPath run) (fileName round)) with
  | error e => exact ⟨rfl, h⟩
  | ok place =>
    obtain ⟨rfl, hfile, hdir⟩ := h.file (isName_fileName round) hr
    dsimp only
    rw [← hfile, ← hdir]
    split
    · exact ⟨rfl, h⟩
    · next hnone hparent =>
      refine ⟨rfl, h.set (fun hd => ?_) hparent⟩
      rw [hnone] at hd
      cases hd
    · exact ⟨rfl, h⟩
    · exact ⟨rfl, h⟩

/-- **A file of the run is written in both trees**, or in none. -/
theorem write (h : d.Twin base run t t₁) (round : Nat) (text : String) :
    (t.write (d.recordPath run round) text).1 = (t₁.write (d.recordPath run round) text).1 ∧
      d.Twin base run (t.write (d.recordPath run round) text).2
        (t₁.write (d.recordPath run round) text).2 := by
  unfold FileTree.write
  have hresolve := (h.resolve (isName_fileName round)).2
  rw [recordPath, ← hresolve]
  cases hr : t.resolve (Path.join (d.runPath run) (fileName round)) with
  | error e => exact ⟨rfl, h⟩
  | ok place =>
    obtain ⟨rfl, hfile, hdir⟩ := h.file (isName_fileName round) hr
    dsimp only
    rw [← hfile, ← hdir]
    split
    · exact ⟨rfl, h⟩
    · next hold =>
      refine ⟨rfl, h.set (fun hd => ?_) (h.isOpen.sound.lookup_dropLast hold)⟩
      rw [hold] at hd
      cases hd
    · next hnone hparent =>
      refine ⟨rfl, h.set (fun hd => ?_) hparent⟩
      rw [hnone] at hd
      cases hd
    · exact ⟨rfl, h⟩
    · exact ⟨rfl, h⟩

/-- **A round that is recorded in one tree can be recorded in the other.** -/
theorem persist (h : d.Twin base run t t₁)
    (hp : (d.persist run round state now).run t = (.ok (), t')) :
    ∃ t₁', (d.persist run round state now).run t₁ = (.ok (), t₁') ∧ d.Twin base run t' t₁' := by
  obtain ⟨made, created, hmade, hcreated, hwritten⟩ := persist_eq_ok hp
  obtain ⟨hanswer, hmade₁⟩ := h.makeDirs
  rcases hm₁ : t₁.makeDirs (d.runPath run) with ⟨answer, made₁⟩
  rw [hmade, hm₁] at hanswer hmade₁
  obtain ⟨hanswer', hcreated₁⟩ := hmade₁.createNew round
  rcases hc₁ : made₁.createNew (d.recordPath run round) with ⟨answer', created₁⟩
  rw [hcreated, hc₁] at hanswer' hcreated₁
  obtain ⟨hanswer'', hwritten₁⟩ := hcreated₁.write round (recordText ⟨run, round, now, state⟩)
  rcases hw₁ : created₁.write (d.recordPath run round) (recordText ⟨run, round, now, state⟩)
    with ⟨answer'', t₁'⟩
  rw [hwritten, hw₁] at hanswer'' hwritten₁
  subst hanswer hanswer' hanswer''
  exact ⟨t₁', run_persist hm₁ hc₁ hw₁, hwritten₁⟩

/-- The directory of the run lists the same names. -/
theorem list (h : d.Twin base run t t₁) : t.list (d.runPath run) = t₁.list (d.runPath run) := by
  -- The name only chooses a path below the directory; any one would do.
  rw [FileTree.list_eq, FileTree.list_eq, ← (h.resolve (isName_fileName 0)).1]
  cases hr : t.resolve (d.runPath run) with
  | error e => rfl
  | ok place =>
    obtain rfl := h.isOpen.walk_run (FileTree.resolve_eq_ok.mp hr).2
    dsimp only [Except.bind]
    rw [h.lookup [], h.children]

/-- Files of the run are read alike. -/
theorem read (h : d.Twin base run t t₁) (hname : Path.IsName name) :
    t.read (Path.join (d.runPath run) name) = t₁.read (Path.join (d.runPath run) name) := by
  unfold FileTree.read
  rw [← (h.resolve hname).2]
  cases hr : t.resolve (Path.join (d.runPath run) name) with
  | error e => rfl
  | ok place =>
    dsimp only [bind, Except.bind]
    rw [(h.file hname hr).2.1]

/-- **What both trees tell of the run is the same.** -/
theorem history (h : d.Twin base run t t₁) :
    ((d.history run).run t).1 = ((d.history run).run t₁).1 := by
  rw [run_history, run_history, ← h.list]
  cases t.list (d.runPath run) with
  | error e => cases e <;> rfl
  | ok entries =>
    refine mapM_congr fun x hx => ?_
    obtain ⟨entry, -, hentry⟩ := List.mem_filterMap.mp (List.mem_mergeSort.mp hx)
    obtain ⟨round, hround, rfl⟩ := Option.map_eq_some_iff.mp hentry
    rw [recordAt, recordAt, h.read (isName_of_roundOf? hround)]

/-- A node that is put in a new place outside the directory of the run. -/
theorem set_outside (h : d.Twin base run t t₁) {here : List String} {n : FileNode}
    (hopen : d.IsOpen (t.set (here ++ [name]) n) base) (hnew : t.lookup (here ++ [name]) = none)
    (hhere : here ≠ base ++ [run.text])
    (hplace : ∀ rest, base ++ run.text :: rest ≠ here ++ [name]) :
    d.Twin base run (t.set (here ++ [name]) n) t₁ := by
  refine ⟨hopen, h.isOpen₁, fun rest => ?_, ?_⟩
  · rw [FileTree.lookup_set_ne (hplace rest), h.lookup]
  · rw [(FileTree.children_set hnew n).2 _ (Ne.symm hhere), h.children]

/-- **What is recorded of another run changes nothing.** -/
theorem foreign (h : d.Twin base run t t₁) (hne : other.text ≠ run.text)
    (hp : (d.persist other round state now).run t = (.ok (), t')) : d.Twin base run t' t₁ := by
  have hopen' := (h.isOpen.persist hp).isOpen
  obtain ⟨made, hopen, -, -, hmade, -, hnone, rfl⟩ := h.isOpen.persist_eq hp
  have houtside (rest rest' : List String) :
      base ++ run.text :: rest ≠ base ++ other.text :: rest' := by
    intro heq
    exact hne (List.cons.inj (List.append_cancel_left heq)).1.symm
  have hmade : d.Twin base run made t₁ := by
    rcases hmade with rfl | ⟨hnew, rfl⟩
    · exact h
    · exact h.set_outside hopen hnew (by simp) fun rest => houtside rest []
  refine hmade.set_outside hopen' hnone (fun heq => houtside [] [] heq.symm) fun rest => ?_
  rw [List.append_assoc]
  exact houtside rest [fileName round]

end Twin

end DirectoryStore

/-! ### Stores -/

theorem MemoryStore.lookup_setRun_ne {run other : RunId} (h : run ≠ other)
    (records : List RoundRecord) (runs : List (RunId × List RoundRecord)) :
    (setRun other records runs).lookup run = runs.lookup run := by
  have hne : (run == other) = false := beq_eq_false_iff_ne.mpr h
  induction runs with
  | nil => simp [setRun, h]
  | cons x rest ih =>
    obtain ⟨r, rs⟩ := x
    rw [setRun]
    split
    · next heq =>
      subst heq
      rw [List.lookup_cons, List.lookup_cons, hne]
    · split
      · rw [List.lookup_cons, hne]
      · rw [List.lookup_cons, List.lookup_cons, ih]

namespace Store

variable {s s' s₁ : Store} {run other : RunId} {c : Call} {calls : List Call}

/-- **The stores hold the same of a run.** -/
def Twins (run : RunId) : Store → Store → Prop
  | memory m, memory m₁ => m.history run = m₁.history run
  | directory d t, directory d₁ t₁ => d₁ = d ∧ ∃ base, d.Twin base run t t₁
  | memory _, directory .. | directory .., memory _ => False

theorem Twins.refl (h : s.IsOpen) : Twins run s s := by
  cases s with
  | memory m => exact rfl
  | directory d t =>
    obtain ⟨base, h⟩ := h
    exact ⟨rfl, base, .refl h⟩

/-- **What both stores tell of the run is the same.** -/
theorem Twins.history (h : Twins run s s₁) : s.history run = s₁.history run := by
  cases s <;> cases s₁
  · exact congrArg _ h
  · exact h.elim
  · exact h.elim
  · obtain ⟨rfl, base, h⟩ := h
    exact h.history

/-- **A round that one store records the other can record too.** -/
theorem Twins.persist {round : Nat} {state : RunState} {now : Instant} (h : Twins run s s₁)
    (hp : s.persist run round state now = (.ok (), s')) :
    ∃ s₁', s₁.persist run round state now = (.ok (), s₁') ∧ Twins run s' s₁' := by
  cases s with
  | memory m =>
    cases s₁ with
    | directory => exact h.elim
    | memory m₁ =>
      obtain ⟨hnew, rfl⟩ := persist_memory_eq_ok.mp hp
      refine ⟨_, persist_memory_eq_ok.mpr ⟨h ▸ hnew, rfl⟩, ?_⟩
      rw [Twins, MemoryStore.history_setRun, MemoryStore.history_setRun, h]
  | directory d t =>
    cases s₁ with
    | memory => exact h.elim
    | directory d₁ t₁ =>
      obtain ⟨rfl, base, h⟩ := h
      obtain ⟨t', hrun, rfl⟩ := persist_directory_eq.mp hp
      obtain ⟨t₁', hrun₁, h'⟩ := h.persist hrun
      exact ⟨_, persist_directory_eq.mpr ⟨t₁', hrun₁, rfl⟩, rfl, base, h'⟩

/-- **What is recorded of another run changes nothing.** -/
theorem Twins.foreign {round : Nat} {state : RunState} {now : Instant} (h : Twins run s s₁)
    (hne : other ≠ run) (hp : s.persist other round state now = (.ok (), s')) :
    Twins run s' s₁ := by
  cases s with
  | memory m =>
    cases s₁ with
    | directory => exact h.elim
    | memory m₁ =>
      obtain ⟨-, rfl⟩ := persist_memory_eq_ok.mp hp
      rw [Twins, ← h, MemoryStore.history, MemoryStore.lookup_setRun_ne (Ne.symm hne)]
      rfl
  | directory d t =>
    cases s₁ with
    | memory => exact h.elim
    | directory d₁ t₁ =>
      obtain ⟨rfl, base, h⟩ := h
      obtain ⟨t', hrun, rfl⟩ := persist_directory_eq.mp hp
      exact ⟨rfl, base, h.foreign (mt RunId.eq_of_text hne) hrun⟩

/-- **A call of the run that one store answers the other answers alike.** -/
theorem Twins.answers (h : Twins run s s₁) (ha : s.Answers run c s') :
    ∃ s₁', s₁.Answers run c s₁' ∧ Twins run s' s₁' := by
  cases ha with
  | recorded hp =>
    obtain ⟨s₁', hp₁, h'⟩ := h.persist hp
    exact ⟨s₁', .recorded hp₁, h'⟩
  | loaded hl =>
    refine ⟨s₁, .loaded ?_, h⟩
    rw [load_eq, ← h.history, ← load_eq, hl]
  | planned => exact ⟨s₁, .planned, h⟩
  | judged => exact ⟨s₁, .judged, h⟩

/-- **What one store answers a run the other answers alike**, call by call. -/
theorem Twins.serves (h : Twins run s s₁) (hs : s.Serves run calls s') :
    ∃ s₁', s₁.Serves run calls s₁' ∧ Twins run s' s₁' := by
  induction hs with
  | nil => exact ⟨s₁, .nil, h⟩
  | concat _ ha ih =>
    obtain ⟨s₂, hs₂, h₂⟩ := ih
    obtain ⟨s₁', ha₁, h'⟩ := h₂.answers ha
    exact ⟨s₁', .concat hs₂ ha₁, h'⟩

/-- **The calls of another run change nothing.** -/
theorem Twins.serves_foreign (h : Twins run s s₁) (hne : other ≠ run)
    (hs : s.Serves other calls s') : Twins run s' s₁ := by
  induction hs with
  | nil => exact h
  | concat _ ha ih =>
    cases ha with
    | recorded hp => exact ih.foreign hne hp
    | loaded | planned | judged => exact ih

end Store

end Roundtable

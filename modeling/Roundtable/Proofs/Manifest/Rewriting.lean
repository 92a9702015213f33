import Roundtable.Manifest.Loading
import Roundtable.Proofs.File.Trees
import Roundtable.Proofs.Manifest.Parts

/-!
# Rewriting and overriding manifests

A manifest goes through files and environments: it is written and read again, read from a
file that leaves most of it out, and overridden by variables. **None of this does more to it
than it should** (`Roundtable.Manifest.survives_of_isRegular`).

That YAML carries the fields of a manifest (`Roundtable.Yaml.carries`) is not a matter of
manifests, and taken for granted here. What a process then works with is the
manifest it found, overridden (`Roundtable.Manifest.run_load`), and each of the four variables
decides one setting from its value alone (`Roundtable.Manifest.Overridden`); so a variable
has nothing more to decide the second time.
-/

namespace Roundtable

namespace Manifest

open Yaml

/-! ### Overriding -/

section Overriding

variable {α : Type} {env : Environment} {name : String} {read : String → Option α} {old new : α}

/-- **A variable decides a setting**: the setting is what the variable gives, where that can be
read, and what it was where the variable is not set or cannot be read. -/
structure Decides (env : Environment) (name : String) (read : String → Option α)
    (old new : α) : Prop where
  given : ∀ text x, env.lookup name = some text → read text = some x → new = x
  kept : (∀ text, env.lookup name = some text → read text = none) → new = old

theorem decides_overriding : Decides env name read old (overriding env name read old) where
  given text x htext hx := by rw [overriding, htext, Option.bind_some, hx, Option.getD_some]
  kept h := by
    have hnone : (env.lookup name).bind read = none := Option.bind_eq_none_iff.mpr h
    rw [overriding, hnone, Option.getD_none]

/-- Nothing else is decided so. -/
theorem Decides.eq (h : Decides env name read old new) : new = overriding env name read old := by
  cases hread : (env.lookup name).bind read with
  | some x =>
    obtain ⟨text, htext, hx⟩ := Option.bind_eq_some_iff.mp hread
    rw [overriding, hread, Option.getD_some]
    exact h.given text x htext hx
  | none =>
    rw [overriding, hread, Option.getD_none]
    exact h.kept (Option.bind_eq_none_iff.mp hread)

/-- What a variable has decided it decides the same way again. -/
theorem Decides.self (h : Decides env name read old new) : Decides env name read new new where
  given := h.given
  kept _ := rfl

end Overriding

variable {env : Environment} {home asked : Option String} {path : String} {m m' : Manifest}
  {t t' : FileTree}

/-- **The second manifest is the first one, overridden**: four settings are decided, each by
its own variable, and all else is as it was. -/
structure Overridden (env : Environment) (m m' : Manifest) : Prop where
  workers : Decides env "CONCLAVE_WORKER_COUNT" (fun text => Numeral.below? (2 ^ 64) text.toList)
    m.settings.rounds.workers m'.settings.rounds.workers
  maxRounds : Decides env "CONCLAVE_MAX_ROUNDS" (fun text => Numeral.below? (2 ^ 32) text.toList)
    m.settings.rounds.maxRounds m'.settings.rounds.maxRounds
  timeout : Decides env "CONCLAVE_SUBAGENT_TIMEOUT" Span.ofText?
    m.settings.timeout m'.settings.timeout
  path : Decides env "CONCLAVE_STORAGE_PATH" some
    m.settings.storage.path m'.settings.storage.path
  apiVersion : m'.apiVersion = m.apiVersion
  kind : m'.kind = m.kind
  metadata : m'.metadata = m.metadata
  capacity : m'.settings.capacity = m.settings.capacity
  storageKind : m'.settings.storage.kind = m.settings.storage.kind
  logging : m'.settings.logging = m.settings.logging

theorem overridden_override (env : Environment) (m : Manifest) :
    Overridden env m (override env m) where
  workers := decides_overriding
  maxRounds := decides_overriding
  timeout := decides_overriding
  path := decides_overriding
  apiVersion := rfl
  kind := rfl
  metadata := rfl
  capacity := rfl
  storageKind := rfl
  logging := rfl

/-- A manifest is overridden in one way. -/
theorem Overridden.eq (h : Overridden env m m') : m' = override env m := by
  obtain ⟨workers, maxRounds, timeout, path, apiVersion, kind, metadata, capacity, storageKind,
    logging⟩ := h
  obtain ⟨apiVersion', kind', metadata', ⟨⟨workers', maxRounds'⟩, timeout', capacity',
    ⟨storageKind', path'⟩, logging'⟩⟩ := m'
  dsimp only at *
  subst apiVersion kind metadata capacity storageKind logging
  rw [workers.eq, maxRounds.eq, timeout.eq, path.eq]
  rfl

/-- What was overridden is as it was, overridden again. -/
theorem Overridden.self (h : Overridden env m m') : Overridden env m' m' where
  workers := h.workers.self
  maxRounds := h.maxRounds.self
  timeout := h.timeout.self
  path := h.path.self
  apiVersion := rfl
  kind := rfl
  metadata := rfl
  capacity := rfl
  storageKind := rfl
  logging := rfl

/-- **Overriding twice is overriding once.** -/
theorem override_override (env : Environment) (m : Manifest) :
    override env (override env m) = override env m :=
  (overridden_override env m).self.eq.symm

/-! ### Writing and reading -/

theorem IsRegular.ofYamlText?_yamlText (h : m.IsRegular)
    (hcarried : carries m.toYaml = true) : ofYamlText? home m.yamlText = some m := by
  have hreads : Reads (ofYaml home) (.mapping (m.yamlWithout fun _ => false))
      (m.without (fun _ => false) home) := reads_yamlWithout h
  rw [yamlWithout_none, without_none] at hreads
  exact decode?_of_declares hreads hcarried

theorem run_readFile_eq_ok : (readFile home path).run t = (.ok m, t') ↔
    t' = t ∧ ∃ text, t.read path = .ok text ∧ ofYamlText? home text = some m := by
  have hrun : (readFile home path).run t =
      (((t.read path).mapError LoadCause.os).bind fun text =>
        (ofYamlText? home text).elim (.error .unreadable) .ok, t) := by
    simp only [readFile, FileProgram.op, bind, FileProgram.bind, FileProgram.run, FileTree.perform]
    cases t.read path with
    | error e => rfl
    | ok text =>
      simp only [Except.mapError, Except.bind]
      cases ofYamlText? home text <;> rfl
  rw [hrun, Prod.mk.injEq, eq_comm (a := t), and_comm]
  refine and_congr_right fun _ => ?_
  cases t.read path with
  | error e => simp [Except.mapError, Except.bind]
  | ok text => cases hread : ofYamlText? home text <;> simp [Except.mapError, Except.bind, hread]

/-- **A manifest is read from the file it was written to.** -/
theorem IsRegular.run_readFile (h : m.IsRegular) (hcarried : carries m.toYaml = true)
    (hwrite : (writeFile path m).run t = (.ok (), t')) :
    (readFile home path).run t' = (.ok m, t') :=
  run_readFile_eq_ok.mpr
    ⟨rfl, m.yamlText, FileTree.read_of_write hwrite, h.ofYamlText?_yamlText hcarried⟩

/-! ### Loading -/

/-- The manifest that was asked for, or else the first that is there; the environment has not
overridden it. -/
def found (env : Environment) (asked : Option String) :
    FileProgram (Except LoadError Manifest) :=
  match asked with
  | some path => do
    let m ← readFile env.home path
    pure (m.mapError fun cause => ⟨some path, cause⟩)
  | none => do
    match ← discover env with
    | some path => do
      let m ← readFile env.home path
      pure (m.mapError fun cause => ⟨none, cause⟩)
    | none => pure (.ok (standard env.home))

/-- **What is loaded is what was found, overridden.** -/
theorem load_eq (env : Environment) (asked : Option String) :
    load env asked = (found env asked).bind fun m => .done (m.map (override env)) := by
  cases asked with
  | some path => exact (FileProgram.bind_assoc (readFile env.home path) _ _).symm
  | none =>
    refine Eq.trans ?_ (FileProgram.bind_assoc (discover env) _ _).symm
    refine congrArg (FileProgram.bind (discover env)) (funext fun place => ?_)
    cases place with
    | some path => exact (FileProgram.bind_assoc (readFile env.home path) _ _).symm
    | none => rfl

theorem run_load (hfound : (found env asked).run t = (.ok m, t')) :
    (load env asked).run t = (.ok (override env m), t') := by
  rw [load_eq, FileProgram.run_bind, hfound]
  rfl

/-- What is told about a failure does not matter to a manifest that is read. -/
theorem run_mapError_eq_ok {cause : LoadCause → LoadError} :
    ((readFile home path).bind fun m => .done (m.mapError cause)).run t = (.ok m, t') ↔
      (readFile home path).run t = (.ok m, t') := by
  rw [FileProgram.run_bind]
  generalize (readFile home path).run t = result
  obtain ⟨_ | m', t₁⟩ := result <;> simp [FileProgram.run, Except.mapError]

theorem run_found_some : (found env (some path)).run t = (.ok m, t') ↔
    (readFile env.home path).run t = (.ok m, t') :=
  run_mapError_eq_ok

/-- **Every manifest that is found is one a process can hold.** -/
theorem isRegular_of_found (h : (found env asked).run t = (.ok m, t')) : m.IsRegular := by
  have hread {path : String} {t : FileTree} {cause : LoadCause → LoadError}
      (h : ((readFile env.home path).bind fun m => .done (m.mapError cause)).run t = (.ok m, t')) :
      m.IsRegular := by
    obtain ⟨-, text, -, htext⟩ := run_readFile_eq_ok.mp (run_mapError_eq_ok.mp h)
    exact isRegular_of_read htext
  cases asked with
  | some path => exact hread h
  | none =>
    replace h := (FileProgram.run_bind (discover env) _ t).symm.trans h
    split at h
    · exact hread h
    · obtain ⟨hstandard, -⟩ := Prod.mk.inj h
      exact Except.ok.inj hstandard ▸ isRegular_standard env.home

/-- **A manifest that was found, written and loaded again is overridden as it was before.** -/
theorem run_load_of_writeFile (hfound : (found env asked).run t = (.ok m, t'))
    (hcarried : carries m.toYaml = true) {t'' : FileTree}
    (hwrite : (writeFile path m).run t' = (.ok (), t'')) :
    (load env (some path)).run t'' = (.ok (override env m), t'') :=
  run_load (run_found_some.mpr ((isRegular_of_found hfound).run_readFile hcarried hwrite))

/-! ### Everything at once -/

/-- **What a manifest survives**: being written and read, being written in part, and being
overridden. What is written counts where YAML carries it. -/
structure Survives (home : Option String) (m : Manifest) : Prop where
  /-- Its text reads as the manifest. -/
  text : carries m.toYaml = true → ofYamlText? home m.yamlText = some m
  /-- So does the file it is written to. -/
  file : carries m.toYaml = true → ∀ path t t',
    (writeFile path m).run t = (.ok (), t') → (readFile home path).run t' = (.ok m, t')
  /-- What a text leaves out has its standard value, and all else is as it was. -/
  parts : ∀ left text, declares text (m.yamlWithout left) = true →
    ofYamlText? home text = some (m.without left home)
  /-- Each of four variables decides its own setting. -/
  overriding : ∀ env, Overridden env m (override env m)
  twice : ∀ env, override env (override env m) = override env m
  /-- Loading overrides what was found, and still does so when that was written anew. -/
  loading : ∀ env asked t t', (found env asked).run t = (.ok m, t') →
    (load env asked).run t = (.ok (override env m), t') ∧
    (carries m.toYaml = true → ∀ path t'',
      (writeFile path m).run t' = (.ok (), t'') →
      (load env (some path)).run t'' = (.ok (override env m), t''))

/-- **A manifest survives being rewritten and overridden.** -/
theorem survives_of_isRegular (h : m.IsRegular) (home : Option String) : m.Survives home where
  text hcarried := h.ofYamlText?_yamlText hcarried
  file hcarried _ _ _ hwrite := h.run_readFile hcarried hwrite
  parts _ _ htext := decode?_of_declares (reads_yamlWithout h) htext
  overriding env := overridden_override env m
  twice env := override_override env m
  loading _ _ _ _ hfound :=
    ⟨run_load hfound, fun hcarried _ _ hwrite => run_load_of_writeFile hfound hcarried hwrite⟩

/-- A manifest whose texts could all be taken for something else, and whose counts and timeout
are the least or the greatest there are. -/
def awkward : Manifest where
  apiVersion := "1.0"
  kind := "a: b"
  metadata := ⟨"", some "null", some [("", "#"), ("k", "x\ny")]⟩
  settings :=
    { rounds := ⟨2 ^ 64 - 1, 0⟩
      timeout := ⟨(2 ^ 64 - 1) * Span.perSecond + 999999999⟩
      capacity := 0
      storage := ⟨.memory, "~/å"⟩
      logging := ⟨" ", "true"⟩ }

/-- What is left out of it: a section, the only setting of another, and one of two. -/
def awkwardLeft (p : Part) : Bool := p == .rounds || p == .timeout || p == .storageKind

/-- Two variables that count, one that is over its limit, and one that is no span. -/
def awkwardEnvironment : Environment :=
  ⟨"/home", [("CONCLAVE_WORKER_COUNT", "+8"), ("CONCLAVE_MAX_ROUNDS", "4294967296"),
    ("CONCLAVE_SUBAGENT_TIMEOUT", "soon"), ("CONCLAVE_STORAGE_PATH", "")]⟩

theorem isRegular_awkward : awkward.IsRegular where
  metadata := by
    intro labels hlabels
    obtain rfl := Option.some.inj hlabels
    decide
  settings :=
    ⟨show 2 ^ 64 - 1 < 2 ^ 64 by decide, show 0 < 2 ^ 32 by decide,
      show awkward.settings.timeout.seconds < Span.countLimit by decide,
      show 0 < 2 ^ 64 by decide⟩

/-- It is read whole, and in part from a text in another order; and it is loaded from a file and
from the file that was written then, overridden both times alike. -/
theorem survives_awkward :
    ofYamlText? "/home" awkward.yamlText = some awkward ∧
    ofYamlText? "/home" (page (awkward.yamlWithout awkwardLeft).reverse) =
      some (awkward.without awkwardLeft "/home") ∧
    (override awkwardEnvironment awkward).settings.rounds = ⟨8, 0⟩ ∧
    ∃ t t', (writeFile "/a.yaml" awkward).run .empty = (.ok (), t) ∧
      (writeFile "/b.yaml" awkward).run t = (.ok (), t') ∧
      (load awkwardEnvironment (some "/a.yaml")).run t =
        (.ok (override awkwardEnvironment awkward), t) ∧
      (load awkwardEnvironment (some "/b.yaml")).run t' =
        (.ok (override awkwardEnvironment awkward), t') := by
  have h : awkward.Survives "/home" := survives_of_isRegular isRegular_awkward "/home"
  have hcarried : carries awkward.toYaml = true := by
    rw [carries, declares, Document.ofText?, tokens?, page, String.toList_ofList]
    decide +kernel
  have hleft : declares (page (awkward.yamlWithout awkwardLeft).reverse)
      (awkward.yamlWithout awkwardLeft) = true := by
    rw [declares, Document.ofText?, tokens?, page, String.toList_ofList]
    decide +kernel
  have hrounds : (override awkwardEnvironment awkward).settings.rounds = ⟨8, 0⟩ := by decide +kernel
  -- The manifest is written to one file, found there, and written to another.
  have hwrite : (writeFile "/a.yaml" awkward).run .empty =
      (.ok (), FileTree.empty.set ["a.yaml"] (.file awkward.yamlText)) := rfl
  have hfound : (found awkwardEnvironment (some "/a.yaml")).run _ = (.ok awkward, _) :=
    run_found_some.mpr (h.file hcarried _ _ _ hwrite)
  have hwrite' : (writeFile "/b.yaml" awkward).run
      (FileTree.empty.set ["a.yaml"] (.file awkward.yamlText)) = (.ok (), _) := rfl
  obtain ⟨hload, hloadAgain⟩ := h.loading _ _ _ _ hfound
  exact ⟨h.text hcarried, h.parts awkwardLeft _ hleft, hrounds, _, _, hwrite, hwrite', hload,
    hloadAgain hcarried _ _ hwrite'⟩

end Manifest

end Roundtable

import Roundtable.Proofs.Store.Interrupted

/-!
# Paths of records

Every record has a path of its own, two names below the base of its store: the id of the run,
and the number of the round between a start and an end that never change. **A run id is one
plain name**, so no record leaves the base, and nothing that is recorded is written anywhere
else (`Roundtable.DirectoryStore.asks_persist`).

The names are read back: a round from the name of its file, however many places it takes, and
a run from the name of its directory. So the rounds are told apart and put in order by their
numbers. As texts the names are in order only as long as four places do
(`Roundtable.DirectoryStore.fileName_lt_fileName`); with each further place the first name is
in front of the last one before it (`Roundtable.DirectoryStore.fileName_pow_lt`).
-/

namespace Roundtable

/-! ### What a program asks for -/

/-- The path that an operation is about. -/
def FileOp.path : FileOp → String
  | makeDirs p | createNew p | write p _ | sync p | remove p | list p | read p | «exists» p => p

/-- **All that a program may ask for** satisfies `P`, whatever it is answered. -/
def FileProgram.Asks {α : Type} (P : FileOp → Prop) : FileProgram α → Prop
  | done _ => True
  | perform op next => P op ∧ ∀ answer, (next answer).Asks P

/-! ### Numerals as texts -/

namespace Numeral

variable {s t : List Char} {v w m n : Nat}

theorem digitValue_lt_ten {c : Char} (h : isDigit c = true) : digitValue c < 10 := by
  simp only [isDigit, Bool.and_eq_true, decide_eq_true_eq, Char.le_def,
    UInt32.le_iff_toNat_le] at h
  have hhigh : c.toNat ≤ 57 := h.2
  have hzero : '0'.toNat = 48 := rfl
  rw [digitValue, hzero]
  omega

theorem digitValue_lt_of_lt {c d : Char} (hc : isDigit c = true) (h : c < d) :
    digitValue c < digitValue d := by
  simp only [isDigit, Bool.and_eq_true, decide_eq_true_eq, Char.le_def,
    UInt32.le_iff_toNat_le] at hc
  have hlow : 48 ≤ c.toNat := hc.1
  have hlt : c.toNat < d.toNat := h
  have hzero : '0'.toNat = 48 := rfl
  rw [digitValue, digitValue, hzero]
  omega

/-- As many digits behind a smaller number make a smaller one. -/
theorem valueFrom_lt_of_lt (hs : s.all isDigit = true) (hlen : s.length = t.length) (h : v < w) :
    valueFrom v s < valueFrom w t := by
  induction s generalizing t v w with
  | nil =>
    obtain rfl : t = [] := List.length_eq_zero_iff.mp hlen.symm
    exact h
  | cons c s ih =>
    cases t with
    | nil => cases hlen
    | cons d t =>
      rw [List.all_cons, Bool.and_eq_true] at hs
      have hc := digitValue_lt_ten hs.1
      have hnext : v * 10 + digitValue c < w * 10 + digitValue d := by omega
      have hrest : s.length = t.length := by simpa using hlen
      show valueFrom (v * 10 + digitValue c) s < valueFrom (w * 10 + digitValue d) t
      exact ih hs.2 hrest hnext

/-- **On as many places numbers are in the order of their texts.** -/
theorem valueFrom_lt_of_text_lt (hs : s.all isDigit = true) (hlen : s.length = t.length)
    (h : s < t) (v : Nat) : valueFrom v s < valueFrom v t := by
  induction s generalizing t v with
  | nil =>
    obtain rfl : t = [] := List.length_eq_zero_iff.mp hlen.symm
    exact absurd h (List.lt_irrefl [])
  | cons c s ih =>
    cases t with
    | nil => cases hlen
    | cons d t =>
      rw [List.all_cons, Bool.and_eq_true] at hs
      have hrest : s.length = t.length := by simpa using hlen
      rcases List.cons_lt_cons_iff.mp h with hcd | ⟨rfl, hst⟩
      · have hvalue := digitValue_lt_of_lt hs.1 hcd
        have hnext : v * 10 + digitValue c < v * 10 + digitValue d := by omega
        show valueFrom (v * 10 + digitValue c) s < valueFrom (v * 10 + digitValue d) t
        exact valueFrom_lt_of_lt hs.2 hrest hnext
      · exact ih hs.2 hrest hst _

/-- On as many places texts are in the order of their numbers. -/
theorem padded_lt_padded {width : Nat} (hlen : (padded width m).length = (padded width n).length)
    (h : m < n) : padded width m < padded width n := by
  rcases lt_trichotomy (padded width m) (padded width n) with hlt | heq | hgt
  · exact hlt
  · have hm := value_padded width m
    rw [heq, value_padded] at hm
    omega
  · have hvalue := valueFrom_lt_of_text_lt (all_isDigit_padded width n) hlen.symm hgt 0
    rw [← value, ← value, value_padded, value_padded] at hvalue
    omega

theorem padded_injective (width : Nat) : Function.Injective (padded width) := by
  intro m n h
  rw [← value_padded width m, h, value_padded]

/-- A power of ten is a one and zeros. -/
theorem digitsOnto_pow (k : Nat) : digitsOnto (10 ^ k) [] = '1' :: List.replicate k '0' := by
  induction k with
  | zero =>
    have hdiv : 10 ^ 0 / 10 = 0 := rfl
    rw [digitsOnto_of_ne_zero (by decide), hdiv, digitsOnto_zero]
    rfl
  | succ k ih =>
    have hpos : 0 < 10 ^ k := Nat.pow_pos (by decide)
    have hdiv : 10 ^ (k + 1) / 10 = 10 ^ k := by omega
    have hmod : 10 ^ (k + 1) % 10 = 0 := by omega
    rw [digitsOnto_of_ne_zero (by omega), hdiv, ih, List.replicate_succ', digitChar, hmod]
    rfl

/-- The number in front of a power of ten is nothing but nines. -/
theorem digitsOnto_pow_sub_one (k : Nat) : digitsOnto (10 ^ k - 1) [] = List.replicate k '9' := by
  induction k with
  | zero => exact digitsOnto_zero []
  | succ k ih =>
    have hpos : 0 < 10 ^ k := Nat.pow_pos (by decide)
    have hne : 10 ^ (k + 1) - 1 ≠ 0 := by omega
    have hdiv : (10 ^ (k + 1) - 1) / 10 = 10 ^ k - 1 := by omega
    have hmod : (10 ^ (k + 1) - 1) % 10 = 9 := by omega
    rw [digitsOnto_of_ne_zero hne, hdiv, ih, List.replicate_succ', digitChar, hmod]
    rfl

end Numeral

/-! ### Plain names -/

/-- **A plain name**: one part of a path that leads below the directory it stands in, and is
not hidden there. -/
structure Path.IsPlain (name : String) : Prop extends Path.IsName name where
  notHidden : name.toList.head? ≠ some '.'

theorem RunId.isPlain (run : RunId) : Path.IsPlain run.text := by
  refine ⟨run.isName, ?_⟩
  have hsound := run.sound
  unfold RunIdFault.of? at hsound
  dsimp only at hsound
  split at hsound
  · cases hsound
  split at hsound
  · cases hsound
  split at hsound
  · cases hsound
  split at hsound
  · cases hsound
  · assumption

namespace DirectoryStore

variable {d : DirectoryStore} {files files' : FileTree} {base : List String} {run other : RunId}
  {m n round : Nat} {state : RunState} {now : Instant}

/-! ### The path of a record -/

theorem fileName_injective : Function.Injective fileName := by
  intro m n h
  have htext := congrArg String.toList h
  rw [toList_fileName, toList_fileName, List.append_assoc, List.append_assoc,
    List.append_cancel_left_eq, List.append_cancel_right_eq] at htext
  exact Numeral.padded_injective 4 htext

/-- **A record stands two names below the base.** -/
theorem parts_recordPath (d : DirectoryStore) (run : RunId) (round : Nat) :
    Path.parts (d.recordPath run round) = Path.parts d.base ++ [run.text, fileName round] := by
  rw [recordPath, Path.parts_join (isName_fileName round), runPath, Path.parts_join run.isName,
    List.append_assoc]
  rfl

/-- **No two records have one path.** -/
theorem recordPath_eq_iff : d.recordPath other m = d.recordPath run n ↔ other = run ∧ m = n := by
  constructor
  · intro h
    have hparts := congrArg Path.parts h
    rw [parts_recordPath, parts_recordPath, List.append_cancel_left_eq] at hparts
    obtain ⟨htext, hname⟩ := List.cons.inj hparts
    exact ⟨RunId.eq_of_text htext, fileName_injective (List.cons.inj hname).1⟩
  · rintro ⟨rfl, rfl⟩
    rfl

/-- **Nothing else is touched when a round is recorded**, whatever the system answers: the
directory of the run is made, and all the rest is done to the file of the round. -/
theorem asks_persist (d : DirectoryStore) (run : RunId) (round : Nat) (state : RunState)
    (now : Instant) : (d.persist run round state now).Asks fun op =>
      op = .makeDirs (d.runPath run) ∨ op.path = d.recordPath run round := by
  simp only [persist, bind, FileProgram.op, FileProgram.bind]
  refine ⟨.inl rfl, fun made => ?_⟩
  rcases made with e | _
  · trivial
  refine ⟨.inr rfl, fun created => ?_⟩
  rcases created with e | _
  · cases e <;> trivial
  refine ⟨.inr rfl, fun written => ?_⟩
  rcases written with e | _
  · exact ⟨.inr rfl, fun _ => trivial⟩
  refine ⟨.inr rfl, fun kept => ?_⟩
  rcases kept with e | _ <;> trivial

/-! ### Runs that are listed -/

theorem run_listRuns (d : DirectoryStore) (files : FileTree) : (d.listRuns.run files).1 =
    match files.list d.base with
    | .error e => .error (.ofOs e)
    | .ok entries => .ok ((entries.filterMap fun x =>
        if x.2 then (RunId.ofText x.1).toOption else none).mergeSort fun a b =>
          !(b.text < a.text)) := by
  simp only [listRuns, bind, FileProgram.op, FileProgram.bind, FileProgram.run, FileTree.perform]
  cases files.list d.base <;> rfl

/-- **A directory with the name of a run is listed.** -/
theorem mem_of_listRuns {entries : List (String × Bool)} (hlist : files.list d.base = .ok entries)
    (hmem : (run.text, true) ∈ entries) :
    ∃ ids, (d.listRuns.run files).1 = .ok ids ∧ run ∈ ids := by
  rw [run_listRuns, hlist]
  refine ⟨_, rfl, List.mem_mergeSort.mpr (List.mem_filterMap.mpr ⟨_, hmem, ?_⟩)⟩
  rw [if_pos rfl, RunId.ofText_text]
  rfl

/-- A base with a name can be listed where a run has a directory in it. -/
theorem IsOpen.list_base (h : d.IsOpen files base) (hbase : d.base ≠ "")
    (hcheck : FileTree.checkPath (d.runPath run) = .ok ()) :
    files.list d.base = .ok (files.children base) := by
  have hne : d.base.isEmpty = false := by simpa using hbase
  have hresolve := FileTree.resolve_eq_ok.mpr
    ⟨FileTree.checkPath_join run.isName hne hcheck, h.walk⟩
  exact FileTree.list_eq_ok.mpr ⟨base, hresolve, h.directory, rfl⟩

/-- **A run is listed once a round of it is recorded**, wherever the base can be listed. -/
theorem IsOpen.listRuns_of_persist (h : d.IsOpen files base)
    (hp : (d.persist run round state now).run files = (.ok (), files')) :
    (∀ ids, (d.listRuns.run files').1 = .ok ids → run ∈ ids) ∧
      (d.base ≠ "" → ∃ ids, (d.listRuns.run files').1 = .ok ids) := by
  have hgains := h.persist hp
  have hdir := hgains.isOpen.sound.lookup_dropLast hgains.text
  rw [List.dropLast_concat] at hdir
  have hmem : (run.text, true) ∈ files'.children base := FileTree.mem_children hdir
  constructor
  · intro ids hids
    cases hlist : files'.list d.base with
    | error e =>
      rw [run_listRuns, hlist] at hids
      cases hids
    | ok entries =>
      obtain ⟨place, hresolve, -, rfl⟩ := FileTree.list_eq_ok.mp hlist
      obtain rfl := Except.ok.inj
        ((FileTree.resolve_eq_ok.mp hresolve).2.symm.trans hgains.isOpen.walk)
      obtain ⟨ids', hids', hrun⟩ := mem_of_listRuns hlist hmem
      rw [hids] at hids'
      exact Except.ok.inj hids' ▸ hrun
  · intro hbase
    have hcheck := FileTree.checkPath_join (isName_fileName round) (isEmpty_runPath d run)
      (FileTree.resolve_eq_ok.mp hgains.resolve).1
    obtain ⟨ids, hids, -⟩ := mem_of_listRuns (hgains.isOpen.list_base hbase hcheck) hmem
    exact ⟨ids, hids⟩

/-! ### Rounds in order -/

/-- The names of records are those that tell a round. -/
theorem mem_recordNames {entries : List (String × Bool)} {name : String} :
    (n, name) ∈ recordNames entries ↔ roundOf? name = some n ∧ ∃ b, (name, b) ∈ entries := by
  rw [recordNames, List.mem_mergeSort, List.mem_filterMap]
  simp only [Option.map_eq_some_iff, Prod.mk.injEq, Prod.exists]
  constructor
  · rintro ⟨name, b, hmem, _, hround, rfl, rfl⟩
    exact ⟨hround, b, hmem⟩
  · rintro ⟨hround, b, hmem⟩
    exact ⟨name, b, hmem, n, hround, rfl, rfl⟩

/-- **Files are put in the order of their rounds.** -/
theorem recordNames_map (rounds : List Nat) (h : ∀ n ∈ rounds, n < 2 ^ 32) :
    recordNames (rounds.map fun n => (fileName n, false)) =
      (rounds.mergeSort (· ≤ ·)).map fun n => (n, fileName n) := by
  have hnames : rounds.filterMap
      (fun n => (roundOf? (fileName n)).map fun round => (round, fileName n)) =
        rounds.map fun n => (n, fileName n) := by
    rw [← List.filterMap_eq_map]
    refine List.filterMap_congr fun n hn => ?_
    rw [roundOf?_fileName (h n hn), Option.map_some, Function.comp_apply]
  rw [recordNames, List.filterMap_map]
  refine (congrArg (List.mergeSort · _) hnames).trans ?_
  exact (List.map_mergeSort (f := fun n => (n, fileName n)) fun a _ b _ => rfl).symm

/-- Texts that start alike are in the order of what follows. -/
theorem append_lt_append_left {s t : List Char} (h : s < t) (front : List Char) :
    front ++ s < front ++ t := List.Lex.append_left _ h front

/-- Texts of one length are in the same order whatever follows. -/
theorem append_lt_append_right {s t : List Char} (hlen : s.length = t.length) (h : s < t)
    (u v : List Char) : s ++ u < t ++ v := by
  induction s generalizing t with
  | nil =>
    obtain rfl : t = [] := List.length_eq_zero_iff.mp hlen.symm
    exact absurd h (List.lt_irrefl [])
  | cons c s ih =>
    cases t with
    | nil => cases hlen
    | cons d t =>
      have hrest : s.length = t.length := by simpa using hlen
      rcases List.cons_lt_cons_iff.mp h with hcd | ⟨rfl, hst⟩
      · exact List.cons_lt_cons_iff.mpr (.inl hcd)
      · exact List.cons_lt_cons_iff.mpr (.inr ⟨rfl, ih hrest hst⟩)

/-- **Up to 9999 names are in the order of their rounds.** -/
theorem fileName_lt_fileName (h : m < n) (hn : n < 10 ^ 4) : fileName m < fileName n := by
  have hlen : (Numeral.padded 4 m).length = (Numeral.padded 4 n).length := by
    rw [Numeral.length_padded (by decide) (Nat.lt_trans h hn), Numeral.length_padded (by decide) hn]
  have hmiddle := append_lt_append_right hlen (Numeral.padded_lt_padded hlen h) nameEnd nameEnd
  rw [String.lt_iff_toList_lt, toList_fileName, toList_fileName, List.append_assoc,
    List.append_assoc]
  exact append_lt_append_left hmiddle nameStart

/-- **With every further place the names are out of order**: the first that needs it is in
front of the last that does not. -/
theorem fileName_pow_lt {k : Nat} (hk : 4 ≤ k) : fileName (10 ^ k) < fileName (10 ^ k - 1) := by
  have hten : 10 ≤ 10 ^ k := Nat.le_self_pow (by omega) 10
  obtain ⟨j, rfl⟩ : ∃ j, k = j + 1 := ⟨k - 1, by omega⟩
  have hpow : Numeral.padded 4 (10 ^ (j + 1)) = '1' :: List.replicate (j + 1) '0' := by
    have hdigits : Numeral.ofNat (10 ^ (j + 1)) = '1' :: List.replicate (j + 1) '0' := by
      rw [Numeral.ofNat, if_neg (by omega), Numeral.digitsOnto_pow]
    rw [Numeral.padded, hdigits, List.length_cons, List.length_replicate,
      Nat.sub_eq_zero_of_le (by omega)]
    rfl
  have hpred : Numeral.padded 4 (10 ^ (j + 1) - 1) = '9' :: List.replicate j '9' := by
    have hdigits : Numeral.ofNat (10 ^ (j + 1) - 1) = List.replicate (j + 1) '9' := by
      rw [Numeral.ofNat, if_neg (by omega), Numeral.digitsOnto_pow_sub_one]
    rw [Numeral.padded, hdigits, List.length_replicate, Nat.sub_eq_zero_of_le hk]
    rfl
  rw [String.lt_iff_toList_lt, toList_fileName, toList_fileName, List.append_assoc,
    List.append_assoc, hpow, hpred]
  refine append_lt_append_left ?_ nameStart
  exact List.cons_lt_cons_iff.mpr (.inl (by decide))

/-! ### All paths -/

/-- **The record of a round has its place**: the path that is written for it, and what is read
back from that path. -/
structure HasPlace (d : DirectoryStore) (run : RunId) (round : Nat) : Prop where
  /-- The name of the run is one part of a path that stays below the base. -/
  plain : Path.IsPlain run.text ∧ Path.isAbsolute run.text = false
  path : d.recordPath run round = Path.join (Path.join d.base run.text) (fileName round)
  parts : Path.parts (d.recordPath run round) = Path.parts d.base ++ [run.text, fileName round]
  asks : ∀ state now, (d.persist run round state now).Asks fun op =>
    op = .makeDirs (d.runPath run) ∨ op.path = d.recordPath run round
  /-- What was recorded stands two levels below the base, and its run is listed. -/
  recorded : ∀ files files' base state now, d.IsOpen files base →
    (d.persist run round state now).run files = (.ok (), files') →
      files'.lookup (base ++ [run.text, fileName round]) =
        some (.file (recordText ⟨run, round, now, state⟩)) ∧
      (∀ ids, (d.listRuns.run files').1 = .ok ids → run ∈ ids) ∧
      (d.base ≠ "" → ∃ ids, (d.listRuns.run files').1 = .ok ids)
  unique : ∀ other n, d.recordPath other n = d.recordPath run round ↔ other = run ∧ n = round
  round_read : roundOf? (fileName round) = some round
  run_read : RunId.ofText run.text = .ok run

/-- **Every record has its place**, and records are put in order by what their names tell, not
by the names: those are in the order of their rounds up to 9999 only. -/
theorem each_in_its_place (d : DirectoryStore) :
    (∀ run round, round < 2 ^ 32 → d.HasPlace run round) ∧
    (∀ entries, (recordNames entries).Pairwise (·.1 ≤ ·.1) ∧
      ∀ n name, (n, name) ∈ recordNames entries ↔
        roundOf? name = some n ∧ ∃ b, (name, b) ∈ entries) ∧
    (∀ rounds : List Nat, (∀ n ∈ rounds, n < 2 ^ 32) →
      recordNames (rounds.map fun n => (fileName n, false)) =
        (rounds.mergeSort (· ≤ ·)).map fun n => (n, fileName n)) ∧
    (∀ m n, m < n → n < 10 ^ 4 → fileName m < fileName n) ∧
    (∀ k, 4 ≤ k → fileName (10 ^ k) < fileName (10 ^ k - 1)) := by
  refine ⟨fun run round hround => ?_, fun entries => ⟨pairwise_mergeSort_key _ _, fun n name =>
    mem_recordNames⟩, recordNames_map, fun m n => fileName_lt_fileName, fun k => fileName_pow_lt⟩
  refine ⟨⟨run.isPlain, run.isName.isAbsolute⟩, rfl, parts_recordPath d run round,
    asks_persist d run round, ?_, fun other n => recordPath_eq_iff, roundOf?_fileName hround,
    run.ofText_text⟩
  intro files files' base state now hopen hp
  have htext := (hopen.persist hp).text
  rw [List.append_assoc] at htext
  exact ⟨htext, hopen.listRuns_of_persist hp⟩

/-- Round 12345 of a run stands two levels below the root, and the run is listed. -/
theorem each_in_its_place_specimen :
    recordPath ⟨"/"⟩ default 12345 = "/run/round-12345.json" ∧
      roundOf? "round-12345.json" = some 12345 ∧
      ∃ files' ids,
        (persist ⟨"/"⟩ default 12345 Pages.specimen.state Pages.specimen.recordedAt).run .empty =
          (.ok (), files') ∧
        files'.lookup ["run", "round-12345.json"] =
          some (.file (recordText { Pages.specimen with runId := default, round := 12345 })) ∧
        (listRuns ⟨"/"⟩ |>.run files').1 = .ok ids ∧ default ∈ ids := by
  have hplace := (each_in_its_place ⟨"/"⟩).1 default 12345 (by decide)
  have hname : fileName 12345 = "round-12345.json" := by decide +kernel
  obtain ⟨files', hp⟩ := exists_persist_root Pages.specimen.state Pages.specimen.recordedAt
  obtain ⟨hfile, hmem, hlisted⟩ := hplace.recorded _ _ _ _ _ isOpen_root hp
  obtain ⟨ids, hids⟩ := hlisted (by decide)
  refine ⟨by decide +kernel, hname ▸ hplace.round_read, files', ids, hp, ?_, hids, hmem ids hids⟩
  rw [← hname]
  exact hfile

end DirectoryStore

end Roundtable

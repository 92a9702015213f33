import Mathlib.Data.List.Sort
import Mathlib.Data.String.Basic
import Roundtable.Proofs.Store.Keeping

/-!
# The register of all rounds

What a store is for, apart from where it keeps things: **a register that has at most one
entry for a round of a run**, and never changes one (`Roundtable.Register`). A round is
entered where there is no entry yet and refused where there is one; a run is told of in the
order of its rounds, is loaded as its highest round left it, and is listed as soon as it has
an entry.

Entries stay (`Roundtable.Register.Serves.keeps`). And **what a register answers is settled by
what it was asked** (`Roundtable.Register.Serves.alike`): two that were asked the same, each
in its own time, have answered the same but for the times at which they made their entries.
-/

namespace Roundtable

/-! ### What is asked of a store -/

namespace Store

/-- What can be asked of a store. -/
inductive Query
  | persist (run : RunId) (round : Nat) (state : RunState)
  | load (run : RunId)
  | history (run : RunId)
  | listRuns

/-- What a store answers. -/
inductive Reply
  | recorded (answer : Except StoreError Unit)
  | loaded (answer : Except StoreError (Option RunState))
  | told (answer : Except StoreError (List RoundRecord))
  | listed (answer : Except StoreError (List RunId))

/-- Asks a store at `now`. -/
def ask (s : Store) (now : Instant) : Query → Reply × Store
  | .persist run round state =>
    (.recorded (s.persist run round state now).1, (s.persist run round state now).2)
  | .load run => (.loaded (s.load run), s)
  | .history run => (.told (s.history run), s)
  | .listRuns => (.listed s.listRuns, s)

/-- Asks a store one thing after the other, each at its time. -/
def asks (s : Store) : List (Query × Instant) → List Reply × Store
  | [] => ([], s)
  | (q, now) :: calls =>
    ((s.ask now q).1 :: ((s.ask now q).2.asks calls).1, ((s.ask now q).2.asks calls).2)

/-- The reply without the times at which records were made. -/
def Reply.timeless : Reply → Reply
  | told (.ok records) => told (.ok (records.map fun r => { r with recordedAt := default }))
  | reply => reply

end Store

open Store

/-! ### Registers -/

/-- What stands in the register for a round. -/
structure Entry where
  recordedAt : Instant
  state : RunState

/-- What a record enters. -/
def RoundRecord.entry (r : RoundRecord) : Entry := ⟨r.recordedAt, r.state⟩

/-- **The register**: for each round of each run one entry at most. -/
def Register := RunId → Nat → Option Entry

namespace Register

variable {m m' m₁ m₁' : Register} {run : RunId} {round : Nat} {e : Entry}
  {records : List RoundRecord}

/-- A register without entries. -/
def empty : Register := fun _ _ => none

/-- Enters a round. -/
def insert (m : Register) (run : RunId) (round : Nat) (e : Entry) : Register :=
  fun r n => if r = run ∧ n = round then some e else m r n

/-- These are the entries of a run, in the order of their rounds. -/
structure Lists (m : Register) (run : RunId) (records : List RoundRecord) : Prop where
  sorted : records.Pairwise (·.round < ·.round)
  mem : ∀ r, r ∈ records ↔ r.runId = run ∧ m run r.round = some r.entry

/-- **What a register answers**, and what is in it then. -/
inductive Answers (m : Register) : Query → Instant → Reply → Register → Prop
  /-- A round that is not there is entered. -/
  | recorded {run : RunId} {round : Nat} {state : RunState} {now : Instant}
      (h : m run round = none) :
      Answers m (.persist run round state) now (.recorded (.ok ()))
        (m.insert run round ⟨now, state⟩)
  /-- A round that is there is not entered again. -/
  | refused {run : RunId} {round : Nat} {state : RunState} {now : Instant} {e : Entry}
      (h : m run round = some e) :
      Answers m (.persist run round state) now (.recorded (.error (.alreadyExists run round))) m
  /-- The highest round of a run is loaded. -/
  | loaded {run : RunId} {round : Nat} {now : Instant} {e : Entry} (h : m run round = some e)
      (hlast : ∀ later, round < later → m run later = none) :
      Answers m (.load run) now (.loaded (.ok (some e.state))) m
  /-- A run without entries is not loaded. -/
  | missing {run : RunId} {now : Instant} (h : ∀ round, m run round = none) :
      Answers m (.load run) now (.loaded (.ok none)) m
  | told {run : RunId} {records : List RoundRecord} {now : Instant} (h : m.Lists run records) :
      Answers m (.history run) now (.told (.ok records)) m
  /-- The runs that have entries are listed, each once, in the order of their names. -/
  | listed {runs : List RunId} {now : Instant} (hsorted : runs.Pairwise (·.text < ·.text))
      (hmem : ∀ run, run ∈ runs ↔ ∃ round e, m run round = some e) :
      Answers m .listRuns now (.listed (.ok runs)) m

/-- **A register serves**: it answers one call after the other. -/
inductive Serves : Register → List (Query × Instant) → List Reply → Register → Prop
  | nil {m : Register} : Serves m [] [] m
  | cons {m m' m'' : Register} {q : Query} {now : Instant} {reply : Reply}
      {calls : List (Query × Instant)} {replies : List Reply} (ha : m.Answers q now reply m')
      (hs : Serves m' calls replies m'') : Serves m ((q, now) :: calls) (reply :: replies) m''

theorem insert_self (m : Register) (run : RunId) (round : Nat) (e : Entry) :
    m.insert run round e run round = some e := if_pos ⟨rfl, rfl⟩

theorem insert_of_ne {r : RunId} {n : Nat} (h : ¬(r = run ∧ n = round)) :
    m.insert run round e r n = m r n := if_neg h

theorem insert_eq_some {r : RunId} {n : Nat} {x : Entry} (hnew : m run round = none) :
    m.insert run round e r n = some x ↔
      (r = run ∧ n = round ∧ x = e) ∨ m r n = some x := by
  by_cases h : r = run ∧ n = round
  · obtain ⟨rfl, rfl⟩ := h
    simp [insert_self, hnew, eq_comm]
  · rw [insert_of_ne h]
    constructor
    · exact .inr
    · rintro (⟨hr, hn, -⟩ | hx)
      · exact absurd ⟨hr, hn⟩ h
      · exact hx

/-! ### The entries of a run -/

theorem lists_empty (run : RunId) : empty.Lists run [] :=
  ⟨.nil, fun _ => by simp [empty]⟩

/-- A round that is entered takes its place among those of its run. -/
theorem Lists.insert (h : m.Lists run records) (hnew : m run round = none) (now : Instant)
    (state : RunState) : (m.insert run round ⟨now, state⟩).Lists run
      (MemoryStore.insertRecord ⟨run, round, now, state⟩ records) := by
  refine ⟨MemoryStore.pairwise_insertRecord h.sorted ?_, fun r => ?_⟩
  · rintro r hr rfl
    have hmem := ((h.mem r).mp hr).2
    rw [hnew] at hmem
    cases hmem
  · rw [MemoryStore.mem_insertRecord, h.mem, insert_eq_some hnew]
    constructor
    · rintro (rfl | ⟨hrun, he⟩)
      · exact ⟨rfl, .inl ⟨rfl, rfl, rfl⟩⟩
      · exact ⟨hrun, .inr he⟩
    · rintro ⟨rfl, ⟨-, rfl, he⟩ | he⟩
      · obtain ⟨hnow, hstate⟩ := Entry.mk.inj he
        subst hnow hstate
        exact .inl rfl
      · exact .inr ⟨rfl, he⟩

/-- A round that is entered of another run changes nothing. -/
theorem Lists.insert_other {other : RunId} (h : m.Lists run records) (hne : run ≠ other)
    (round : Nat) (e : Entry) : (m.insert other round e).Lists run records := by
  refine ⟨h.sorted, fun r => ?_⟩
  rw [h.mem, insert_of_ne fun hx => hne hx.1]

/-- **The last record of a run is its highest round.** -/
theorem Lists.load (h : m.Lists run records) (now : Instant) : m.Answers (.load run) now
    (.loaded (.ok (records.getLast?.map (·.state)))) m := by
  rcases records.eq_nil_or_concat with rfl | ⟨front, r, rfl⟩
  · refine .missing fun round => ?_
    cases he : m run round with
    | none => rfl
    | some e =>
      cases (h.mem ⟨run, round, e.recordedAt, e.state⟩).mpr ⟨rfl, he⟩
  · rw [List.concat_eq_append] at h ⊢
    rw [List.getLast?_concat]
    have hr := ((h.mem r).mp (by simp)).2
    refine .loaded hr fun later hlt => ?_
    cases he : m run later with
    | none => rfl
    | some e =>
      have hmem := (h.mem ⟨run, later, e.recordedAt, e.state⟩).mpr ⟨rfl, he⟩
      rcases List.mem_append.mp hmem with hfront | hlast
      · have hle : later < r.round :=
          (List.pairwise_append.mp h.sorted).2.2 _ hfront r (List.mem_singleton_self r)
        omega
      · rw [← List.mem_singleton.mp hlast] at hlt
        exact absurd hlt (Nat.lt_irrefl _)

/-! ### Entries stay -/

theorem Answers.keeps {q : Query} {now : Instant} {reply : Reply} (h : m.Answers q now reply m')
    (he : m run round = some e) : m' run round = some e := by
  cases h with
  | recorded hnew => exact (insert_eq_some hnew).mpr (.inr he)
  | refused | loaded | missing | told | listed => exact he

/-- **What was entered stays as it is.** -/
theorem Serves.keeps {calls : List (Query × Instant)} {replies : List Reply}
    (h : m.Serves calls replies m') (he : m run round = some e) : m' run round = some e := by
  induction h with
  | nil => exact he
  | cons ha _ ih => exact ih (ha.keeps he)

/-! ### Registers that were asked the same -/

/-- **The registers have the same entries**, made at any times. -/
def Alike (m m₁ : Register) : Prop :=
  ∀ run round, (m run round).map (·.state) = (m₁ run round).map (·.state)

theorem Alike.symm (h : m.Alike m₁) : m₁.Alike m := fun run round => (h run round).symm

theorem Alike.eq_none (h : m.Alike m₁) (hn : m run round = none) : m₁ run round = none := by
  have heq := h run round
  rw [hn] at heq
  exact Option.map_eq_none_iff.mp heq.symm

theorem Alike.eq_some (h : m.Alike m₁) (hs : m run round = some e) :
    ∃ e₁, m₁ run round = some e₁ ∧ e₁.state = e.state := by
  have heq := h run round
  rw [hs] at heq
  exact Option.map_eq_some_iff.mp heq.symm

theorem Alike.insert (h : m.Alike m₁) (run : RunId) (round : Nat) (state : RunState)
    (now now₁ : Instant) :
    (m.insert run round ⟨now, state⟩).Alike (m₁.insert run round ⟨now₁, state⟩) := by
  intro r n
  by_cases hn : r = run ∧ n = round
  · obtain ⟨rfl, rfl⟩ := hn
    rw [insert_self, insert_self]
    rfl
  · rw [insert_of_ne hn, insert_of_ne hn, h]

/-- Lists in the order of a key are told by what is in them. -/
theorem eq_of_mem_iff {α β : Type} [Preorder β] (key : α → β) {xs ys : List α}
    (hx : xs.Pairwise (key · < key ·)) (hy : ys.Pairwise (key · < key ·))
    (h : ∀ a, a ∈ xs ↔ a ∈ ys) : xs = ys := by
  have : Std.Irrefl fun a b => key a < key b := ⟨fun a => lt_irrefl (key a)⟩
  have : Std.Antisymm fun a b => key a < key b := ⟨fun a b hab hba => absurd hab hba.asymm⟩
  exact hx.eq_of_mem_iff hy h

/-- The entries of a run are the same but for their times. -/
theorem Alike.mem_lists {records₁ : List RoundRecord} (h : m.Alike m₁) (hl : m.Lists run records)
    (hl₁ : m₁.Lists run records₁) {r : RoundRecord}
    (hr : r ∈ records.map fun r => { r with recordedAt := default }) :
    r ∈ records₁.map fun r => { r with recordedAt := default } := by
  obtain ⟨x, hx, rfl⟩ := List.mem_map.mp hr
  obtain ⟨hrun, he⟩ := (hl.mem x).mp hx
  obtain ⟨e₁, he₁, hstate⟩ := h.eq_some he
  refine List.mem_map.mpr ⟨⟨x.runId, x.round, e₁.recordedAt, x.state⟩, ?_, rfl⟩
  have hentry : e₁ = ⟨e₁.recordedAt, x.state⟩ := by
    rw [← show e₁.state = x.state from hstate]
  exact (hl₁.mem _).mpr ⟨hrun, he₁.trans (congrArg some hentry)⟩

/-- **Two registers that are asked the same answer the same**, and have the same entries
then. -/
theorem Answers.alike {q : Query} {now now₁ : Instant} {reply reply₁ : Reply} (h : m.Alike m₁)
    (ha : m.Answers q now reply m') (ha₁ : m₁.Answers q now₁ reply₁ m₁') :
    reply.timeless = reply₁.timeless ∧ m'.Alike m₁' := by
  -- One register has an entry exactly where the other has one, so the two answer in the same
  -- way, and there is one possibility for each reply.
  cases ha with
  | recorded hnew =>
    cases ha₁ with
    | recorded hnew₁ => exact ⟨rfl, h.insert _ _ _ _ _⟩
    | refused he₁ =>
      rw [h.eq_none hnew] at he₁
      cases he₁
  | refused he =>
    cases ha₁ with
    | recorded hnew₁ =>
      rw [h.symm.eq_none hnew₁] at he
      cases he
    | refused he₁ => exact ⟨rfl, h⟩
  | @loaded _ round _ e he hlast =>
    cases ha₁ with
    | @loaded _ round₁ _ e₁ he₁ hlast₁ =>
      -- Neither round is below the other, since the higher one has an entry.
      obtain rfl : round = round₁ := by
        rcases Nat.lt_trichotomy round round₁ with hlt | heq | hlt
        · rw [h.eq_none (hlast _ hlt)] at he₁
          cases he₁
        · exact heq
        · rw [h.symm.eq_none (hlast₁ _ hlt)] at he
          cases he
      obtain ⟨e', he', hstate⟩ := h.eq_some he
      rw [he₁] at he'
      rw [← hstate, ← Option.some.inj he']
      exact ⟨rfl, h⟩
    | missing hnone =>
      rw [h.symm.eq_none (hnone round)] at he
      cases he
  | missing hnone =>
    cases ha₁ with
    | @loaded _ round₁ _ e₁ he₁ hlast₁ =>
      rw [h.eq_none (hnone round₁)] at he₁
      cases he₁
    | missing => exact ⟨rfl, h⟩
  | @told _ records _ hl =>
    cases ha₁ with
    | @told _ records₁ _ hl₁ =>
      refine ⟨congrArg (Reply.told <| .ok ·) ?_, h⟩
      exact eq_of_mem_iff (·.round) (List.pairwise_map.mpr hl.sorted)
        (List.pairwise_map.mpr hl₁.sorted) fun r => ⟨h.mem_lists hl hl₁, h.symm.mem_lists hl₁ hl⟩
  | @listed runs _ hsorted hmem =>
    cases ha₁ with
    | @listed runs₁ _ hsorted₁ hmem₁ =>
      refine ⟨congrArg (Reply.listed <| .ok ·) ?_, h⟩
      refine eq_of_mem_iff (·.text) hsorted hsorted₁ fun run => ?_
      rw [hmem, hmem₁]
      constructor
      · rintro ⟨round, e, he⟩
        obtain ⟨e₁, he₁, -⟩ := h.eq_some he
        exact ⟨round, e₁, he₁⟩
      · rintro ⟨round, e₁, he₁⟩
        obtain ⟨e, he, -⟩ := h.symm.eq_some he₁
        exact ⟨round, e, he⟩

/-- **What a register answers is settled by what it is asked**, but for the times. -/
theorem Serves.alike {calls calls₁ : List (Query × Instant)} {replies replies₁ : List Reply}
    (h : m.Alike m₁) (hsame : calls.map (·.1) = calls₁.map (·.1))
    (hs : m.Serves calls replies m') (hs₁ : m₁.Serves calls₁ replies₁ m₁') :
    replies.map Reply.timeless = replies₁.map Reply.timeless := by
  induction hs generalizing m₁ calls₁ replies₁ with
  | nil =>
    cases hs₁ with
    | nil => rfl
    | cons => cases hsame
  | cons ha _ ih =>
    cases hs₁ with
    | nil => cases hsame
    | cons ha₁ hs₁ =>
      obtain ⟨hq, hrest⟩ := List.cons.inj hsame
      dsimp only at hq
      subst hq
      obtain ⟨hreply, halike⟩ := ha.alike h ha₁
      rw [List.map_cons, List.map_cons, hreply, ih halike hrest hs₁]

end Register

end Roundtable

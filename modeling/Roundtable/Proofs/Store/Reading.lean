import Roundtable.Proofs.Json.Decoding
import Roundtable.Store.Directory

/-!
# Records that are read back

What a record in a file is read back as (`Roundtable.RoundRecord.ReadAs`). The texts of
times and spans are read anew, and so are the numbers in the payloads of tasks; **all else
is what was written** (`Roundtable.DirectoryStore.readAs_of_reread`): the run, the round,
how the run stands and all of its memory. So the state comes back as it was exactly when
those three come back (`Roundtable.RunState.ReadAs.eq_iff`).

Whether a record is read at all is settled with it (`Roundtable.DirectoryStore.reread_eq_ok`):
its numbers have to be what they are counted in, and its containers must not be nested too
deep.
-/

namespace Roundtable

open Json Json.Decoder

/-! ### Ids and names -/

theorem TaskId.reads : TaskId.decoder.Reads TaskId.toJson fun t t' => t' = t := fun t =>
  ((takes_text t.text).map TaskId.mk).congr fun t' => by
    simp only [exists_eq_left]
    exact eq_comm

theorem SessionId.reads : SessionId.decoder.Reads SessionId.toJson fun s s' => s' = s := fun s =>
  ((takes_text s.text).map SessionId.mk).congr fun s' => by
    simp only [exists_eq_left]
    exact eq_comm

/-- The text of a run id is one. -/
theorem RunId.ofText_text (r : RunId) : RunId.ofText r.text = .ok r := by
  unfold RunId.ofText
  split
  · next fault h =>
    rw [r.sound] at h
    cases h
  · rfl

theorem RunId.reads : RunId.decoder.Reads RunId.toJson fun r r' => r' = r := fun r =>
  ((takes_text r.text).check _).congr fun r' => by
    simp only [exists_eq_left, RunId.ofText_text]
    exact Option.some_inj.trans eq_comm

/-- What stands for a value among all of its kind is read as that value. -/
theorem reads_of_ofName? {α : Type} {ofName? : String → Option α} {name : α → String}
    (hall : ∀ a, ofName? (name a) = some a) :
    (Decoder.name ofName?).Reads (fun a => .text (name a)) fun a a' => a' = a := fun a =>
  (takes_name ofName? (name a)).congr fun a' => by
    rw [hall]
    exact Option.some_inj.trans eq_comm

theorem RunStatus.reads : RunStatus.decoder.Reads (fun s => .text s.name) fun s s' => s' = s :=
  reads_of_ofName? fun s => by cases s <;> rfl

theorem RoundPhase.reads : RoundPhase.decoder.Reads (fun s => .text s.name) fun s s' => s' = s :=
  reads_of_ofName? fun s => by cases s <;> rfl

theorem SubAgentStatus.reads :
    SubAgentStatus.decoder.Reads (fun s => .text s.name) fun s s' => s' = s :=
  reads_of_ofName? fun s => by cases s <;> rfl

theorem FailureKind.reads : FailureKind.decoder.Reads (fun k => .text k.name) fun k k' => k' = k :=
  reads_of_ofName? fun k => by cases k <;> rfl

/-! ### Times -/

theorem Instant.reads :
    Instant.decoder.Reads Instant.toJson fun t t' => Instant.ofText? t.text = some t' := fun t =>
  ((takes_text t.text).check _).congr fun t' => by rw [exists_eq_left]

theorem Span.reads : Span.decoder.Reads Span.toJson fun s s' => Span.ofText? s.text = some s' :=
  fun s => ((takes_text s.text).check _).congr fun s' => by rw [exists_eq_left]

/-! ### Parts of a state -/

/-- **A task is read back** but for its payload, of which the echo is heard. -/
structure Task.ReadAs (t t' : Task) : Prop where
  same : t' = { t with payload := t'.payload }
  payload : t.payload.echo = some t'.payload

theorem Task.reads : Task.decoder.Reads Task.toJson Task.ReadAs := by
  intro t
  refine Takes.congr (Fills.record (.field rfl (TaskId.reads t.id) fun _ _ =>
    .field rfl (takes_text t.description) fun _ _ => .field rfl (takes_text t.role) fun _ _ =>
    .field rfl (takes_any t.payload) fun _ _ => fills_nil) ?_) fun t' => ?_
  · simp only [List.map_cons, List.map_nil]
    decide
  · simp only [exists_eq_left]
    constructor
    · rintro ⟨payload, hpayload, rfl⟩
      exact ⟨rfl, hpayload⟩
    · rintro ⟨hsame, hpayload⟩
      exact ⟨_, hpayload, hsame⟩

/-- **A result is read back** but for its duration, whose text is read. -/
structure TaskResult.ReadAs (r r' : TaskResult) : Prop where
  same : r' = { r with duration := r'.duration }
  duration : Span.ofText? r.duration.text = some r'.duration

/-- What is read as itself is read as itself where it may be missing. -/
theorem option_rel_eq {α : Type} {x y : Option α} :
    Option.Rel (fun a b => b = a) x y ↔ y = x := by
  cases x <;> cases y <;> simp 

theorem TaskResult.reads : TaskResult.decoder.Reads TaskResult.toJson TaskResult.ReadAs := by
  intro r
  rw [TaskResult.toJson, TaskResult.timelessFields, List.append_assoc]
  refine Takes.congr (Fills.record (.field rfl (TaskId.reads r.task) fun _ _ =>
    .field rfl (SessionId.reads r.session) fun _ _ => .field rfl (takes_text r.output) fun _ _ =>
    .field rfl (takes_bool r.success) fun _ _ =>
    .field rfl (SubAgentStatus.reads r.status) fun _ _ =>
    .optional rfl takes_text (fun _ => rfl) rfl fun _ _ =>
    .field rfl (Span.reads r.duration) fun _ _ => fills_nil) ?_) fun r' => ?_
  · cases r.error <;>
      simp only [optionalField, Option.map_none, Option.map_some, List.nil_append,
        List.cons_append, List.map_cons, List.map_nil] <;>
      decide
  · simp only [exists_eq_left, option_rel_eq]
    constructor
    · rintro ⟨duration, hduration, rfl⟩
      exact ⟨rfl, hduration⟩
    · rintro ⟨hsame, hduration⟩
      exact ⟨_, hduration, hsame⟩

/-- **The numbers of an entry are what they are counted in.** -/
structure RoundSummary.IsCounted (m : RoundSummary) : Prop where
  round : m.round < 2 ^ 32
  succeeded : m.succeeded < 2 ^ 64
  failed : m.failed < 2 ^ 64

theorem RoundSummary.reads :
    RoundSummary.decoder.Reads RoundSummary.toJson fun m m' => m.IsCounted ∧ m' = m := by
  intro m
  refine Takes.congr (Fills.record (.field rfl (takes_nat32 m.round) fun _ _ =>
    .field rfl (takes_text m.summary) fun _ _ => .field rfl (takes_nat64 m.succeeded) fun _ _ =>
    .field rfl (takes_nat64 m.failed) fun _ _ => fills_nil) ?_) fun m' => ?_
  · simp only [List.map_cons, List.map_nil]
    decide
  · simp only [and_assoc, exists_and_left, exists_eq_left]
    constructor
    · rintro ⟨hround, hsucceeded, hfailed, rfl⟩
      exact ⟨⟨hround, hsucceeded, hfailed⟩, rfl⟩
    · rintro ⟨⟨hround, hsucceeded, hfailed⟩, rfl⟩
      exact ⟨hround, hsucceeded, hfailed, rfl⟩

theorem RunFailure.reads : RunFailure.decoder.Reads RunFailure.toJson fun f f' => f' = f := by
  intro f
  refine Takes.congr (Fills.record (.field rfl (FailureKind.reads f.kind) fun _ _ =>
    .field rfl (takes_text f.message) fun _ _ => fills_nil) ?_) fun f' => ?_
  · simp only [List.map_cons, List.map_nil]
    decide
  · simp only [exists_eq_left]

/-! ### States -/

/-- The numbers in a state are what they are counted in. -/
structure RunState.IsCounted (s : RunState) : Prop where
  round : s.round < 2 ^ 32
  memory : ∀ m ∈ s.memory, m.IsCounted

/-- **A state is read back**, all but its times and what its tasks and results are read
back as. -/
structure RunState.ReadAs (s s' : RunState) : Prop where
  same : s' = { s with
    tasks := s'.tasks, results := s'.results, startedAt := s'.startedAt
    completedAt := s'.completedAt }
  tasks : List.Forall₂ Task.ReadAs s.tasks s'.tasks
  results : List.Forall₂ TaskResult.ReadAs s.results s'.results
  startedAt : Instant.ofText? s.startedAt.text = some s'.startedAt
  completedAt : s.completedAt.map (fun t => Instant.ofText? t.text) = s'.completedAt.map some

/-- Lists of which every item is read as itself. -/
theorem forall₂_and_eq {α : Type} {P : α → Prop} {xs ys : List α} :
    List.Forall₂ (fun x y => P x ∧ y = x) xs ys ↔ (∀ x ∈ xs, P x) ∧ ys = xs := by
  induction xs generalizing ys with
  | nil => simp [List.forall₂_nil_left_iff]
  | cons x xs ih =>
    simp only [List.forall₂_cons_left_iff, ih, List.forall_mem_cons]
    constructor
    · rintro ⟨y, r, ⟨hx, rfl⟩, ⟨hxs, rfl⟩, rfl⟩
      exact ⟨⟨hx, hxs⟩, rfl⟩
    · rintro ⟨⟨hx, hxs⟩, rfl⟩
      exact ⟨x, xs, ⟨hx, rfl⟩, ⟨hxs, rfl⟩, rfl⟩

theorem option_rel_map {α β : Type} {g : α → Option β} {x : Option α} {y : Option β} :
    Option.Rel (fun a b => g a = some b) x y ↔ x.map g = y.map some := by
  cases x <;> cases y <;> simp

theorem RunState.reads :
    RunState.decoder.Reads RunState.toJson fun s s' => s.IsCounted ∧ s.ReadAs s' := by
  intro s
  rw [RunState.toJson, List.append_assoc, List.append_assoc, List.append_assoc,
    ← List.append_nil (optionalField "completed_at" _)]
  refine Takes.congr (Fills.record (.field rfl (RunId.reads s.runId) fun _ _ =>
    .field rfl (takes_text s.mission) fun _ _ => .field rfl (takes_nat32 s.round) fun _ _ =>
    .field rfl (Task.reads.list s.tasks) fun _ _ =>
    .field rfl (TaskResult.reads.list s.results) fun _ _ =>
    .field rfl (RunStatus.reads s.status) fun _ _ =>
    .field rfl (RoundPhase.reads s.phase) fun _ _ =>
    .field rfl (RoundSummary.reads.list s.memory) fun _ _ =>
    .optional rfl takes_text (fun _ => rfl) rfl fun _ _ =>
    .optional rfl RunFailure.reads (fun _ => rfl) rfl fun _ _ =>
    .field rfl (Instant.reads s.startedAt) fun _ _ =>
    .optional rfl Instant.reads (fun _ => rfl) rfl fun _ _ => fills_nil) ?_) fun s' => ?_
  · cases s.lastSummary <;> cases s.error <;> cases s.completedAt
    all_goals
      simp only [optionalField, Option.map_none, Option.map_some, List.nil_append,
        List.append_nil, List.cons_append, List.map_cons, List.map_nil]
      decide
  · simp only [and_assoc, exists_and_left, exists_eq_left, option_rel_eq, option_rel_map,
      forall₂_and_eq]
    constructor
    · rintro ⟨hround, tasks, htasks, results, hresults, hmemory, started, hstarted, completed,
        hcompleted, rfl⟩
      exact ⟨⟨hround, hmemory⟩, rfl, htasks, hresults, hstarted, hcompleted⟩
    · rintro ⟨⟨hround, hmemory⟩, hsame, htasks, hresults, hstarted, hcompleted⟩
      exact ⟨hround, _, htasks, _, hresults, hmemory, _, hstarted, _, hcompleted, hsame⟩

/-! ### Records -/

/-- The numbers in a record are what they are counted in. -/
structure RoundRecord.IsCounted (r : RoundRecord) : Prop where
  round : r.round < 2 ^ 32
  state : r.state.IsCounted

/-- **A record is read back**: its state, and when it was recorded. -/
structure RoundRecord.ReadAs (r r' : RoundRecord) : Prop where
  runId : r'.runId = r.runId
  round : r'.round = r.round
  recordedAt : Instant.ofText? r.recordedAt.text = some r'.recordedAt
  state : r.state.ReadAs r'.state

theorem RoundRecord.reads :
    RoundRecord.decoder.Reads RoundRecord.toJson fun r r' => r.IsCounted ∧ r.ReadAs r' := by
  intro r
  refine Takes.congr (Fills.record (.field rfl (RunId.reads r.runId) fun _ _ =>
    .field rfl (takes_nat32 r.round) fun _ _ => .field rfl (Instant.reads r.recordedAt) fun _ _ =>
    .field rfl (RunState.reads r.state) fun _ _ => fills_nil) ?_) fun r' => ?_
  · simp only [List.map_cons, List.map_nil]
    decide
  · simp only [and_assoc, exists_and_left, exists_eq_left]
    constructor
    · rintro ⟨hround, recordedAt, hrecordedAt, hcounted, state, hstate, rfl⟩
      exact ⟨⟨hround, hcounted⟩, rfl, rfl, hrecordedAt, hstate⟩
    · rintro ⟨⟨hround, hcounted⟩, hrun, hsame, hrecordedAt, hstate⟩
      refine ⟨hround, _, hrecordedAt, hcounted, _, hstate, ?_⟩
      rw [← hrun, ← hsame]

/-- What a store in a directory reads of a record. -/
def DirectoryStore.reread (r : RoundRecord) : Except StoreError RoundRecord :=
  recordOf (recordText r)

/-- What a store reads of a text is what is decoded from it. -/
theorem DirectoryStore.recordOf_eq_ok {text : String} {r : RoundRecord} :
    recordOf text = .ok r ↔ decode RoundRecord.decoder text = .ok r := by
  unfold recordOf
  split
  · next h => rw [h, Except.ok.injEq, Except.ok.injEq]
  · next h => simp [h]

/-- **When a record is read**, and what is read of it. -/
theorem DirectoryStore.reread_eq_ok {r r' : RoundRecord} :
    reread r = .ok r' ↔ r.toJson.depth ≤ 127 ∧ r.IsCounted ∧ r.ReadAs r' := by
  rw [reread, recordOf_eq_ok, recordText, decode_page, RoundRecord.reads r .top r', Place.fits_top]

/-- **What a store in a directory reads of a record is the record**, read back. -/
theorem DirectoryStore.readAs_of_reread {r r' : RoundRecord} (h : reread r = .ok r') :
    r.ReadAs r' :=
  (reread_eq_ok.mp h).2.2

/-! ### What survives -/

/-- **The state survives its text**: the payloads, the durations and the times in it are
read as what was written. -/
structure RunState.Survives (s : RunState) : Prop where
  payloads : ∀ t ∈ s.tasks, t.payload.echo = some t.payload
  durations : ∀ r ∈ s.results, Span.ofText? r.duration.text = some r.duration
  startedAt : Instant.ofText? s.startedAt.text = some s.startedAt
  completedAt : ∀ t ∈ s.completedAt, Instant.ofText? t.text = some t

/-- Lists that are read back as themselves. -/
theorem forall₂_self_iff {α : Type} {R : α → α → Prop} {xs ys : List α}
    (hfun : ∀ x y z, R x y → R x z → y = z) (h : List.Forall₂ R xs ys) :
    ys = xs ↔ ∀ x ∈ xs, R x x := by
  constructor
  · rintro rfl
    exact List.forall₂_same.mp h
  · intro hall
    induction h with
    | nil => rfl
    | cons hxy _ ih =>
      rw [List.forall_mem_cons] at hall
      rw [hfun _ _ _ hxy hall.1, ih hall.2]

theorem Task.ReadAs.unique {t x y : Task} (hx : t.ReadAs x) (hy : t.ReadAs y) : x = y := by
  rw [hx.same, hy.same, Option.some.inj (hx.payload.symm.trans hy.payload)]

theorem TaskResult.ReadAs.unique {r x y : TaskResult} (hx : r.ReadAs x) (hy : r.ReadAs y) :
    x = y := by
  rw [hx.same, hy.same, Option.some.inj (hx.duration.symm.trans hy.duration)]

/-- **A state is read back as it was exactly when it survives its text.** -/
theorem RunState.ReadAs.eq_iff {s s' : RunState} (h : s.ReadAs s') : s' = s ↔ s.Survives := by
  have htasks := forall₂_self_iff (fun t x y hx hy => Task.ReadAs.unique (t := t) hx hy) h.tasks
  have hresults :=
    forall₂_self_iff (fun r x y hx hy => TaskResult.ReadAs.unique (r := r) hx hy) h.results
  constructor
  · intro heq
    rw [heq] at htasks hresults
    have hstarted := h.startedAt
    have hcompleted := h.completedAt
    rw [heq] at hstarted hcompleted
    refine ⟨fun t ht => (htasks.mp rfl t ht).payload, fun r hr => (hresults.mp rfl r hr).duration,
      hstarted, fun t ht => ?_⟩
    rw [Option.mem_def.mp ht] at hcompleted
    exact Option.some.inj hcompleted
  · intro hs
    have hcompleted : s'.completedAt = s.completedAt := by
      have hmap := h.completedAt
      cases hc : s.completedAt with
      | none =>
        rw [hc] at hmap
        exact Option.map_eq_none_iff.mp hmap.symm
      | some t =>
        rw [hc, Option.map_some, hs.completedAt t hc] at hmap
        obtain ⟨t', ht', heq⟩ := Option.map_eq_some_iff.mp hmap.symm
        rw [ht', Option.some.inj heq]
    rw [h.same, htasks.mpr fun t ht => ⟨rfl, hs.payloads t ht⟩,
      hresults.mpr fun r hr => ⟨rfl, hs.durations r hr⟩,
      Option.some.inj (h.startedAt.symm.trans hs.startedAt), hcompleted]

end Roundtable

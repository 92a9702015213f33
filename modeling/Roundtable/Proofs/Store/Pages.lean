import Roundtable.Proofs.EventBus.Pages
import Roundtable.Proofs.Time.Instants
import Roundtable.Proofs.Time.Spans

/-!
# What is written is what is read

The texts of records and events lose nothing (`Roundtable.Pages.faithful`): whatever stands in
a state – any texts, any tasks and results and memory, parts that are there or not – **is read
back from the text that was written of it**, as long as its payloads hold no binary numbers
and no more than 127 containers stand one inside the other. Durations and times come back to
the nanosecond.

The other direction is that of who checks: whatever text is taken for a record or an event,
the run ids in it stand in the text, and each was checked there.
-/

namespace Roundtable

open Json Json.Decoder

/-! ### Records that are read as themselves -/

/-- **What a state holds in a run**: numbers that are what they are counted in, payloads
without binary numbers, durations whose seconds fit in 64 bits, and times outside inserted
seconds. -/
structure RunState.IsRegular (s : RunState) : Prop where
  counted : s.IsCounted
  payloads : ∀ t ∈ s.tasks, t.payload.IsPlain
  durations : ∀ r ∈ s.results, r.duration.seconds < 2 ^ 64
  startedAt : s.startedAt.IsRegular
  completedAt : ∀ t ∈ s.completedAt, t.IsRegular

/-- A record of such a state. -/
structure RoundRecord.IsRegular (r : RoundRecord) : Prop where
  round : r.round < 2 ^ 32
  recordedAt : r.recordedAt.IsRegular
  state : r.state.IsRegular

theorem RunState.IsRegular.survives {s : RunState} (h : s.IsRegular) : s.Survives where
  payloads t ht := IsPlain.echo_eq t.payload (h.payloads t ht)
  durations r hr := Span.ofText?_text (h.durations r hr)
  startedAt := h.startedAt.ofText?_text
  completedAt t ht := (h.completedAt t ht).ofText?_text

/-- A state that survives its text is read as itself. -/
theorem RunState.Survives.readAs {s : RunState} (h : s.Survives) : s.ReadAs s where
  same := rfl
  tasks := List.forall₂_same.mpr fun t ht => ⟨rfl, h.payloads t ht⟩
  results := List.forall₂_same.mpr fun r hr => ⟨rfl, h.durations r hr⟩
  startedAt := h.startedAt
  completedAt := by
    cases hc : s.completedAt with
    | none => rw [Option.map_none, Option.map_none]
    | some t => rw [Option.map_some, h.completedAt t hc, Option.map_some]

/-- **A record is read as itself.** -/
theorem RoundRecord.IsRegular.reread_eq {r : RoundRecord} (h : r.IsRegular)
    (hd : r.toJson.depth ≤ 127) : DirectoryStore.reread r = .ok r := by
  have hcounted : r.IsCounted := ⟨h.round, h.state.counted⟩
  have hread : r.ReadAs r := ⟨rfl, rfl, h.recordedAt.ofText?_text, h.state.survives.readAs⟩
  exact DirectoryStore.reread_eq_ok.mpr ⟨hd, hcounted, hread⟩

/-! ### Where the runs stand -/

/-- **The run of a state is what its field `run_id` is read as.** -/
theorem RunState.exists_run {p : Place} {v : Node} {s : RunState}
    (h : RunState.decoder p v = .ok s) :
    ∃ q u, v.part? "run_id" 0 = some u ∧ RunId.decoder q u = .ok s.runId := by
  refine exists_part ⟨⟨fun x s => { s with runId := x }, fun _ _ => rfl, rfl⟩, ?_, by decide⟩ h
  simp only [List.forall_mem_cons, List.not_mem_nil, false_implies, implies_true, and_true]
  refine ⟨fun hname => absurd rfl hname, ?_⟩
  and_intros
  all_goals exact fun _ => keeps_of fun _ _ => rfl

/-- **The run of a record is what its field `run_id` is read as, and its state is what its
field `state` is read as.** -/
theorem RoundRecord.exists_parts {p : Place} {v : Node} {r : RoundRecord}
    (h : RoundRecord.decoder p v = .ok r) :
    (∃ q u, v.part? "run_id" 0 = some u ∧ RunId.decoder q u = .ok r.runId) ∧
      ∃ q u, v.part? "state" 3 = some u ∧ RunState.decoder q u = .ok r.state := by
  constructor
  · refine exists_part ⟨⟨fun x r => { r with runId := x }, fun _ _ => rfl, rfl⟩, ?_, by decide⟩ h
    simp only [List.forall_mem_cons, List.not_mem_nil, false_implies, implies_true, and_true]
    refine ⟨fun hname => absurd rfl hname, ?_⟩
    and_intros
    all_goals exact fun _ => keeps_of fun _ _ => rfl
  · refine exists_part ⟨⟨fun x r => { r with state := x }, fun _ _ => rfl, rfl⟩, ?_, by decide⟩ h
    simp only [List.forall_mem_cons, List.not_mem_nil, false_implies, implies_true, and_true]
    refine ⟨?_, ?_, ?_, fun hname => absurd rfl hname⟩
    all_goals exact fun _ => keeps_of fun _ _ => rfl

/-- **The runs that a record names are texts in it that are run ids.** -/
theorem RoundRecord.exists_runs {text : String} {r : RoundRecord}
    (h : decode RoundRecord.decoder text = .ok r) :
    (∃ s, (document text.toList).1.textAt [("run_id", 0)] = some s ∧
      RunId.ofText s = .ok r.runId) ∧
    ∃ s, (document text.toList).1.textAt [("state", 3), ("run_id", 0)] = some s ∧
      RunId.ofText s = .ok r.state.runId := by
  obtain ⟨⟨q, u, hu, hrun⟩, ⟨q', w, hw, hstate⟩⟩ := RoundRecord.exists_parts (exists_of_decode h)
  obtain ⟨q'', x, hx, hrun'⟩ := RunState.exists_run hstate
  obtain ⟨s, hs, hid⟩ := RunId.exists_of_decoder hrun
  obtain ⟨s', hs', hid'⟩ := RunId.exists_of_decoder hrun'
  refine ⟨⟨s, ?_, hid⟩, s', ?_, hid'⟩
  · rw [Node.textAt, hu]
    exact hs
  · rw [Node.textAt, hw, Option.bind_eq_bind, Option.bind_some, Node.textAt, hx]
    exact hs'

/-! ### The format -/

namespace Pages

/-- **What is written is what is read.** A record is read back from its text as it was, and an
event from its text, in either layout; and whatever text is taken for a record or an event,
the run ids in it stand in the text and were checked there. -/
theorem faithful :
    (∀ r : RoundRecord, r.IsRegular → r.toJson.depth ≤ 127 →
      DirectoryStore.recordOf (DirectoryStore.recordText r) = .ok r) ∧
    (∀ e : Event, e.IsCounted → e.when.IsRegular →
      decode Event.decoder e.toJson.page = .ok e ∧ decode Event.decoder e.toJson.line = .ok e) ∧
    (∀ text r, decode RoundRecord.decoder text = .ok r →
      (∃ s, (document text.toList).1.textAt [("run_id", 0)] = some s ∧
        RunId.ofText s = .ok r.runId) ∧
      ∃ s, (document text.toList).1.textAt [("state", 3), ("run_id", 0)] = some s ∧
        RunId.ofText s = .ok r.state.runId) ∧
    ∀ text e, decode Event.decoder text = .ok e → ∀ run ∈ e.run?,
      ∃ s, (document text.toList).1.textAt [("run_id", 1)] = some s ∧ RunId.ofText s = .ok run := by
  refine ⟨fun r hr hd => hr.reread_eq hd, fun e hcounted htime => ?_,
    fun text r h => RoundRecord.exists_runs h, fun text e h run hrun => Event.exists_run h hrun⟩
  have hread : Event.decoder .top (mirror e.toJson) = .ok e := by
    rw [e.takes]
    exact ⟨Place.fits_top.mpr (Nat.le_trans e.depth_toJson_le (by decide)), hcounted, e.when,
      htime.ofText?_text, e.movedTo_when⟩
  rw [decode_page, decode_line]
  exact ⟨hread, hread⟩

/-- A record with something in every part. -/
def specimen : RoundRecord where
  runId := default
  round := 12345
  recordedAt := ⟨20454, 86399, 999999999⟩
  state :=
    { runId := default
      mission := "weigh \"light\" against\nDunkelheit – 光"
      round := 12345
      tasks := [⟨⟨"a"⟩, "task a", "scribe", .object [("depth", .array [.array [], .null]),
        ("least", .number (.whole (-9223372036854775808))),
        ("most", .number (.whole 18446744073709551615))]⟩]
      results := [⟨⟨"a"⟩, ⟨"run--sub--scribe_1"⟩, "", false, .timeout, some "late",
        ⟨(2 ^ 64 - 1) * 1000000000 + 999999999⟩⟩]
      status := .failed
      phase := .done
      memory := [⟨12344, "so far", 1, 2 ^ 64 - 1⟩]
      lastSummary := some "so far"
      error := some ⟨.workerTimeout, "late"⟩
      startedAt := ⟨-719528, 0, 1⟩
      completedAt := some ⟨2932896, 86399, 1000⟩ }

theorem isRegular_specimen : specimen.IsRegular where
  round := by decide
  recordedAt := Instant.isRegular_of_year (by decide) (by decide) (by decide) (by decide)
  state :=
    { counted := ⟨by decide, by
        simp only [specimen, List.forall_mem_singleton]
        exact ⟨by decide, by decide, by decide⟩⟩
      payloads := by
        have hkeys : "depth" < "least" ∧ "depth" < "most" ∧ "least" < "most" := by decide
        simp only [specimen, List.forall_mem_singleton, IsPlain, FieldsPlain, ItemsPlain,
          List.pairwise_cons, List.forall_mem_cons]
        simp [hkeys]
      durations := by
        simp only [specimen, List.forall_mem_singleton]
        decide
      startedAt := Instant.isRegular_of_year (by decide) (by decide) (by decide) (by decide)
      completedAt := by
        simp only [specimen, Option.mem_def, Option.some.injEq, forall_eq']
        exact Instant.isRegular_of_year (by decide) (by decide) (by decide) (by decide) }

/-- The specimen is read back, and so is an event of its run; and from what is read of them
the run ids in their texts are known to be some. -/
theorem faithful_specimen :
    (specimen.IsRegular ∧ specimen.toJson.depth ≤ 127 ∧
      DirectoryStore.recordOf (DirectoryStore.recordText specimen) = .ok specimen) ∧
    (Event.IsCounted (.roundStarted default 12345 ⟨20454, 0, 5⟩) ∧
      Instant.IsRegular ⟨20454, 0, 5⟩ ∧
      decode Event.decoder (Event.toJson (.roundStarted default 12345 ⟨20454, 0, 5⟩)).line =
        .ok (.roundStarted default 12345 ⟨20454, 0, 5⟩)) ∧
    (∃ s, (document (DirectoryStore.recordText specimen).toList).1.textAt
        [("state", 3), ("run_id", 0)] = some s ∧ RunId.ofText s = .ok default) ∧
    ∃ s, (document (Event.toJson (.roundStarted default 12345 ⟨20454, 0, 5⟩)).line.toList).1.textAt
        [("run_id", 1)] = some s ∧ RunId.ofText s = .ok default := by
  have hdepth : specimen.toJson.depth ≤ 127 := by decide
  have hrecord := faithful.1 specimen isRegular_specimen hdepth
  have hcounted : Event.IsCounted (.roundStarted default 12345 ⟨20454, 0, 5⟩) := by
    rw [Event.IsCounted]
    decide
  have htime : Instant.IsRegular ⟨20454, 0, 5⟩ :=
    Instant.isRegular_of_year (by decide) (by decide) (by decide) (by decide)
  have hevent := (faithful.2.1 _ hcounted htime).2
  exact ⟨⟨isRegular_specimen, hdepth, hrecord⟩, ⟨hcounted, htime, hevent⟩,
    (faithful.2.2.1 _ _ (DirectoryStore.recordOf_eq_ok.mp hrecord)).2,
    faithful.2.2.2 _ _ hevent _ rfl⟩

end Pages

end Roundtable

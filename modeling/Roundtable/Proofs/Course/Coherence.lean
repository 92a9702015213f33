import Roundtable.Proofs.Course.Memory
import Roundtable.Proofs.Course.Venture

/-!
# The state of a run is coherent

The state of a run is changed in pieces, and it is handed to the store at many of its
stages, some of them after it was finished already: a run that is complete and cannot be
recorded fails after all. **At each moment all of it agrees**
(`Roundtable.RunState.Coherent`): the status, the phase and the time of completion tell the
same of the end, the failure that stands on the run fits its status, each result reports an
error exactly if it is no success, and the memory has the rounds in a row.

Two things are needed besides. Where the state is still to be worked on it has no time of
completion (`Roundtable.Journey.OpenStage`), so a round never begins on a run that is over.
And the results come from spawns, whose results are honest
(`Roundtable.Venture.Attended.reaches`); that is why the result is one about ventures. Nothing
is asked of the clock: where it does not show the end behind the start, completion is the
microsecond after it, and no instant is so late that it lacks one
(`Roundtable.Instant.before_nextMicro`).
-/

namespace Roundtable

/-- **The next microsecond comes later**, also at the end of a day and in an inserted second. -/
theorem Instant.before_nextMicro (t : Instant) : t.before t.nextMicro = true := by
  have hsecond : t.days < (t.addSeconds 1).days ∨
      t.days = (t.addSeconds 1).days ∧ t.second < (t.addSeconds 1).second := by
    simp only [addSeconds, dayLength]
    omega
  unfold nextMicro
  generalize (if t.nanos < Span.perSecond then Span.perSecond else 2 * Span.perSecond) = full
  dsimp only
  split
  · simp [before]
  · rcases hsecond with hday | ⟨hday, hsecond⟩
    · simp [before, hday]
    · simp [before, ← hday, hsecond]

/-- A run is completed later than it started, whatever the clock shows. -/
theorem RunState.before_completionTime (s : RunState) (now : Instant) :
    s.startedAt.before (s.completionTime now) = true := by
  unfold completionTime
  split
  · assumption
  · exact s.startedAt.before_nextMicro

/-! ### Coherent states -/

/-- **The parts of a result agree**: it counts as a success exactly with the status of one, and
has no error exactly then. -/
structure TaskResult.Coherent (r : TaskResult) : Prop where
  success : r.success = true ↔ r.status = .success
  error : r.error = none ↔ r.success = true

/-- The result of a task agrees with itself if the one of its delegation is honest. -/
theorem TaskResult.coherent_ofSubAgent {task : TaskId} {r : SubAgentResult} (h : r.IsHonest) :
    (ofSubAgent task r).Coherent := by
  have hsuccess : r.isSuccess = true ↔ r.status = .success := beq_iff_eq
  exact ⟨hsuccess, h.trans hsuccess.symm⟩

/-- **The parts of a state agree.** -/
structure RunState.Coherent (s : RunState) : Prop where
  terminal : s.status.isTerminal = true ↔ s.phase = .done
  completed : s.phase = .done ↔ s.completedAt.isSome = true
  after : ∀ t, s.completedAt = some t → s.startedAt.before t = true
  /-- A run that has failed has a failure that ends runs. -/
  failed : s.status = .failed → ∃ f, s.error = some f ∧ f.kind.isFatal = true
  /-- On any other run, a complete one for instance, at most a round stands that was not
  drained. -/
  unfailed : s.status ≠ .failed → ∀ f, s.error = some f → f.kind = .queueExhaustion
  results : ∀ r ∈ s.results, r.Coherent
  /-- The rounds are remembered in a row from the first, each once. -/
  memory : s.memory.map (·.round) = List.range' 1 s.memory.length
  summary : s.lastSummary = s.memory.getLast?.map (·.summary)

/-- A state of a run as it was called for. -/
structure RunState.IsOf (s : RunState) (run : RunId) (mission : String) (startedAt : Instant) :
    Prop where
  runId : s.runId = run
  mission : s.mission = mission
  startedAt : s.startedAt = startedAt

namespace RunState

variable {s : RunState}

theorem coherent_start (run : RunId) (mission : String) (now : Instant) :
    (start run mission now).Coherent := by
  constructor <;> simp [start, RunStatus.isTerminal]

namespace Coherent

/-- **A run without a time of completion is not over.** -/
theorem phase_ne_done (h : s.Coherent) (hopen : s.completedAt = none) : s.phase ≠ .done := by
  intro hdone
  have hsome := h.completed.mp hdone
  simp [hopen] at hsome

theorem isTerminal_eq_false (h : s.Coherent) (hopen : s.completedAt = none) :
    s.status.isTerminal = false :=
  Bool.eq_false_iff.mpr fun hterminal => h.phase_ne_done hopen (h.terminal.mp hterminal)

theorem ne_failed (h : s.Coherent) (hopen : s.completedAt = none) : s.status ≠ .failed := by
  intro hs
  have hterminal := h.isTerminal_eq_false hopen
  rw [hs] at hterminal
  cases hterminal

/-- **A run that is not over goes on**: with another round, with other tasks and results, and
with a round on it that was not drained. -/
theorem goOn (h : s.Coherent) (hopen : s.completedAt = none) {round : Nat} {tasks : List Task}
    {results : List TaskResult} {status : RunStatus} {phase : RoundPhase}
    {error : Option RunFailure} (hstatus : status.isTerminal = false) (hphase : phase ≠ .done)
    (hresults : ∀ r ∈ results, r.Coherent)
    (herror : ∀ f, error = some f → s.error = some f ∨ f.kind = .queueExhaustion) :
    ({ s with round, tasks, results, status, phase, error } : RunState).Coherent := by
  refine ⟨?_, ?_, h.after, fun hs => ?_, fun _ f hf => ?_, hresults, h.memory, h.summary⟩
  · simp [hstatus, hphase]
  · simp [hphase, hopen]
  · dsimp only at hs
    simp [hs, RunStatus.isTerminal] at hstatus
  · rcases herror f hf with hf | hf
    · exact h.unfailed (h.ne_failed hopen) f hf
    · exact hf

/-- **A run ends**, whether it was over already or not. -/
theorem finish (h : s.Coherent) (status : RunStatus) {error : Option RunFailure}
    (hstatus : status.isTerminal = true)
    (hfailed : status = .failed → ∃ f, error = some f ∧ f.kind.isFatal = true)
    (hunfailed : status ≠ .failed → ∀ f, error = some f → f.kind = .queueExhaustion)
    (now : Instant) : (({ s with error } : RunState).finish status now).Coherent := by
  refine ⟨?_, ?_, fun t ht => ?_, hfailed, hunfailed, h.results, h.memory, h.summary⟩
  · simp [RunState.finish, hstatus]
  · simp [RunState.finish]
  · obtain rfl := Option.some.inj ht
    exact s.before_completionTime now

theorem fail (h : s.Coherent) {f : RunFailure} (hf : f.kind.isFatal = true) (now : Instant) :
    (s.fail f now).Coherent :=
  h.finish .failed rfl (fun _ => ⟨f, rfl, hf⟩) (fun hs => absurd rfl hs) now

theorem complete (h : s.Coherent) (hopen : s.completedAt = none) (now : Instant) :
    (s.complete now).Coherent :=
  h.finish .completed rfl nofun (fun _ => h.unfailed (h.ne_failed hopen)) now

theorem beginRound (h : s.Coherent) (hopen : s.completedAt = none) : s.beginRound.Coherent :=
  h.goOn hopen rfl nofun (List.forall_mem_nil _) fun _ hf => .inl hf

/-- **The round behind the remembered ones** is remembered behind them. -/
theorem recordSummary (h : s.Coherent) (hround : s.round = s.memory.length + 1)
    (summary : String) : (s.recordSummary summary).Coherent := by
  refine ⟨h.terminal, h.completed, h.after, h.failed, h.unfailed, h.results, ?_, ?_⟩
  · rw [memory_recordSummary, List.map_append, h.memory, List.length_append, List.length_singleton,
      List.range'_concat, hround, Nat.one_mul, Nat.add_comm 1]
    rfl
  · rw [memory_recordSummary, List.getLast?_concat]
    rfl

end Coherent

end RunState

/-- A round that was not drained leaves its failure on the run, and nothing else. -/
theorem Course.error_checkDrained {c : Course} {q : Queue Task} {now : Instant} {f : RunFailure}
    (h : (c.checkDrained q now).1.state.error = some f) :
    c.state.error = some f ∨ f.kind = .queueExhaustion := by
  unfold checkDrained at h
  dsimp only at h
  split at h
  · exact .inl h
  · obtain rfl := Option.some.inj h
    exact .inr rfl

/-- An answer that ends the run has a kind of failure that does. -/
theorem Course.Refusal.isFatal {c : Course} {r : CourseRequest} {a : CourseAnswer}
    {kind : FailureKind} {message : String} (h : c.Refusal r a kind message) :
    kind.isFatal = true := by
  cases h <;> rfl

/-- What a course asks to be recorded is its state. -/
theorem Course.eq_state_of_request? {c : Course} {n : Nat} {s : RunState}
    (h : c.request? = some (.persist n s)) : s = c.state := by
  unfold request? at h
  cases hs : c.stage <;> simp [hs] at h <;> exact h.2.symm

/-! ### States along a journey -/

namespace Journey

variable {j j' : Journey} {kind : Move → Prop}

/-- A run has no time of completion until its last round was judged or it has failed. -/
def OpenStage (j : Journey) : Prop :=
  match j.course.stage with
  | .storing .complete | .failing | .leaving | .over => True
  | _ => j.course.state.completedAt = none

/-- **After these calls the state was handed to the store**, which may have answered or not. -/
def HandsOver (j : Journey) (before : List Call) (s : RunState) : Prop :=
  (∃ n c after, j.calls = before ++ c :: after ∧ c.request = .persist n s) ∨
    j.calls = before ∧ ∃ n, j.course.request? = some (.persist n s)

/-- **The state of the run is coherent**, it can be worked on as long as it has to, and so were
all that the store has answered to. -/
structure Orderly (j : Journey) : Prop where
  state : j.course.state.Coherent
  stage : j.OpenStage
  results : ∀ r, j.course.pool.Has r → r.Coherent
  recorded : ∀ before c after n s, j.calls = before ++ c :: after → c.request = .persist n s →
    s.Coherent ∧ s.memory = before.filterMap Call.summary? ∧
      s.IsOf j.course.state.runId j.course.state.mission j.course.state.startedAt

/-- A run that is worked on stays one. -/
theorem Orderly.of_pool (h : j.Orderly) (hstate : j'.course.state = j.course.state)
    (hstage : j'.course.stage = j.course.stage) : j'.course.state.Coherent ∧ j'.OpenStage := by
  have hopen := h.stage
  unfold OpenStage at hopen ⊢
  rw [hstage, hstate]
  exact ⟨h.state, hopen⟩

/-- A round begins on a run that is not over. -/
theorem Orderly.beginRound {m : Moment} {ns : List Notice} {call : Call} (h : j.Orderly)
    (hopen : j.course.state.completedAt = none) :
    (j.heard (j.course.beginRound m).1 ns call).course.state.Coherent ∧
      (j.heard (j.course.beginRound m).1 ns call).OpenStage := by
  set j' := j.heard (j.course.beginRound m).1 ns call
  have hstate : j'.course.state = j.course.state.beginRound := Course.state_beginRound
  refine ⟨hstate ▸ h.state.beginRound hopen, ?_⟩
  unfold OpenStage
  rw [hstate]
  rcases j.course.stage_beginRound m with ⟨-, hs⟩ | ⟨-, hs⟩
  · rw [show j'.course.stage = _ from hs]
    exact hopen
  · rw [show j'.course.stage = _ from hs]
    exact hopen

/-- **A stride** leaves the state coherent, and the run not over before its time. -/
theorem Orderly.own {m : Moment} (h : j.Orderly) (hm : j.move? (.own m) = some j') :
    j'.course.state.Coherent ∧ j'.OpenStage := by
  have hopen := h.stage
  unfold OpenStage at hopen
  obtain ⟨c, q, ns, hstride, rfl⟩ := move?_own.mp hm
  -- Only the strides into and out of the pool touch the state.
  cases hstride with
  | publish hs | published hs | dismiss hs | hire hs | hired hs =>
    rw [hs] at hopen
    exact ⟨h.state, hopen⟩
  | leave => exact ⟨h.state, trivial⟩
  | dismissed hs =>
    rw [hs] at hopen
    have hstatus := h.state.isTerminal_eq_false hopen
    exact ⟨h.state.goOn hopen hstatus nofun h.state.results fun _ hf => .inl hf, hopen⟩
  | drained hs =>
    rw [hs] at hopen
    refine ⟨h.state.goOn hopen rfl nofun (fun r hr => h.results r (.inl hr)) ?_, hopen⟩
    exact fun f hf => Course.error_checkDrained hf

/-- **The judge is asked when all rounds before the one under way are remembered.** -/
theorem Mindful.round_of_judging {r : JudgeRequest} (hmind : j.Mindful) (ht : j.OnTrack)
    (hs : j.course.stage = .judging r) :
    j.course.state.round = j.course.state.memory.length + 1 := by
  have hpaced := ht.paced.2.2.2
  have hmemory := hmind.stage
  unfold MemoryStage at hmemory
  rw [hs] at hpaced hmemory
  have hlength := congrArg List.length hmemory.1
  rw [List.length_map, List.length_range', ← hmind.memory] at hlength
  change 0 < j.course.state.round at hpaced
  change j.course.state.memory.length = j.course.state.round - 1 at hlength
  omega

/-- **A reply** leaves the state coherent, and the run not over before its time. -/
theorem Orderly.reply {m : Moment} {r : CourseRequest} {a : CourseAnswer} {c : Course}
    {ns : List Notice} (h : j.Orderly) (hmind : j.Mindful) (ht : j.OnTrack)
    (hreply : j.course.Reply m r a c ns) :
    (j.heard c ns ⟨r, a⟩).course.state.Coherent ∧ (j.heard c ns ⟨r, a⟩).OpenStage := by
  have hopen := h.stage
  unfold OpenStage at hopen
  have hround {r : JudgeRequest} (hs : j.course.stage = .judging r) :=
    hmind.round_of_judging ht hs
  cases hreply with
  | recorded hs | continued hs =>
    rw [hs] at hopen
    exact h.beginRound hopen
  | recalled hs =>
    rw [hs] at hopen
    exact ⟨h.state, hopen⟩
  | planned hs =>
    rw [hs] at hopen
    have hstatus := h.state.isTerminal_eq_false hopen
    exact ⟨h.state.goOn hopen hstatus nofun h.state.results fun _ hf => .inl hf, hopen⟩
  | proceeds hs =>
    rw [hs] at hopen
    have hnext := h.state.recordSummary (hround hs)
    have hphase := h.state.phase_ne_done hopen
    exact ⟨(hnext _).goOn hopen rfl hphase h.state.results fun _ hf => .inl hf, hopen⟩
  | stops hs =>
    rw [hs] at hopen
    exact ⟨(h.state.recordSummary (hround hs) _).complete hopen _, trivial⟩
  | completed | failed => exact ⟨h.state, trivial⟩
  | refused hr => exact ⟨h.state.fail hr.isFatal _, trivial⟩

/-- **Every move** leaves the state coherent, and the run not over before its time. -/
theorem Orderly.state_move {m : Move} (h : j.Orderly) (hmind : j.Mindful) (ht : j.OnTrack)
    (hm : j.move? m = some j') : j'.course.state.Coherent ∧ j'.OpenStage := by
  cases m with
  | own m => exact h.own hm
  | work i now =>
    obtain ⟨p, q, ns, -, rfl⟩ := move?_work.mp hm
    exact h.of_pool rfl rfl
  | delegated i r =>
    obtain ⟨d, -, rfl⟩ := move?_delegated.mp hm
    exact h.of_pool rfl rfl
  | lost i =>
    obtain ⟨d, -, rfl⟩ := move?_lost.mp hm
    exact h.of_pool rfl rfl
  | answered a m =>
    obtain ⟨r, c, ns, hreply, rfl⟩ := reply_of_move? hm
    exact h.reply hmind ht hreply

/-- **What a run hands to the store** is coherent and remembers what the calls before it have
left. -/
theorem Orderly.handsOver {before : List Call} {s : RunState} (h : j.Orderly) (hmind : j.Mindful)
    (hs : j.HandsOver before s) : s.Coherent ∧ s.memory = before.filterMap Call.summary? ∧
      s.IsOf j.course.state.runId j.course.state.mission j.course.state.startedAt := by
  rcases hs with ⟨n, c, after, hcalls, hc⟩ | ⟨rfl, n, hr⟩
  · exact h.recorded before c after n s hcalls hc
  · obtain rfl := Course.eq_state_of_request? hr
    exact ⟨h.state, hmind.memory, rfl, rfl, rfl⟩

/-- What the store has answered to was handed to it before. -/
theorem Orderly.recorded_move {m : Move} (h : j.Orderly) (hmind : j.Mindful)
    (hm : j.move? m = some j') {before : List Call} {c : Call} {after : List Call} {n : Nat}
    {s : RunState} (hcalls : j'.calls = before ++ c :: after) (hc : c.request = .persist n s) :
    s.Coherent ∧ s.memory = before.filterMap Call.summary? ∧
      s.IsOf j'.course.state.runId j'.course.state.mission j'.course.state.startedAt := by
  have hsame := sameRun_of_move? hm
  rw [hsame.runId, hsame.mission, hsame.startedAt]
  refine h.handsOver hmind ?_
  obtain ⟨call, heq, hasked⟩ := calls_of_move? hm
  rw [heq] at hcalls
  cases call with
  | none => exact .inl ⟨n, c, after, (List.append_nil _).symm.trans hcalls, hc⟩
  | some new =>
    -- The call is the one that was answered just now, or one of those before.
    rcases List.eq_nil_or_concat after with rfl | ⟨rest, b, rfl⟩
    · obtain ⟨rfl, hlast⟩ := List.append_inj' hcalls rfl
      obtain rfl := List.singleton_inj.mp hlast
      exact .inr ⟨rfl, n, hc ▸ hasked _ rfl⟩
    · rw [List.concat_eq_append, ← List.cons_append, ← List.append_assoc] at hcalls
      obtain ⟨hinit, -⟩ := List.append_inj' hcalls rfl
      exact .inl ⟨n, c, rest, hinit, hc⟩

/-- **Every move that brings honest results** keeps the run in order. -/
theorem Orderly.move {m : Move} (h : j.Orderly) (hmind : j.Mindful) (ht : j.OnTrack)
    (hhonest : m.IsHonest) (hm : j.move? m = some j') : j'.Orderly := by
  obtain ⟨hstate, hstage⟩ := h.state_move hmind ht hm
  refine ⟨hstate, hstage, fun r hr => ?_, fun before c after n s => h.recorded_move hmind hm⟩
  obtain hr | ⟨i, res, task, rfl, rfl⟩ := has_of_move? hm hr
  · exact h.results r hr
  · exact TaskResult.coherent_ofSubAgent hhonest

/-- Wherever moves with honest results lead, the run is in order. -/
theorem Orderly.reaches (h : j.Orderly) (hmind : j.Mindful) (ht : j.OnTrack)
    (hr : j.Reaches (fun m => kind m ∧ m.IsHonest) j') : j'.Orderly := by
  have hboth : j'.Orderly ∧ j'.Mindful := by
    refine ht.keeps (P := fun a => a.Orderly ∧ a.Mindful) hr (fun ht hkind hm h => ?_) ⟨h, hmind⟩
    exact ⟨h.1.move h.2 ht hkind.2 hm, h.2.move ht hm⟩
  exact hboth.1

variable {run : RunId} {mission : String} {workers limit : Nat} {delegation : Delegation}
  {now : Instant} {q : Queue Task}

/-- A run at its outset is in order, and it is the one that was called for. -/
theorem orderly_of_embark {j₀ : Journey}
    (h : embark run mission workers limit delegation now q = .ok j₀) :
    j₀.Orderly ∧ j₀.course.state.IsOf run mission now := by
  obtain ⟨-, -, ns, rfl⟩ := embark_eq_ok h
  refine ⟨⟨RunState.coherent_start run mission now, rfl, fun r hr => ?_, ?_⟩, rfl, rfl, rfl⟩
  · exact absurd hr Pool.has_empty
  · intro before c after n s hcalls
    cases before <;> cases hcalls

end Journey

namespace Venture

variable {run : RunId} {mission : String} {workers limit : Nat} {delegation : Delegation}
  {standard : Span} {now : Instant} {q : Queue Task} {v v₀ : Venture}

/-- **The state of a run is coherent at each moment.** Wherever acts lead, workers lost or not,
each state that was handed to the store, and the one the run is in now, which is the one it
returns when it is over,

- is coherent,
- remembers what the judge has said so far, once for each round it has judged, and
- is of the run as it was called for. -/
theorem coherent_throughout (hq : q.Reachable) (hl : limit < 2 ^ 32)
    (hv₀ : embark run mission workers limit delegation standard now q = .ok v₀)
    (hv : v₀.Reaches Move.IsAny v) :
    (∀ before s, v.journey.HandsOver before s →
      s.Coherent ∧ s.memory = before.filterMap Call.summary? ∧ s.IsOf run mission now) ∧
    v.journey.course.state.Coherent ∧ v.journey.course.state.memory = v.journey.summaries ∧
      v.journey.course.state.IsOf run mission now := by
  obtain ⟨hj₀, hattended⟩ := attended_of_embark hv₀
  obtain ⟨-, hj⟩ := hattended.reaches hv
  have hon := Journey.OnTrack.embark hq.sound hl hj₀
  have hmind₀ := Journey.mindful_of_embark hj₀
  obtain ⟨horderly₀, hof₀⟩ := Journey.orderly_of_embark hj₀
  have hmind := hmind₀.reaches hon hj
  have horderly := horderly₀.reaches hmind₀ hon hj
  have hsame := hj.sameRun
  have hof : v.journey.course.state.IsOf run mission now :=
    ⟨hsame.runId.trans hof₀.runId, hsame.mission.trans hof₀.mission,
      hsame.startedAt.trans hof₀.startedAt⟩
  refine ⟨fun before s hs => ?_, horderly.state, hmind.memory, hof⟩
  obtain ⟨hcoherent, hmemory, hrunId, hmission, hstarted⟩ := horderly.handsOver hmind hs
  exact ⟨hcoherent, hmemory, hrunId.trans hof.runId, hmission.trans hof.mission,
    hstarted.trans hof.startedAt⟩

/-- How a run goes that is complete after two rounds and cannot be recorded. -/
def crossedUnrecorded : List Move :=
  Journey.crossedRecall ++ Journey.crossedRound (.stop "enough") "3" "4" ++
    [.answered (.persisted (.error (.io ""))) default, Journey.stored, .own default]

theorem coherent_throughout_unrecorded : ∃ v₀ v : Venture,
    embark default "" 2 3 default default default .empty = .ok v₀ ∧ v₀.Reaches Move.IsAny v ∧
    v.journey.course.isOver = true ∧ v.journey.course.state.status = .failed ∧
    v.journey.course.state.Coherent ∧ v.journey.course.state.memory = v.journey.summaries ∧
    v.journey.summaries = [⟨1, "once more", 1, 1⟩, ⟨2, "enough", 1, 1⟩] := by
  have hsome : ((embark default "" 2 3 default default default .empty).toOption.bind
      (·.acts? (actsOf crossedUnrecorded))).any (fun v => v.journey.course.isOver &&
        v.journey.course.state.status == .failed &&
        v.journey.summaries == [⟨1, "once more", 1, 1⟩, ⟨2, "enough", 1, 1⟩]) = true := by
    decide +kernel
  obtain ⟨v₀, hv₀⟩ : ∃ v₀, embark default "" 2 3 default default default .empty = .ok v₀ :=
    ⟨_, rfl⟩
  rw [hv₀, Except.toOption, Option.bind_some] at hsome
  obtain ⟨v, hv, hend⟩ := (Option.any_eq_true _ _).mp hsome
  obtain ⟨hend, hsummaries⟩ := (Bool.and_eq_true _ _).mp hend
  obtain ⟨hover, hstatus⟩ := (Bool.and_eq_true _ _).mp hend
  have hreach := Reaches.of_acts? (of_actsOf fun _ _ => trivial) hv
  obtain ⟨-, hcoherent, hmemory, -⟩ :=
    coherent_throughout Relation.ReflTransGen.refl (by decide) hv₀ hreach
  exact ⟨v₀, v, hv₀, hreach, hover, beq_iff_eq.mp hstatus, hcoherent, hmemory,
    beq_iff_eq.mp hsummaries⟩

end Venture

end Roundtable

import Mathlib.Data.List.Induction
import Roundtable.Proofs.Course.Outcome
import Roundtable.Proofs.Store.Keeping

/-!
# The chronicle of a run

A store that answers a run without failing holds the whole of it in the end
(`Roundtable.Journey.chronicle`): its mission as round zero, every round after it in order
and once, and the state the run ended with as the last.

What carries this along is that **the rounds recorded so far are those in front of the one
under way**, and that their memories only grow towards the one of the run
(`Roundtable.Annals`). Where the run fails, the failed state takes the place of the round
it failed in, which nothing has taken yet.
-/

namespace Roundtable

/-! ### Stores that serve a run -/

namespace Call

/-- What a call gives the store to record. -/
def recorded? : Call → Option (Nat × RunState)
  | ⟨.persist round state, _⟩ => some (round, state)
  | ⟨.load, _⟩ | ⟨.plan _, _⟩ | ⟨.judge _, _⟩ => none

end Call

namespace Store

/-- **The store answers a call of a run without failing**; what the planner and the judge
are asked leaves it alone. -/
inductive Answers (run : RunId) : Store → Call → Store → Prop
  | recorded {s s' : Store} {round : Nat} {state : RunState} {now : Instant}
      (h : s.persist run round state now = (.ok (), s')) :
      Answers run s ⟨.persist round state, .persisted (.ok ())⟩ s'
  | loaded {s : Store} {found : Option RunState} (h : s.load run = .ok found) :
      Answers run s ⟨.load, .loaded (.ok found)⟩ s
  | planned {s : Store} {r : PlanRequest} {a : CourseAnswer} : Answers run s ⟨.plan r, a⟩ s
  | judged {s : Store} {r : JudgeRequest} {a : CourseAnswer} : Answers run s ⟨.judge r, a⟩ s

/-- **The store serves a run**: it answers its calls one after the other. -/
inductive Serves (run : RunId) (s : Store) : List Call → Store → Prop
  | nil : Serves run s [] s
  | concat {calls : List Call} {s' s'' : Store} {c : Call} (h : Serves run s calls s')
      (ha : Answers run s' c s'') : Serves run s (calls ++ [c]) s''

variable {s s' s'' : Store} {run : RunId} {calls : List Call} {c : Call}

theorem serves_nil : Serves run s [] s' ↔ s' = s := by
  constructor
  · intro h
    generalize hl : ([] : List Call) = l at h
    cases h with
    | nil => rfl
    | concat => simp at hl
  · rintro rfl
    exact .nil

theorem serves_concat :
    Serves run s (calls ++ [c]) s'' ↔ ∃ s', Serves run s calls s' ∧ Answers run s' c s'' := by
  constructor
  · intro h
    generalize hl : calls ++ [c] = l at h
    cases h with
    | nil => simp at hl
    | concat h ha =>
      obtain ⟨rfl, hc⟩ := List.append_inj' hl rfl
      obtain rfl := List.singleton_inj.mp hc
      exact ⟨_, h, ha⟩
  · rintro ⟨s', h, ha⟩
    exact .concat h ha

/-- A store goes on to serve a run. -/
theorem Serves.append {calls' : List Call} (h : s.Serves run calls s')
    (h' : s'.Serves run calls' s'') : s.Serves run (calls ++ calls') s'' := by
  induction h' with
  | nil => rwa [List.append_nil]
  | concat _ ha ih =>
    rw [← List.append_assoc]
    exact .concat ih ha

/-- The store once it has answered a call that recorded something at `now`, or that went to
the planner or the judge. -/
def answer? (run : RunId) (now : Instant) (s : Store) : Call → Option Store
  | ⟨.persist round state, .persisted (.ok ())⟩ =>
    match s.persist run round state now with
    | (.ok (), s') => some s'
    | (.error _, _) => none
  | ⟨.plan _, _⟩ | ⟨.judge _, _⟩ => some s
  | ⟨.persist .., _⟩ | ⟨.load, _⟩ => none

theorem answers_of_answer? {now : Instant} (h : s.answer? run now c = some s') :
    s.Answers run c s' := by
  unfold answer? at h
  split at h
  · split at h
    · next hp =>
      obtain rfl := Option.some.inj h
      exact .recorded hp
    · cases h
  · obtain rfl := Option.some.inj h
    exact .planned
  · obtain rfl := Option.some.inj h
    exact .judged
  · cases h
  · cases h

theorem serves_of_answer? {now : Instant} (h : calls.foldlM (answer? run now) s = some s') :
    s.Serves run calls s' := by
  induction calls using List.reverseRecOn generalizing s' with
  | nil =>
    obtain rfl := Option.some.inj h
    exact .nil
  | append_singleton calls c ih =>
    rw [List.foldlM_append] at h
    obtain ⟨s₁, h₁, h⟩ := Option.bind_eq_some_iff.mp h
    rw [List.foldlM_cons] at h
    obtain ⟨s₂, h₂, h⟩ := Option.bind_eq_some_iff.mp h
    obtain rfl := Option.some.inj h
    exact .concat (ih h₁) (answers_of_answer? h₂)

/-- **The store keeps what was recorded of a run**: these rounds with these states. -/
def Holds (s : Store) (run : RunId) (log : List (Nat × RunState)) : Prop :=
  ∃ records, s.Keeps run records ∧ records.map (fun r => (r.round, r.state)) = log ∧
    ∀ r ∈ records, r.runId = run

/-- What a store tells of a recorded round. -/
structure Tells (s : Store) (run : RunId) (x : Nat × RunState) (r : RoundRecord) : Prop where
  runId : r.runId = run
  round : r.round = x.1
  alike : Alike x.2 r.state
  exact_iff : r.state = x.2 ↔ s.Preserves x.2

variable {log : List (Nat × RunState)} {round : Nat} {state : RunState} {now : Instant}

/-- **The round behind all others** is recorded as the last. -/
theorem Holds.persist (h : s.Holds run log) (hlog : log.map (·.1) = List.range round)
    (hround : round < 2 ^ 32) (hp : s.persist run round state now = (.ok (), s')) :
    s'.Holds run (log ++ [(round, state)]) ∧ s'.Preserves = s.Preserves := by
  obtain ⟨records, hkeeps, rfl, hrun⟩ := h
  obtain ⟨-, -, hsame, hkeeps'⟩ := hkeeps.persist hround hp
  have hlt : ∀ x ∈ records, x.round < round := by
    intro x hx
    have hmem : x.round ∈ List.range round := by
      rw [← hlog, List.map_map]
      exact List.mem_map_of_mem hx
    exact List.mem_range.mp hmem
  rw [MemoryStore.insertRecord_of_lt hlt] at hkeeps'
  refine ⟨⟨_, hkeeps', by rw [List.map_append]; rfl, fun r hr => ?_⟩, hsame⟩
  rcases List.mem_append.mp hr with hr | hr
  · exact hrun r hr
  · rw [List.mem_singleton.mp hr]

/-- What stands in the second of two lists stands for something in the first. -/
theorem exists_of_forall₂ {α β : Type} {R : α → β → Prop} {xs : List α} {ys : List β}
    (h : List.Forall₂ R xs ys) {y : β} (hy : y ∈ ys) : ∃ x ∈ xs, R x y := by
  induction h with
  | nil => cases hy
  | @cons x z xs ys hxz _ ih =>
    rcases List.mem_cons.mp hy with rfl | hy
    · exact ⟨x, List.mem_cons_self, hxz⟩
    · obtain ⟨x', hx', hr⟩ := ih hy
      exact ⟨x', List.mem_cons_of_mem _ hx', hr⟩

/-- What stands last in the first of two lists stands for what stands last in the second. -/
theorem getLast?_of_forall₂ {α β : Type} {R : α → β → Prop} {xs : List α} {ys : List β}
    (h : List.Forall₂ R xs ys) {x : α} (hx : xs.getLast? = some x) :
    ∃ y, ys.getLast? = some y ∧ R x y := by
  induction h with
  | nil => cases hx
  | @cons a b xs ys hab hrest ih =>
    cases hrest with
    | nil =>
      obtain rfl := Option.some.inj hx
      exact ⟨b, rfl, hab⟩
    | cons hcd hrest =>
      rw [List.getLast?_cons_cons] at hx
      obtain ⟨y, hy, hr⟩ := ih hx
      exact ⟨y, by rw [List.getLast?_cons_cons, hy], hr⟩

/-- **What the store tells of a run is what was recorded**, round by round. -/
theorem Holds.history (h : s.Holds run log) (hne : log ≠ []) {told : List RoundRecord}
    (hh : s.history run = .ok told) : List.Forall₂ (s.Tells run) log told ∧
      ((∀ x ∈ log, ∀ y ∈ log, x.2.startedAt = y.2.startedAt) →
        ∀ r ∈ told, ∀ r' ∈ told, r.state.startedAt = r'.state.startedAt) := by
  obtain ⟨records, hkeeps, rfl, hrun⟩ := h
  have hread := (hkeeps.history (by simpa using hne)).mp hh
  constructor
  · rw [List.forall₂_map_left_iff]
    refine ((List.forall₂_and_left _ _).mpr ⟨hrun, hread⟩).imp fun r r' hr => ?_
    obtain ⟨hrunId, hround, halike, hexact⟩ := alike_of_reread hr.2
    exact ⟨hrunId.trans hr.1, hround, halike, hexact⟩
  · intro hall r hr r' hr'
    obtain ⟨x, hx, hxr⟩ := exists_of_forall₂ hread hr
    obtain ⟨y, hy, hyr⟩ := exists_of_forall₂ hread hr'
    exact startedAt_of_reread hyr hxr
      (hall _ (List.mem_map_of_mem hx) _ (List.mem_map_of_mem hy))

/-- **What the store loads of a run is the state that was recorded last**, alike. -/
theorem Holds.load (h : s.Holds run log) (hne : log ≠ []) {found : Option RunState}
    (hl : s.load run = .ok found) : ∃ x ∈ log.getLast?, ∃ st, found = some st ∧ Alike x.2 st ∧
      (st = x.2 ↔ s.Preserves x.2) := by
  rw [load_eq] at hl
  cases hh : s.history run with
  | error e =>
    rw [hh] at hl
    cases hl
  | ok told =>
    obtain ⟨htold, -⟩ := h.history hne hh
    rw [hh] at hl
    obtain rfl := Except.ok.inj hl
    have hlast := List.getLast?_eq_some_getLast hne
    obtain ⟨r, hr, htell⟩ := getLast?_of_forall₂ htold hlast
    exact ⟨_, hlast, r.state, by simp [hr], htell.alike, htell.exact_iff⟩

end Store

/-! ### Annals -/

/-- **What was recorded in front of the round a state is in.** -/
structure Annals (log : List (Nat × RunState)) (s : RunState) : Prop where
  rounds : log.map (·.1) = List.range s.round
  states : ∀ x ∈ log, x.2.round = x.1 ∧ x.2.runId = s.runId ∧ x.2.mission = s.mission ∧
    x.2.startedAt = s.startedAt
  opening : ∀ x ∈ log, x.1 = 0 →
    x.2.status = .running ∧ x.2.tasks = [] ∧ x.2.results = [] ∧ x.2.memory = []
  interim : ∀ x ∈ log, 0 < x.1 → x.2.status = .continuing ∧ x.2.completedAt = none
  memories : log.Pairwise fun x y => x.2.memory <+: y.2.memory
  memory : ∀ x ∈ log, x.2.memory <+: s.memory

namespace Annals

variable {log : List (Nat × RunState)} {s s' : RunState}

/-- In front of the mission nothing was recorded. -/
theorem nil (h : s.round = 0) : Annals [] s := by
  refine ⟨by rw [h]; rfl, ?_, ?_, ?_, .nil, ?_⟩ <;> exact List.forall_mem_nil _

/-- A state of the same round that remembers no less has the same annals. -/
theorem of_same (h : Annals log s) (hround : s'.round = s.round) (hrun : s'.runId = s.runId)
    (hmission : s'.mission = s.mission) (hstarted : s'.startedAt = s.startedAt)
    (hmemory : s.memory <+: s'.memory) : Annals log s' := by
  refine ⟨hround ▸ h.rounds, fun x hx => ?_, h.opening, h.interim, h.memories,
    fun x hx => (h.memory x hx).trans hmemory⟩
  rw [hrun, hmission, hstarted]
  exact h.states x hx

theorem lt_round (h : Annals log s) {x : Nat × RunState} (hx : x ∈ log) : x.1 < s.round := by
  have hmem : x.1 ∈ List.range s.round := h.rounds ▸ List.mem_map_of_mem hx
  exact List.mem_range.mp hmem

theorem ne_nil (h : Annals log s) (hpos : 0 < s.round) : log ≠ [] := by
  rintro rfl
  have hlen := congrArg List.length h.rounds
  simp at hlen
  omega

theorem rounds_concat (h : Annals log s) :
    (log ++ [(s.round, s)]).map (·.1) = List.range (s.round + 1) := by
  rw [List.map_append, h.rounds, List.range_succ]
  rfl

theorem states_concat (h : Annals log s) : ∀ x ∈ log ++ [(s.round, s)], x.2.round = x.1 ∧
    x.2.runId = s.runId ∧ x.2.mission = s.mission ∧ x.2.startedAt = s.startedAt := by
  rw [List.forall_mem_append, List.forall_mem_singleton]
  exact ⟨h.states, rfl, rfl, rfl, rfl⟩

theorem memories_concat (h : Annals log s) :
    (log ++ [(s.round, s)]).Pairwise fun x y => x.2.memory <+: y.2.memory := by
  rw [List.pairwise_append]
  refine ⟨h.memories, List.pairwise_singleton _ _, fun x hx y hy => ?_⟩
  rw [List.mem_singleton.mp hy]
  exact h.memory x hx

/-- **The round that is recorded** is the last of the annals of the next. -/
theorem concat (h : Annals log s) (hlt : s.round + 1 < 2 ^ 32)
    (hopening : s.round = 0 →
      s.status = .running ∧ s.tasks = [] ∧ s.results = [] ∧ s.memory = [])
    (hinterim : 0 < s.round → s.status = .continuing ∧ s.completedAt = none) :
    Annals (log ++ [(s.round, s)]) s.beginRound := by
  have hround : s.beginRound.round = s.round + 1 := Nat.mod_eq_of_lt hlt
  refine ⟨hround ▸ h.rounds_concat, h.states_concat, ?_, ?_, h.memories_concat, ?_⟩
  · rw [List.forall_mem_append, List.forall_mem_singleton]
    exact ⟨h.opening, hopening⟩
  · rw [List.forall_mem_append, List.forall_mem_singleton]
    exact ⟨h.interim, hinterim⟩
  · rw [List.forall_mem_append, List.forall_mem_singleton]
    exact ⟨h.memory, List.prefix_rfl⟩

end Annals

namespace Journey

variable {j j' : Journey} {s s' : Store} {run : RunId}

/-- What was given to the store to record. -/
def recorded (j : Journey) : List (Nat × RunState) := j.calls.filterMap Call.recorded?

/-- How far the annals of a run have got at each stage. -/
def AnnalStage (j : Journey) : Prop :=
  match j.course.stage with
  | .recording => j.recorded = [] ∧ j.course.state.round = 0 ∧
    j.course.state.completedAt = none ∧ j.course.state.status = .running ∧
    j.course.state.tasks = [] ∧ j.course.state.results = [] ∧ j.course.state.memory = []
  | .recalling => Annals j.recorded j.course.state ∧ j.course.state.completedAt = none ∧
    ∀ x ∈ j.recorded.getLast?, x.2.memory = j.course.state.memory
  | .planning r => Annals j.recorded j.course.state ∧ j.course.state.completedAt = none ∧
    r.memory = j.course.state.memory
  | .dispatching _ | .dismissing _ | .hiring _ | .draining | .judging _ =>
    Annals j.recorded j.course.state ∧ j.course.state.completedAt = none
  | .storing .continue => Annals j.recorded j.course.state ∧
    j.course.state.status = .continuing ∧ j.course.state.completedAt = none
  | .storing .complete | .failing => Annals j.recorded j.course.state ∧
    0 < j.course.state.round ∧ j.course.state.isTerminal = true
  | .leaving | .over => ∃ log, j.recorded = log ++ [(j.course.state.round, j.course.state)] ∧
    Annals log j.course.state ∧ 0 < j.course.state.round ∧ j.course.state.isTerminal = true

/-- **The store that has served the run so far holds what the annals tell.** -/
structure Chronicled (s : Store) (run : RunId) (j : Journey) (s' : Store) : Prop where
  preserves : s'.Preserves = s.Preserves
  holds : s'.Holds run j.recorded
  stage : j.AnnalStage

/-- A stride writes nothing down. -/
theorem AnnalStage.own {m : Moment} (h : j.AnnalStage) (hm : j.move? (.own m) = some j') :
    j'.AnnalStage := by
  unfold AnnalStage at h
  obtain ⟨c', q', ns, hstride, rfl⟩ := move?_own.mp hm
  cases hstride with
  | publish hs | published hs | dismiss hs | hire hs | hired hs | leave hs =>
    rw [hs] at h
    exact h
  | dismissed hs | drained hs =>
    rw [hs] at h
    exact ⟨h.1.of_same rfl rfl rfl rfl List.prefix_rfl, h.2⟩

/-- A move of the pool writes nothing down. -/
theorem AnnalStage.of_pool (h : j.AnnalStage) (hcalls : j'.calls = j.calls)
    (hstage : j'.course.stage = j.course.stage) (hstate : j'.course.state = j.course.state) :
    j'.AnnalStage := by
  unfold AnnalStage recorded at h ⊢
  rw [hstage, hcalls, hstate]
  exact h

theorem recorded_heard (j : Journey) (c : Course) (ns : List Notice) (call : Call) :
    (j.heard c ns call).recorded = j.recorded ++ call.recorded?.toList :=
  filterMap_heard Call.recorded? j c ns call

/-- **A round begins** with what was recorded before it. -/
theorem annalStage_beginRound {m : Moment} {ns : List Notice} {call : Call}
    (hcall : call.recorded? = some (j.course.state.round, j.course.state))
    (h : Annals j.recorded j.course.state) (hlt : j.course.state.round + 1 < 2 ^ 32)
    (hnone : j.course.state.completedAt = none)
    (hopening : j.course.state.round = 0 → j.course.state.status = .running ∧
      j.course.state.tasks = [] ∧ j.course.state.results = [] ∧ j.course.state.memory = [])
    (hinterim : 0 < j.course.state.round → j.course.state.status = .continuing) :
    (j.heard (j.course.beginRound m).1 ns call).AnnalStage := by
  have hannals := h.concat hlt hopening fun hpos => ⟨hinterim hpos, hnone⟩
  have hround : j.course.state.beginRound.round = j.course.state.round + 1 := Nat.mod_eq_of_lt hlt
  set j' := j.heard (j.course.beginRound m).1 ns call with hj'
  have hstate : j'.course.state = j.course.state.beginRound := Course.state_beginRound
  have hlog : j'.recorded = j.recorded ++ [(j.course.state.round, j.course.state)] := by
    rw [hj', recorded_heard, hcall]
    rfl
  unfold AnnalStage
  -- The first round has nothing to recall, and it remembers nothing.
  rcases j.course.stage_beginRound m with ⟨hle, hs⟩ | ⟨-, hs⟩
  · have hzero : j.course.state.round = 0 := by omega
    rw [show j'.course.stage = _ from hs, hlog, hstate]
    exact ⟨hannals, hnone, (hopening hzero).2.2.2.symm⟩
  · rw [show j'.course.stage = _ from hs, hlog, hstate, List.getLast?_concat]
    refine ⟨hannals, hnone, fun x hx => ?_⟩
    rw [← Option.mem_some_iff.mp hx]
    rfl

/-- A call that records nothing leaves the store as it is. -/
theorem Chronicled.asked {c : Course} {ns : List Notice} {call : Call}
    (h : Chronicled s run j s') (hcall : call.recorded? = none)
    (hstage : (j.heard c ns call).recorded = j.recorded → (j.heard c ns call).AnnalStage) :
    Chronicled s run (j.heard c ns call) s' := by
  have hlog : (j.heard c ns call).recorded = j.recorded := by
    rw [recorded_heard, hcall, Option.toList_none, List.append_nil]
  exact ⟨h.preserves, hlog ▸ h.holds, hstage hlog⟩

/-- **The round under way is recorded** behind all others. -/
theorem Chronicled.wrote {s₁ s₂ : Store} {c : Course} {ns : List Notice} {call : Call}
    {now : Instant} (h : Chronicled s run j s₁) (hannals : Annals j.recorded j.course.state)
    (hround : j.course.state.round < 2 ^ 32)
    (hcall : call.recorded? = some (j.course.state.round, j.course.state))
    (hp : s₁.persist run j.course.state.round j.course.state now = (.ok (), s₂))
    (hstage : (j.heard c ns call).recorded =
      j.recorded ++ [(j.course.state.round, j.course.state)] → (j.heard c ns call).AnnalStage) :
    Chronicled s run (j.heard c ns call) s₂ := by
  have hlog : (j.heard c ns call).recorded =
      j.recorded ++ [(j.course.state.round, j.course.state)] := by
    rw [recorded_heard, hcall, Option.toList_some]
  obtain ⟨hholds, hsame⟩ := h.holds.persist hannals.rounds hround hp
  exact ⟨hsame.trans h.preserves, hlog ▸ hholds, hstage hlog⟩

/-- A course that fails in a round has what was recorded in front of it. -/
theorem Chronicled.fail {kind : FailureKind} {message : String} {now : Instant} {call : Call}
    (h : Chronicled s run j s') (hcall : call.recorded? = none)
    (hannals : Annals j.recorded j.course.state) (hpos : 0 < j.course.state.round) :
    Chronicled s run (j.heard (j.course.fail kind message now) [] call) s' := by
  refine h.asked hcall fun hlog => ?_
  unfold AnnalStage
  rw [hlog]
  exact ⟨hannals.of_same rfl rfl rfl rfl List.prefix_rfl, hpos, rfl⟩

/-- **A call that the store answers** keeps the chronicle. -/
theorem Chronicled.answered {a : CourseAnswer} {m : Moment} {s₁ s₂ : Store} {r : CourseRequest}
    {c : Course} {ns : List Notice} (h : Chronicled s run j s₁) (ht : j.OnTrack)
    (hreply : j.course.Reply m r a c ns) (ha : s₁.Answers run ⟨r, a⟩ s₂) :
    Chronicled s run (j.heard c ns ⟨r, a⟩) s₂ := by
  have hstage := h.stage
  unfold AnnalStage at hstage
  obtain ⟨-, hlimit, hle, hpaced⟩ := ht.paced
  have hround : j.course.state.round < 2 ^ 32 := Nat.lt_of_le_of_lt hle hlimit
  -- Only a round that is stored adds to the annals. A store that serves gives no error, so a
  -- refusal is one of the planner or of the judge.
  cases hreply with
  | recorded hs =>
    rw [hs] at hstage
    obtain ⟨hnil, hzero, hnone, hrest⟩ := hstage
    have hannals : Annals j.recorded j.course.state := hnil ▸ .nil hzero
    have hcall : Call.recorded? ⟨.persist 0 j.course.state, .persisted (.ok ())⟩ =
        some (j.course.state.round, j.course.state) := by
      rw [hzero]
      rfl
    cases ha with
    | recorded hp =>
      rw [← hzero] at hp
      exact h.wrote hannals hround hcall hp fun _ =>
        annalStage_beginRound hcall hannals (by omega) hnone (fun _ => hrest) (by omega)
  | recalled hs =>
    rw [hs] at hstage hpaced
    obtain ⟨hannals, hnone, hlast⟩ := hstage
    cases ha with
    | loaded hl =>
      -- What is loaded is the round in front of this one, alike: its memory is the run's.
      obtain ⟨x, hx, st, hst, halike, -⟩ := h.holds.load (hannals.ne_nil hpaced) hl
      obtain rfl := Option.some.inj hst
      have hmemory := congrArg RunState.memory halike.same
      refine h.asked rfl fun hlog => ?_
      unfold AnnalStage
      rw [hlog]
      exact ⟨hannals, hnone, hmemory.trans (hlast x hx)⟩
  | planned hs =>
    rw [hs] at hstage
    obtain ⟨hannals, hnone, -⟩ := hstage
    cases ha
    refine h.asked rfl fun hlog => ?_
    unfold AnnalStage
    rw [hlog]
    exact ⟨hannals.of_same rfl rfl rfl rfl List.prefix_rfl, hnone⟩
  | proceeds hs hd =>
    rw [hs] at hstage
    obtain ⟨hannals, hnone⟩ := hstage
    cases ha
    refine h.asked rfl fun hlog => ?_
    unfold AnnalStage
    rw [hlog]
    exact ⟨hannals.of_same rfl rfl rfl rfl (List.prefix_append _ _), rfl, hnone⟩
  | stops hs hd =>
    rw [hs] at hstage hpaced
    obtain ⟨hannals, -⟩ := hstage
    cases ha
    refine h.asked rfl fun hlog => ?_
    unfold AnnalStage
    rw [hlog]
    exact ⟨hannals.of_same rfl rfl rfl rfl (List.prefix_append _ _), hpaced, rfl⟩
  | continued hs =>
    rw [hs] at hstage hpaced
    obtain ⟨hannals, hstatus, hnone⟩ := hstage
    cases ha with
    | recorded hp =>
      exact h.wrote hannals hround rfl hp fun _ =>
        annalStage_beginRound rfl hannals (by omega) hnone (by omega) fun _ => hstatus
  | completed hs | failed hs =>
    rw [hs] at hstage
    obtain ⟨hannals, hpos, hterminal⟩ := hstage
    cases ha with
    | recorded hp =>
      exact h.wrote hannals hround rfl hp fun hlog => ⟨_, hlog, hannals, hpos, hterminal⟩
  | refused hr =>
    cases hr with
    | mission hs | memory hs | round hs => cases ha
    | nothing hs =>
      -- Something was recorded before, so there is something to load.
      rw [hs] at hstage hpaced
      cases ha with
      | loaded hl =>
        obtain ⟨x, -, st, hst, -⟩ := h.holds.load (hstage.1.ne_nil hpaced) hl
        cases hst
    | plan hs | judge hs =>
      rw [hs] at hstage hpaced
      cases ha
      exact h.fail rfl hstage.1 hpaced

/-- **Every move** keeps the chronicle, as long as the store answers. -/
theorem Chronicled.move {m : Move} (h : ∀ s', s.Serves run j.calls s' → Chronicled s run j s')
    (ht : j.OnTrack) (hm : j.move? m = some j') (hs : s.Serves run j'.calls s') :
    Chronicled s run j' s' := by
  cases m with
  | own m =>
    have hcalls : j'.calls = j.calls := by
      obtain ⟨c', q', ns, -, rfl⟩ := move?_own.mp hm
      rfl
    obtain ⟨hpreserves, hholds, hstage⟩ := h s' (hcalls ▸ hs)
    refine ⟨hpreserves, ?_, hstage.own hm⟩
    rw [recorded, hcalls]
    exact hholds
  | work i now =>
    obtain ⟨p, q', ns, -, rfl⟩ := move?_work.mp hm
    obtain ⟨hpreserves, hholds, hstage⟩ := h s' hs
    exact ⟨hpreserves, hholds, hstage.of_pool rfl rfl rfl⟩
  | delegated i r =>
    obtain ⟨d, -, rfl⟩ := move?_delegated.mp hm
    obtain ⟨hpreserves, hholds, hstage⟩ := h s' hs
    exact ⟨hpreserves, hholds, hstage.of_pool rfl rfl rfl⟩
  | lost i =>
    obtain ⟨d, -, rfl⟩ := move?_lost.mp hm
    obtain ⟨hpreserves, hholds, hstage⟩ := h s' hs
    exact ⟨hpreserves, hholds, hstage.of_pool rfl rfl rfl⟩
  | answered a m =>
    obtain ⟨r, c, ns, hreply, rfl⟩ := reply_of_move? hm
    obtain ⟨s₁, hserves, ha⟩ := Store.serves_concat.mp hs
    exact (h s₁ hserves).answered ht hreply ha

/-- Wherever moves lead, a store that has answered has the chronicle. -/
theorem chronicled_of_reaches {kind : Move → Prop}
    (h : ∀ s', s.Serves run j.calls s' → Chronicled s run j s') (ht : j.OnTrack)
    (hr : j.Reaches kind j') (hs : s.Serves run j'.calls s') : Chronicled s run j' s' := by
  have hall := ht.keeps (P := fun a => ∀ s', s.Serves run a.calls s' → Chronicled s run a s') hr
    (fun ht _ hm h _ hs => .move h ht hm hs) h
  exact hall s' hs

end Journey

/-! ### The whole run -/

/-- **What a store tells of a whole run**: its rounds in order, from the mission to the
state it ended with. -/
structure Chronicle (run : RunId) (mission : String) (final : RunState)
    (told : List RoundRecord) : Prop where
  rounds : told.map (·.round) = List.range (final.round + 1)
  run : ∀ r ∈ told, r.runId = run ∧ r.state.runId = run ∧ r.state.mission = mission ∧
    r.state.round = r.round
  startedAt : ∀ r ∈ told, ∀ r' ∈ told, r.state.startedAt = r'.state.startedAt
  opening : ∀ r ∈ told, r.round = 0 → r.state.status = .running ∧ r.state.tasks = [] ∧
    r.state.results = [] ∧ r.state.memory = []
  interim : ∀ r ∈ told, 0 < r.round → r.round < final.round →
    r.state.status = .continuing ∧ r.state.completedAt = none
  closing : ∀ r ∈ told, r.round = final.round →
    r.state.isTerminal = true ∧ Store.Alike final r.state
  memories : told.Pairwise fun r r' => r.state.memory <+: r'.state.memory

/-- Lists that match in what is read off them. -/
theorem map_eq_of_forall₂ {α β γ : Type} {R : α → β → Prop} {f : α → γ} {g : β → γ}
    (hfg : ∀ x y, R x y → f x = g y) {xs : List α} {ys : List β} (h : List.Forall₂ R xs ys) :
    xs.map f = ys.map g := by
  induction h with
  | nil => rfl
  | cons hxy _ ih => rw [List.map_cons, List.map_cons, hfg _ _ hxy, ih]

namespace Annals

variable {s : Store} {run : RunId} {mission : String} {log : List (Nat × RunState)}
  {final : RunState} {told : List RoundRecord}

/-- What is told is a round of the annals, or the last one. -/
theorem tells (h : Annals log final)
    (htold : List.Forall₂ (s.Tells run) (log ++ [(final.round, final)]) told) {r : RoundRecord}
    (hr : r ∈ told) : (∃ x ∈ log, x.1 < final.round ∧ s.Tells run x r) ∨
      s.Tells run (final.round, final) r := by
  obtain ⟨x, hx, htell⟩ := Store.exists_of_forall₂ htold hr
  rcases List.mem_append.mp hx with hx | hx
  · exact .inl ⟨x, hx, h.lt_round hx, htell⟩
  · obtain rfl := List.mem_singleton.mp hx
    exact .inr htell

/-- **A store that holds the annals of a run and its last state tells the whole run.** -/
theorem toChronicle (h : Annals log final) (hrun : final.runId = run)
    (hmission : final.mission = mission) (hpos : 0 < final.round)
    (hterminal : final.isTerminal = true)
    (htold : List.Forall₂ (s.Tells run) (log ++ [(final.round, final)]) told)
    (hstarted : ∀ r ∈ told, ∀ r' ∈ told, r.state.startedAt = r'.state.startedAt) :
    Chronicle run mission final told := by
  refine ⟨?_, fun r hr => ?_, hstarted, fun r hr hzero => ?_, fun r hr hlow hhigh => ?_,
    fun r hr hlast => ?_, ?_⟩
  · rw [← h.rounds_concat]
    exact (map_eq_of_forall₂ (fun x r htell => htell.round.symm) htold).symm
  · obtain ⟨x, hx, htell⟩ := Store.exists_of_forall₂ htold hr
    obtain ⟨hround, hrunId, hmissionOf, -⟩ := h.states_concat x hx
    refine ⟨htell.runId, ?_⟩
    rw [htell.alike.same, htell.round]
    exact ⟨hrunId.trans hrun, hmissionOf.trans hmission, hround⟩
  · rcases h.tells htold hr with ⟨x, hx, -, htell⟩ | htell
    · obtain ⟨hstatus, htasks, hresults, hmemory⟩ := h.opening x hx (htell.round ▸ hzero)
      have htasks' := htell.alike.tasks
      have hresults' := htell.alike.results
      rw [htasks] at htasks'
      rw [hresults] at hresults'
      rw [htell.alike.same]
      exact ⟨hstatus, List.length_eq_zero_iff.mp htasks', List.length_eq_zero_iff.mp hresults',
        hmemory⟩
    · have hround : r.round = final.round := htell.round
      omega
  · rcases h.tells htold hr with ⟨x, hx, -, htell⟩ | htell
    · obtain ⟨hstatus, hnone⟩ := h.interim x hx (htell.round ▸ hlow)
      have hnone' := htell.alike.completedAt
      rw [hnone, Option.isSome_none] at hnone'
      refine ⟨?_, by simpa using hnone'⟩
      rw [htell.alike.same]
      exact hstatus
    · have hround : r.round = final.round := htell.round
      omega
  · rcases h.tells htold hr with ⟨x, -, hlt, htell⟩ | htell
    · have hround : r.round = x.1 := htell.round
      omega
    · refine ⟨?_, htell.alike⟩
      rw [htell.alike.same]
      exact hterminal
  · have hmap := map_eq_of_forall₂ (f := fun x => x.2.memory) (g := fun r => r.state.memory)
      (fun x r htell => (congrArg RunState.memory htell.alike.same).symm) htold
    have hpairs : ((log ++ [(final.round, final)]).map fun x => x.2.memory).Pairwise (· <+: ·) :=
      List.pairwise_map.mpr h.memories_concat
    rw [hmap] at hpairs
    exact List.pairwise_map.mp hpairs

end Annals

namespace Journey

variable {run : RunId} {mission : String} {workers limit : Nat} {delegation : Delegation}
  {now : Instant} {q : Queue Task} {s : Store} {j : Journey}

/-- A run at its outset has nothing recorded, in a store that has nothing of it. -/
theorem chronicled_of_embark {j₀ : Journey} (hs : s.IsOpen) (hnew : s.history run = .ok [])
    (h : embark run mission workers limit delegation now q = .ok j₀) {s' : Store}
    (hserves : s.Serves run j₀.calls s') : Chronicled s run j₀ s' ∧ j₀.course.run = run ∧
      j₀.course.state.mission = mission := by
  obtain ⟨-, -, ns, rfl⟩ := embark_eq_ok h
  obtain rfl := Store.serves_nil.mp hserves
  exact ⟨⟨rfl, ⟨[], Store.keeps_nil hs hnew, rfl, List.forall_mem_nil _⟩, rfl, rfl, rfl, rfl, rfl,
    rfl, rfl⟩, rfl, rfl⟩

/-- **What is told of a run that is over.** -/
theorem Chronicled.tells {s' : Store} {told : List RoundRecord} (h : Chronicled s run j s')
    (hrun : j.course.state.runId = run) (hmission : j.course.state.mission = mission)
    (hover : j.course.isOver = true) (htold : s'.history run = .ok told) :
    0 < j.round ∧ Chronicle run mission j.course.state told ∧
      (∀ r ∈ told, r.round = j.round →
        (r.state = j.course.state ↔ s.Preserves j.course.state)) ∧
      (s'.load run = .ok (some j.course.state) ↔ s.Preserves j.course.state) := by
  obtain ⟨hpreserves, hholds, hstage⟩ := h
  unfold AnnalStage at hstage
  rw [Course.isOver_iff.mp hover] at hstage
  obtain ⟨log, hlog, hannals, hround, hterminal⟩ := hstage
  rw [hlog] at hholds
  have hne : log ++ [(j.course.state.round, j.course.state)] ≠ [] := List.concat_ne_nil _ _
  obtain ⟨htells, hstarted⟩ := hholds.history hne htold
  replace hstarted := hstarted fun x hx y hy => by
    rw [(hannals.states_concat x hx).2.2.2, (hannals.states_concat y hy).2.2.2]
  refine ⟨hround, hannals.toChronicle hrun hmission hround hterminal htells hstarted, ?_, ?_⟩
  · intro r hr hlast
    rcases hannals.tells htells hr with ⟨x, -, hlt, htell⟩ | htell
    · have hroundOf : r.round = x.1 := htell.round
      rw [round] at hlast
      omega
    · rw [← hpreserves]
      exact htell.exact_iff
  · obtain ⟨r, hr, htell⟩ := Store.getLast?_of_forall₂ htells List.getLast?_concat
    rw [Store.load_eq, htold, ← hpreserves, ← htell.exact_iff]
    simp [Except.map, hr]

/-- **The store holds the whole run.** On a store that is open, that has no record of the run
and that answers every call of it, and wherever moves lead, workers lost or not: when the
run is over, what the store tells of it are its rounds from zero to the one it ended in,
each once. The mission is the first of them, those between went on, and the last is the
state the run ended with, *alike*: a store in memory tells it as it is, and one in a
directory does so exactly if the state survives its text. -/
theorem chronicle (hq : q.Reachable) (hl : limit < 2 ^ 32) (hw : 0 < workers)
    (hpos : 0 < limit) (hs : s.IsOpen) (hnew : s.history run = .ok []) :
    ∃ j₀, embark run mission workers limit delegation now q = .ok j₀ ∧ j₀.Ends ∧
      ∀ j s' told, j₀.Reaches Move.IsAny j → j.course.isOver = true →
        s.Serves run j.calls s' → s'.history run = .ok told →
        0 < j.round ∧ Chronicle run mission j.course.state told ∧
        (∀ r ∈ told, r.round = j.round →
          (r.state = j.course.state ↔ s.Preserves j.course.state)) ∧
        (s'.load run = .ok (some j.course.state) ↔ s.Preserves j.course.state) := by
  obtain ⟨ns, hj₀⟩ := embark_of_pos run mission delegation now q hw hpos
  have hon := OnTrack.embark hq.sound hl hj₀
  refine ⟨_, hj₀, hon.ends, fun j s' told hj hover hserves htold => ?_⟩
  obtain ⟨-, hrun, hmission⟩ := chronicled_of_embark hs hnew hj₀ .nil
  have hchronicled := chronicled_of_reaches
    (fun _ hserves => (chronicled_of_embark hs hnew hj₀ hserves).1) hon hj hserves
  exact hchronicled.tells (hj.sameRun.runId.trans hrun) (hj.sameRun.mission.trans hmission) hover
    htold

/-! ### Runs with a store of their own -/

/-- **What a move makes of a journey and of the store that answers it**, if the store does answer:
what is recorded is recorded at `now`, and what is read back is what the store has. -/
def served? (run : RunId) (now : Instant) : Journey × Store → Move → Option (Journey × Store)
  | (j, s), .answered (.loaded _) m =>
    match s.load run with
    | .ok found => (j.move? (.answered (.loaded (.ok found)) m)).map (·, s)
    | .error _ => none
  | (j, s), m => (j.move? m).bind fun j' =>
    ((j'.calls.drop j.calls.length).foldlM (Store.answer? run now) s).map (j', ·)

/-- The move is one of the journey, and the store serves what it asks. -/
theorem serves_of_served? {x y : Journey × Store} {m : Move}
    (h : served? run now x m = some y) (hserves : s.Serves run x.1.calls x.2) :
    x.1.Step Move.IsAny y.1 ∧ s.Serves run y.1.calls y.2 := by
  unfold served? at h
  split at h
  · split at h
    · next found hl =>
      obtain ⟨j', hm, rfl⟩ := Option.map_eq_some_iff.mp h
      refine ⟨⟨_, trivial, hm⟩, ?_⟩
      obtain ⟨r, -, hfits, rfl⟩ := move?_answered.mp hm
      cases r with
      | load => exact .concat hserves (.loaded hl)
      | persist | plan | judge => exact hfits.elim
    · cases h
  · obtain ⟨j', hm, h⟩ := Option.bind_eq_some_iff.mp h
    obtain ⟨s', hs, rfl⟩ := Option.map_eq_some_iff.mp h
    refine ⟨⟨_, trivial, hm⟩, ?_⟩
    obtain ⟨new, hnew, -⟩ := calls_of_move? hm
    rw [hnew, List.drop_left] at hs
    change s.Serves run j'.calls s'
    rw [hnew]
    exact hserves.append (Store.serves_of_answer? hs)

/-- Such moves one after another lead somewhere, and the store serves all that was asked. -/
theorem reaches_of_served? {ms : List Move} {x : Journey × Store} (hcalls : j.calls = [])
    (h : ms.foldlM (served? run now) (j, s) = some x) :
    j.Reaches Move.IsAny x.1 ∧ s.Serves run x.1.calls x.2 := by
  induction ms using List.reverseRecOn generalizing x with
  | nil =>
    obtain rfl := Option.some.inj h
    refine ⟨.refl, ?_⟩
    change s.Serves run j.calls s
    rw [hcalls]
    exact .nil
  | append_singleton ms m ih =>
    rw [List.foldlM_append] at h
    obtain ⟨y, hy, h⟩ := Option.bind_eq_some_iff.mp h
    rw [List.foldlM_cons] at h
    obtain ⟨z, hz, h⟩ := Option.bind_eq_some_iff.mp h
    obtain rfl := Option.some.inj h
    obtain ⟨hreach, hserves⟩ := ih hy
    obtain ⟨hstep, hserves⟩ := serves_of_served? hz hserves
    exact ⟨hreach.tail hstep, hserves⟩

/-- A run at its outset has asked nothing. -/
theorem calls_of_embark {j₀ : Journey}
    (h : embark run mission workers limit delegation now q = .ok j₀) : j₀.calls = [] := by
  obtain ⟨-, -, ns, rfl⟩ := embark_eq_ok h
  rfl

theorem chronicle_crossed : ∃ j₀ j s' told,
    embark default "" 2 3 default default .empty = .ok j₀ ∧ j₀.Reaches Move.IsAny j ∧
    j.course.isOver = true ∧ (Store.memory .empty).Serves default j.calls s' ∧
    s'.history default = .ok told ∧ told.length = 3 ∧ Chronicle default "" j.course.state told ∧
    s'.load default = .ok (some j.course.state) := by
  obtain ⟨j₀, hj₀, -, hrun⟩ : ∃ j₀, embark default "" 2 3 default default .empty = .ok j₀ ∧
      j₀.Ends ∧ _ :=
    chronicle (s := .memory .empty) Relation.ReflTransGen.refl (by decide) Nat.two_pos
      (Nat.succ_pos 2) trivial rfl
  have hsome : ((embark default "" 2 3 default default .empty).toOption.bind fun j₀ =>
      crossedRun.foldlM (served? default default) (j₀, .memory .empty)).any (fun x =>
        x.1.course.isOver && (x.2.history default).toOption.any (·.length == 3)) = true := by
    decide +kernel
  rw [hj₀, Except.toOption, Option.bind_some] at hsome
  obtain ⟨⟨j, s'⟩, hx, hend⟩ := (Option.any_eq_true _ _).mp hsome
  obtain ⟨hover, hend⟩ := (Bool.and_eq_true _ _).mp hend
  obtain ⟨told, htold, hlength⟩ : ∃ told, s'.history default = .ok told ∧ told.length = 3 := by
    cases hh : s'.history default with
    | error e => simp [hh, Except.toOption] at hend
    | ok told => exact ⟨told, rfl, by simpa [hh, Except.toOption] using hend⟩
  obtain ⟨hreach, hserves⟩ := reaches_of_served? (calls_of_embark hj₀) hx
  obtain ⟨-, hchronicle, -, hload⟩ := hrun j s' told hreach hover hserves htold
  exact ⟨j₀, j, s', told, hj₀, hreach, hover, hserves, htold, hlength, hchronicle,
    hload.mpr trivial⟩

/-- A number whose text is read as the number next to it. -/
def tiny : Json.Number := .real ⟨false, 5444517870735016, -132⟩

theorem reread_tiny : tiny.reread ≠ some tiny := by
  decide +kernel

/-- The task has the tiny number for its payload. -/
def isTiny (t : Task) : Bool :=
  match t.payload with
  | .number n => n == tiny
  | _ => false

/-- A state with a tiny payload does not survive. -/
theorem not_survives_of_tiny {state : RunState} (h : state.tasks.any isTiny = true) :
    ¬state.Survives := by
  intro hsurvives
  obtain ⟨t, ht, htiny⟩ := List.any_eq_true.mp h
  unfold isTiny at htiny
  split at htiny
  · next n hpayload =>
    obtain rfl := beq_iff_eq.mp htiny
    have hecho := hsurvives.payloads t ht
    rw [hpayload, Json.echo] at hecho
    obtain ⟨m, hm, heq⟩ := Option.map_eq_some_iff.mp hecho
    obtain rfl := Json.number.inj heq
    exact reread_tiny hm
  · cases htiny

/-- How a run goes of one round and one worker, with one task that has the tiny number. -/
def tinyRun : List Move :=
  [stored,
    .answered (.planned (.ok [{ (default : Task) with payload := .number tiny }])) default] ++
    List.replicate 6 (.own default) ++ [.work 0 default, .delegated 0 default] ++
    List.replicate 6 (.work 0 default) ++
    [.own default, .answered (.judged (.ok default)) default, stored, .own default]

/-- **A directory does not give back every state**: this run has a payload that its last
record tells otherwise. -/
theorem chronicle_tiny : ∃ s files j₀ j s',
    Store.openDirectory "/" .empty = (.ok s, files) ∧ s.history default = .ok [] ∧
    embark default "" 1 1 default default .empty = .ok j₀ ∧ j₀.Reaches Move.IsAny j ∧
    j.course.isOver = true ∧ s.Serves default j.calls s' ∧
    ∀ told, s'.history default = .ok told →
      (∀ r ∈ told, r.round = j.round → r.state ≠ j.course.state) ∧
      s'.load default ≠ .ok (some j.course.state) := by
  have hopen : Store.openDirectory "/" .empty = (.ok (.directory ⟨"/"⟩ .empty), .empty) := by
    rfl
  have hnew : (Store.directory ⟨"/"⟩ .empty).history default = .ok [] := by
    rfl
  obtain ⟨ns, hj₀⟩ := embark_of_pos default "" default default .empty Nat.one_pos Nat.one_pos
  have hsome : ((embark default "" 1 1 default default .empty).toOption.bind
      (·.moves? tinyRun)).any (fun j =>
        j.course.isOver && j.course.state.tasks.any isTiny &&
        (j.calls.foldlM (Store.answer? default default) (.directory ⟨"/"⟩ .empty)).isSome) =
      true := by
    decide +kernel
  have hon := OnTrack.embark (Queue.Reachable.sound .refl) (by decide) hj₀
  have hsopen := Store.isOpen_of_openDirectory FileTree.isSound_empty hopen
  obtain ⟨-, hrun, hmission⟩ := chronicled_of_embark hsopen hnew hj₀ .nil
  rw [hj₀, Except.toOption, Option.bind_some] at hsome
  obtain ⟨j, hj, hend⟩ := (Option.any_eq_true _ _).mp hsome
  obtain ⟨hend, hs'⟩ := (Bool.and_eq_true _ _).mp hend
  obtain ⟨hover, htiny⟩ := (Bool.and_eq_true _ _).mp hend
  obtain ⟨s', hs'⟩ := Option.isSome_iff_exists.mp hs'
  have hreach := Reaches.of_moves? (fun _ _ => trivial) hj
  have hserves := Store.serves_of_answer? hs'
  refine ⟨_, _, _, j, s', hopen, hnew, hj₀, hreach, hover, hserves, fun told htold => ?_⟩
  have hchronicled := chronicled_of_reaches
    (fun _ hserves => (chronicled_of_embark hsopen hnew hj₀ hserves).1) hon hreach hserves
  obtain ⟨-, -, hlast, hload⟩ := hchronicled.tells (hreach.sameRun.runId.trans hrun)
    (hreach.sameRun.mission.trans hmission) hover htold
  have hnot : ¬Store.Preserves (.directory ⟨"/"⟩ .empty) j.course.state :=
    not_survives_of_tiny htiny
  exact ⟨fun r hr hround heq => hnot ((hlast r hr hround).mp heq), fun heq => hnot (hload.mp heq)⟩

end Journey

end Roundtable

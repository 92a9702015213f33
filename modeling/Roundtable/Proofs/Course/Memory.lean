import Roundtable.Proofs.Course.Chronicle

/-!
# The memory of a run

What a planner is told of the rounds before its own is what the judge said of them, with
the numbers of the results it was given (`Roundtable.Journey.memory_faithful`). The memory
takes a way round: it is recorded with each round, and read back from the store before the
next one is planned.

Two accounts are kept along a run. The memory of its state is read off the calls
(`Roundtable.Journey.summaries`), and the collection of its pool off the deeds of the round
that is under way. **No worker is left when the judge is asked**, so what it is given is all
that was collected in its round, and nothing of a round before.
-/

namespace Roundtable

/-- What a call leaves in the memory of the run: what the judge said of the results it was
given. -/
def Call.summary? : Call → Option RoundSummary
  | ⟨.judge r, .judged (.ok v)⟩ =>
    some ⟨r.round, v.summary, (r.results.filter (·.success)).length,
      (r.results.filter (!·.success)).length⟩
  | ⟨.judge _, _⟩ | ⟨.persist .., _⟩ | ⟨.load, _⟩ | ⟨.plan _, _⟩ => none

/-- **What is remembered of a round** are the results that succeeded and those that did not. -/
theorem RunState.memory_recordSummary (s : RunState) (summary : String) :
    (s.recordSummary summary).memory = s.memory ++ [⟨s.round, summary,
      (s.results.filter (·.success)).length, (s.results.filter (!·.success)).length⟩] := by
  have hsum := s.results.length_eq_length_filter_add (·.success)
  have hfailed : s.results.length - (s.results.filter (·.success)).length =
      (s.results.filter (!·.success)).length := by
    omega
  rw [recordSummary, hfailed]

namespace Journey

variable {j j' : Journey}

/-- What the calls have left in the memory. -/
def summaries (j : Journey) : List RoundSummary := j.calls.filterMap Call.summary?

/-- So many rounds are remembered, each once and in order. -/
def Remembers (j : Journey) (n : Nat) : Prop :=
  j.summaries.map (·.round) = List.range' 1 n

/-- What is remembered at each stage of a run, and what the judge is given. -/
def MemoryStage (j : Journey) : Prop :=
  match j.course.stage with
  | .recording => j.Remembers 0
  | .recalling | .dispatching _ | .dismissing _ | .hiring _ | .draining =>
    j.Remembers (j.round - 1)
  | .planning r => j.Remembers (j.round - 1) ∧ r.round = j.round
  | .judging r => j.Remembers (j.round - 1) ∧ r.round = j.round ∧
    r.results = j.course.state.results ∧ r.results = j.course.pool.results
  | .storing _ => j.Remembers j.round
  | .failing | .leaving | .over => True

/-- **The memory of the state is what the calls have left**, and the collection of the pool
what the workers of the round have collected. -/
structure Mindful (j : Journey) : Prop where
  memory : j.course.state.memory = j.summaries
  deeds : ∀ x ∈ j.deeds, x.1 ≤ j.round
  collected : j.course.pool.results = (j.deedsOf j.round).filterMap Deed.result?
  stage : j.MemoryStage

/-- A stride keeps the accounts. -/
theorem Mindful.own {m : Moment} (h : j.Mindful) (hm : j.move? (.own m) = some j') :
    j'.Mindful := by
  have hstage := h.stage
  unfold MemoryStage at hstage
  obtain ⟨c', q', ns, hstride, rfl⟩ := move?_own.mp hm
  cases hstride with
  | publish hs | published hs | dismiss hs | dismissed hs | hire hs | hired hs =>
    rw [hs] at hstage
    exact ⟨h.memory, h.deeds, h.collected, hstage⟩
  | drained hs hd =>
    rw [hs] at hstage
    exact ⟨h.memory, h.deeds, h.collected, hstage, rfl, rfl, rfl⟩
  | leave hs => exact ⟨h.memory, h.deeds, h.collected, trivial⟩

/-- What a worker does keeps the accounts, if the pool collects what it brings. -/
theorem Mindful.did {p : Pool} {q : Queue Task} {ns : List Notice} {d : Option Deed}
    (h : j.Mindful)
    (hworking : (∃ left, j.course.stage = .hiring left) ∨ j.course.stage = .draining)
    (hresults : p.results = j.course.pool.results ++ d.toList.filterMap Deed.result?) :
    ((j.did d).advance { j.course with pool := p } q ns).Mindful := by
  refine ⟨h.memory, le_round_did h.deeds d, ?_, ?_⟩
  · change p.results = ((j.did d).deedsOf j.round).filterMap Deed.result?
    rw [deedsOf_did, if_pos rfl, List.filterMap_append, ← h.collected, hresults]
  · have hstage := h.stage
    unfold MemoryStage at hstage ⊢
    rcases hworking with ⟨left, hs⟩ | hs
    · rw [hs] at hstage
      rw [show ((j.did d).advance { j.course with pool := p } q ns).course.stage = _ from hs]
      exact hstage
    · rw [hs] at hstage
      rw [show ((j.did d).advance { j.course with pool := p } q ns).course.stage = _ from hs]
      exact hstage

/-- A turn keeps the accounts. -/
theorem Mindful.work {i : Nat} {now : Instant} (h : j.Mindful) (ht : j.OnTrack)
    (hm : j.move? (.work i now) = some j') : j'.Mindful := by
  obtain ⟨p, q', ns, hstep, rfl⟩ := move?_work.mp hm
  have hturn := Pool.turn_of_step? hstep
  obtain ⟨w, -, hw, hg, -⟩ := hturn.worker
  exact h.did (ht.manned.working hw hg) hturn.results

/-- A delegation that comes back keeps the accounts. -/
theorem Mindful.delegated {i : Nat} {r : SubAgentResult} (h : j.Mindful) (ht : j.OnTrack)
    (hm : j.move? (.delegated i r) = some j') : j'.Mindful := by
  obtain ⟨d, hd, rfl⟩ := move?_delegated.mp hm
  obtain ⟨w, t, hw, hs⟩ := Pool.delegating?_eq_some hd
  refine h.did (ht.manned.working hw (by rw [hs]; rfl)) ?_
  rw [Pool.delegated_eq hw hs]
  exact (List.append_nil _).symm

/-- A worker that is lost keeps the accounts: what it had is not collected. -/
theorem Mindful.lost {i : Nat} (h : j.Mindful) (ht : j.OnTrack)
    (hm : j.move? (.lost i) = some j') : j'.Mindful := by
  obtain ⟨d, hd, rfl⟩ := move?_lost.mp hm
  obtain ⟨w, t, hw, hs⟩ := Pool.delegating?_eq_some hd
  rw [← did_none j]
  refine h.did (ht.manned.working hw (by rw [hs]; rfl)) ?_
  rw [did_none, Pool.lose_eq hw]
  exact (List.append_nil _).symm

theorem summaries_heard {c : Course} {ns : List Notice} {call : Call} :
    (j.heard c ns call).summaries = j.summaries ++ call.summary?.toList :=
  filterMap_heard Call.summary? j c ns call

/-- A call that leaves nothing in the memory keeps the accounts. -/
theorem Mindful.heard {c : Course} {ns : List Notice} {call : Call} (h : j.Mindful)
    (hcall : call.summary? = none) (hmemory : c.state.memory = j.course.state.memory)
    (hround : c.state.round = j.round) (hpool : c.pool = j.course.pool)
    (hstage : (j.heard c ns call).summaries = j.summaries → (j.heard c ns call).MemoryStage) :
    (j.heard c ns call).Mindful := by
  have hsummaries : (j.heard c ns call).summaries = j.summaries := by
    rw [summaries_heard, hcall, Option.toList_none, List.append_nil]
  refine ⟨hmemory.trans (h.memory.trans hsummaries.symm), fun x hx => ?_, ?_, hstage hsummaries⟩
  · exact (h.deeds x hx).trans_eq hround.symm
  · change c.pool.results = (j.deedsOf c.state.round).filterMap Deed.result?
    rw [hpool, hround, h.collected]

/-- **A new round** is remembered no less than those before it. -/
theorem Mindful.beginRound {m : Moment} {ns : List Notice} {call : Call} (h : j.Mindful)
    (hcall : call.summary? = none) (hlt : j.round + 1 < 2 ^ 32) (hj : j.Remembers j.round) :
    (j.heard (j.course.beginRound m).1 ns call).Mindful := by
  have hround : j.course.state.beginRound.round = j.round + 1 := Nat.mod_eq_of_lt hlt
  set j' := j.heard (j.course.beginRound m).1 ns call with hj'
  have hstate : j'.course.state = j.course.state.beginRound := Course.state_beginRound
  have hr : j'.round = j.round + 1 := (congrArg RunState.round hstate).trans hround
  have hsummaries : j'.summaries = j.summaries := by
    rw [hj', summaries_heard, hcall, Option.toList_none, List.append_nil]
  have hremembers : j'.Remembers (j'.round - 1) := by
    rw [Remembers, hsummaries, hr]
    exact hj
  -- All deeds so far are of rounds before the new one, so it has none.
  have hdeeds : ∀ x ∈ j'.deeds, x.1 < j'.round := by
    intro x hx
    have := h.deeds x hx
    omega
  refine ⟨?_, fun x hx => Nat.le_of_lt (hdeeds x hx), ?_, ?_⟩
  · rw [hsummaries, ← h.memory]
    exact (congrArg RunState.memory hstate).trans rfl
  · rw [deedsOf_eq_nil hdeeds]
    exact congrArg Pool.results Course.pool_beginRound
  · unfold MemoryStage
    rcases j.course.stage_beginRound m with ⟨-, hs⟩ | ⟨-, hs⟩
    · rw [show j'.course.stage = _ from hs]
      exact ⟨hremembers, (congrArg RunState.round hstate).symm⟩
    · rw [show j'.course.stage = _ from hs]
      exact hremembers

/-- **What the judge has said** is remembered as one round more. -/
theorem Mindful.judged {r : JudgeRequest} {v : Verdict} {c : Course} {ns : List Notice}
    {d : RoundDecision} (h : j.Mindful) (hs : j.course.stage = .judging r) (hpos : 0 < j.round)
    (hmemory : c.state.memory = (j.course.state.recordSummary v.summary).memory)
    (hround : c.state.round = j.round) (hpool : c.pool = j.course.pool)
    (hstoring : c.stage = .storing d) :
    (j.heard c ns ⟨.judge r, .judged (.ok v)⟩).Mindful := by
  have hstage := h.stage
  unfold MemoryStage at hstage
  rw [hs] at hstage
  obtain ⟨hremembers, hof, hresults, -⟩ := hstage
  have hsummaries : (j.heard c ns ⟨.judge r, .judged (.ok v)⟩).summaries = j.summaries ++
      [⟨j.round, v.summary, (j.course.state.results.filter (·.success)).length,
        (j.course.state.results.filter (!·.success)).length⟩] := by
    rw [summaries_heard, Call.summary?, hof, hresults, Option.toList_some]
  -- The call and the state count the same results: those the judge was given.
  refine ⟨?_, fun x hx => (h.deeds x hx).trans_eq hround.symm, ?_, ?_⟩
  · rw [hsummaries, ← h.memory]
    exact hmemory.trans (RunState.memory_recordSummary _ _)
  · change c.pool.results = (j.deedsOf c.state.round).filterMap Deed.result?
    rw [hpool, hround, h.collected]
  · unfold MemoryStage
    rw [show (j.heard c ns ⟨.judge r, .judged (.ok v)⟩).course.stage = _ from hstoring]
    change List.map _ _ = List.range' 1 c.state.round
    obtain ⟨n, hn⟩ := Nat.exists_eq_add_one.mpr hpos
    rw [hsummaries, List.map_append, hremembers, hround, hn, List.range'_concat, Nat.add_sub_cancel,
      Nat.one_mul, Nat.add_comm 1 n]
    rfl

/-- **A reply** keeps the accounts. -/
theorem Mindful.answered {a : CourseAnswer} {m : Moment} (h : j.Mindful) (ht : j.OnTrack)
    (hm : j.move? (.answered a m) = some j') : j'.Mindful := by
  have hstage := h.stage
  unfold MemoryStage at hstage
  obtain ⟨hpos, hlimit, hle, hpaced⟩ := ht.paced
  obtain ⟨r, c, ns, hreply, rfl⟩ := reply_of_move? hm
  cases hreply with
  | recorded hs =>
    rw [hs] at hstage hpaced
    have hzero : j.round = 0 := hpaced
    exact h.beginRound rfl (by omega) (hzero ▸ hstage)
  | recalled hs =>
    rw [hs] at hstage
    refine h.heard rfl rfl rfl rfl fun hsame => ?_
    unfold MemoryStage Remembers
    rw [hsame]
    exact ⟨hstage, rfl⟩
  | planned hs =>
    rw [hs] at hstage
    refine h.heard rfl rfl rfl rfl fun hsame => ?_
    unfold MemoryStage Remembers
    rw [hsame]
    exact hstage.1
  | proceeds hs hd | stops hs hd =>
    rw [hs] at hpaced
    exact h.judged hs hpaced rfl rfl rfl rfl
  | continued hs =>
    rw [hs] at hstage hpaced
    have hlt : j.round < j.course.limit := hpaced.2
    exact h.beginRound rfl (by omega) hstage
  | completed hs | failed hs => exact h.heard rfl rfl rfl rfl fun _ => trivial
  | refused hr =>
    cases hr with
    | mission | nothing | memory | plan | judge | round =>
      exact h.heard rfl rfl rfl rfl fun _ => trivial

/-- **Every move** keeps the accounts. -/
theorem Mindful.move {m : Move} (h : j.Mindful) (ht : j.OnTrack) (hm : j.move? m = some j') :
    j'.Mindful := by
  cases m with
  | own m => exact h.own hm
  | work i now => exact h.work ht hm
  | delegated i r => exact h.delegated ht hm
  | lost i => exact h.lost ht hm
  | answered a m => exact h.answered ht hm

/-- Wherever moves lead, the accounts are kept. -/
theorem Mindful.reaches {kind : Move → Prop} (h : j.Mindful) (ht : j.OnTrack)
    (hr : j.Reaches kind j') : j'.Mindful :=
  ht.keeps hr (fun ht _ hm h => h.move ht hm) h

variable {run : RunId} {mission : String} {workers limit : Nat} {delegation : Delegation}
  {now : Instant} {q : Queue Task} {s s' : Store} {j₀ : Journey}

/-- A run at its outset has nothing to remember. -/
theorem mindful_of_embark
    (h : embark run mission workers limit delegation now q = .ok j₀) : j₀.Mindful := by
  obtain ⟨-, -, ns, rfl⟩ := embark_eq_ok h
  exact ⟨rfl, List.forall_mem_nil _, rfl, rfl⟩

/-- **The memory of a run is faithful.** On a store that is open, that has no record of the
run and that answers every call of it, and wherever moves lead, workers lost or not:

- whenever the planner is asked, the memory it is given is the one of the run, and holds for
  each round before its own what the judge said of it, with the numbers of the results that
  succeeded and failed among those the judge was given;
- whenever the judge is asked, no worker is left, and the results it is given are those that
  were collected in its round. -/
theorem memory_faithful (hq : q.Reachable) (hl : limit < 2 ^ 32) (hs : s.IsOpen)
    (hnew : s.history run = .ok [])
    (hj₀ : embark run mission workers limit delegation now q = .ok j₀)
    (hj : j₀.Reaches Move.IsAny j) (hserves : s.Serves run j.calls s') :
    (∀ r, j.course.request? = some (.plan r) →
      r.round = j.round ∧ r.memory = j.course.state.memory ∧ r.memory = j.summaries ∧
      r.memory.map (·.round) = List.range' 1 (r.round - 1)) ∧
    (∀ r, j.course.request? = some (.judge r) →
      r.round = j.round ∧ j.course.pool.isDrained = true ∧
      r.results = (j.deedsOf r.round).filterMap Deed.result?) := by
  have hon := OnTrack.embark hq.sound hl hj₀
  have hmindful := (mindful_of_embark hj₀).reaches hon hj
  have hchronicled := chronicled_of_reaches
    (fun _ hserves => (chronicled_of_embark hs hnew hj₀ hserves).1) hon hj hserves
  have hstage := hmindful.stage
  have hannals := hchronicled.stage
  unfold MemoryStage at hstage
  unfold AnnalStage at hannals
  constructor
  · intro r hr
    rw [Course.request?_eq_plan.mp hr] at hstage hannals
    obtain ⟨hremembers, hround⟩ := hstage
    have hmemory := hannals.2.2.trans hmindful.memory
    refine ⟨hround, hannals.2.2, hmemory, ?_⟩
    rw [hmemory, hround]
    exact hremembers
  · intro r hr
    rw [Course.request?_eq_judge.mp hr] at hstage
    obtain ⟨-, hround, -, hresults⟩ := hstage
    refine ⟨hround, (hon.reaches hj).manned.isDrained hr, ?_⟩
    rw [hresults, hround]
    exact hmindful.collected

/-- What the planner is asked, if the question is one to the planner. -/
def planned? : CourseRequest → Option PlanRequest
  | .plan r => some r
  | .persist .. | .load | .judge _ => none

theorem planned?_eq_some {request : CourseRequest} {r : PlanRequest}
    (h : planned? request = some r) : request = .plan r := by
  cases request with
  | plan r' => exact congrArg CourseRequest.plan (Option.some.inj h)
  | persist | load | judge => cases h

theorem memory_faithful_crossed : ∃ j₀ j s' r,
    embark default "" 2 3 default default .empty = .ok j₀ ∧ j₀.Reaches Move.IsAny j ∧
    (Store.memory .empty).Serves default j.calls s' ∧ j.course.request? = some (.plan r) ∧
    r.round = 2 ∧ r.memory = j.summaries ∧ r.memory = [⟨1, "once more", 1, 1⟩] := by
  obtain ⟨ns, hj₀⟩ := embark_of_pos default "" default default .empty Nat.two_pos (Nat.succ_pos 2)
  have hsome : ((embark default "" 2 3 default default .empty).toOption.bind fun j₀ =>
      crossedRecall.foldlM (served? default default) (j₀, .memory .empty)).any (fun x =>
        (x.1.course.request?.bind planned?).any fun r =>
          r.round == 2 && r.memory == [⟨1, "once more", 1, 1⟩]) = true := by
    decide +kernel
  rw [hj₀, Except.toOption, Option.bind_some] at hsome
  obtain ⟨⟨j, s'⟩, hx, hend⟩ := (Option.any_eq_true _ _).mp hsome
  obtain ⟨r, hr, hend⟩ := (Option.any_eq_true _ _).mp hend
  obtain ⟨hround, hmemory⟩ := (Bool.and_eq_true _ _).mp hend
  obtain ⟨hreach, hserves⟩ := reaches_of_served? (calls_of_embark hj₀) hx
  obtain ⟨request, hrequest, hr⟩ := Option.bind_eq_some_iff.mp hr
  obtain rfl := planned?_eq_some hr
  obtain ⟨hplan, -⟩ := memory_faithful (s := .memory .empty) Relation.ReflTransGen.refl (by decide)
    trivial rfl hj₀ hreach hserves
  obtain ⟨-, -, hsummaries, -⟩ := hplan r hrequest
  exact ⟨_, j, s', r, hj₀, hreach, hserves, hrequest, beq_iff_eq.mp hround, hsummaries,
    beq_iff_eq.mp hmemory⟩

end Journey

end Roundtable

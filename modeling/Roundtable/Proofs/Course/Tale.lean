import Roundtable.Proofs.Course.Venture

/-!
# The tale of a run

What a run tells has a form (`Roundtable.Tale`): each round begins, its tasks are on their
way, each of them is completed, and the round is consolidated. It tells first that the run
has started and last how it ended, and **the call that fails cuts it short at the place that
call belongs to**: a memory that is not read back or a plan that does not come leaves a round
begun, a judge that fails leaves it with its tasks, and a state that is not recorded leaves
all rounds told.

The events come from the course and from the workers of its pool, which tell in any order.
The one account that joins them is that the tasks of which was told are those whose results
were collected or are about to be (`Roundtable.Pool.announced`): every turn of a worker keeps
it, and when no worker is left, what was collected is one result for each task.
-/

namespace Roundtable

/-- The plan that a call brings, and the round it is for. -/
def Call.plan? : Call → Option (Nat × List Task)
  | ⟨.plan r, .planned (.ok tasks)⟩ => some (r.round, tasks)
  | _ => none

/-- The task that an event of a round tells to be completed. -/
def Event.completes? (run : RunId) (round : Nat) : Event → Option TaskId
  | taskCompleted r n task .. => if r = run ∧ n = round then some task else none
  | _ => none

/-! ### Tales -/

/-- How far a tale has got. -/
inductive Tale.Mark
  /-- All rounds so far are told through. -/
  | told
  /-- A round has begun. -/
  | begun
  /-- Its tasks were on their way and are completed. -/
  | dispatched
deriving DecidableEq, Repr

/-- **The tale of so many rounds**, with their plans and verdicts. -/
inductive Tale (run : RunId) (workers : Nat) :
    Tale.Mark → Nat → List (Nat × List Task) → List (Nat × Verdict) → List Event → Prop
  | outset : Tale run workers .told 0 [] [] []
  | begin {n : Nat} {plans : List (Nat × List Task)} {verdicts : List (Nat × Verdict)}
      {es : List Event} (h : Tale run workers .told n plans verdicts es) (now : Instant) :
      Tale run workers .begun (n + 1) plans verdicts (es ++ [.roundStarted run (n + 1) now])
  /-- The completed tasks are those of the plan, in any order. -/
  | dispatch {n : Nat} {plans : List (Nat × List Task)} {verdicts : List (Nat × Verdict)}
      {es : List Event} (h : Tale run workers .begun n plans verdicts es) (tasks : List Task)
      (now : Instant) {completions : List Event}
      (hcs : (completions.map (Event.completes? run n)).Perm (tasks.map fun a => some a.id)) :
      Tale run workers .dispatched n (plans ++ [(n, tasks)]) verdicts
        (es ++ .tasksDispatched run n run.topic tasks.length workers now :: completions)
  | judge {n : Nat} {plans : List (Nat × List Task)} {verdicts : List (Nat × Verdict)}
      {es : List Event} (h : Tale run workers .dispatched n plans verdicts es) (v : Verdict)
      (now : Instant) :
      Tale run workers .told n plans (verdicts ++ [(n, v)])
        (es ++ [.roundConsolidated run n v.summary v.continueRun now])

/-- How far the tale has got when a question is asked. -/
def Errand.mark : Errand → Tale.Mark
  | .record _ => .told
  | .recall | .plan _ => .begun
  | .judge _ => .dispatched

/-! ### The tasks of which was told -/

/-- The result a worker has told of and not put down. -/
def PoolStage.announced? : PoolStage → Option TaskResult
  | collecting _ r => some r
  | seeking | delegating .. | announcing .. | acknowledging _ | left | lost => none

namespace Pool

variable {p p' : Pool} {i : Nat} {q q' : Queue Task} {now : Instant} {ns : List Notice}
  {deed : Option Deed} {w : PoolWorker}

/-- **The results of which was told**: those collected, and those about to be. -/
def announced (p : Pool) : List TaskResult :=
  p.results ++ p.workers.filterMap (·.stage.announced?)

/-- Replacing a worker changes what was told of by what the worker has in hand. -/
theorem announced_setWorker (hw : p.workers[i]? = some w) (w' : PoolWorker) :
    ((p.setWorker i w').announced ++ w.stage.announced?.toList).Perm
      (p.announced ++ w'.stage.announced?.toList) := by
  have hset := perm_filterMap_set (f := fun x : PoolWorker => x.stage.announced?) (b := w') hw
  simp only [announced, setWorker, List.append_assoc]
  exact hset.append_left p.results

/-- A worker that had told of nothing and has nothing to tell of changes nothing. -/
theorem announced_goOn (hw : p.workers[i]? = some w) (hs : w.stage.announced? = none)
    {w' : PoolWorker} (hs' : w'.stage.announced? = none) :
    (p.setWorker i w').announced.Perm p.announced := by
  have hset := announced_setWorker hw w'
  rwa [hs, hs', Option.toList_none, List.append_nil, List.append_nil] at hset

/-- A worker that is hired has told of nothing. -/
theorem announced_hire (s : Subscription) : (p.hire s).announced = p.announced := by
  simp [announced, hire, PoolStage.announced?]

/-- **Once no worker is left** what was told of is what was collected. -/
theorem announced_of_isDrained (h : p.isDrained = true) : p.announced = p.results := by
  have hnone : p.workers.filterMap (·.stage.announced?) = [] := by
    refine List.filterMap_eq_nil_iff.mpr fun w hw => ?_
    have hgone := List.all_eq_true.mp h w hw
    cases hs : w.stage <;> simp [hs, PoolStage.isGone] at hgone <;> rfl
  rw [announced, hnone, List.append_nil]

/-- **A turn tells of the tasks that are added** to those of which was told, and of no other. -/
theorem Turn.announced (h : p.Turn i q now p' q' ns deed) :
    (p'.announced.map fun r => some r.task).Perm ((p.announced.map fun r => some r.task) ++
      (ns.filterMap Notice.event?).map (Event.completes? p.run p.round)) := by
  cases h with
  | task hw hs | sentinel hw hs | leave hw hs | ack hw hs | refused hw hs =>
    rw [List.filterMap_nil, List.map_nil, List.append_nil]
    exact (announced_goOn hw (by rw [hs]; rfl) rfl).map _
  | @announce w d r hw hs =>
    have hset := announced_setWorker hw { w with stage := .collecting d r }
    rw [hs] at hset
    have hone : ([.event (p.completion r now)].filterMap Notice.event?).map
        (Event.completes? p.run p.round) = [some r.task] := by
      simp [Notice.event?, completion, Event.completes?]
    have htold := hset.map fun r => some r.task
    rw [List.map_append, List.map_append] at htold
    rw [hone]
    exact (List.Perm.of_eq (List.append_nil _).symm).trans htold
  | @collect w d r hw hs =>
    have hset := perm_filterMap_set (f := fun x : PoolWorker => x.stage.announced?)
      (b := { w with stage := .acknowledging d }) hw
    rw [hs] at hset
    rw [List.filterMap_nil, List.map_nil, List.append_nil]
    refine List.Perm.map _ ?_
    -- The result leaves the hand of its worker and is put behind the others.
    change (p.results ++ [r] ++ _).Perm (p.results ++ _)
    rw [List.append_assoc]
    refine (List.perm_append_comm.trans ?_).append_left p.results
    exact hset.trans (List.Perm.of_eq (List.append_nil _))

end Pool

/-! ### What was told at each stage -/

namespace Journey

variable {j j' : Journey} {es : List Event} {mark : Tale.Mark}

/-- The plans so far. -/
def plans (j : Journey) : List (Nat × List Task) := j.calls.filterMap Call.plan?

/-- The event that tells that the run has started. -/
def opening (j : Journey) : Event :=
  .runStarted j.course.run j.course.state.mission j.course.workers j.course.limit
    j.course.state.startedAt

/-- **The tale of the run has got so far**, by these events. -/
def Narrates (j : Journey) (mark : Tale.Mark) (es : List Event) : Prop :=
  Tale j.course.run j.course.workers mark j.round j.plans j.verdicts es

/-- **The tale has got to the beginning of a round whose plan is known**, and the round has
found its topic clear. -/
structure Briefed (j : Journey) (es : List Event) : Prop where
  tale : ∃ plans, j.plans = plans ++ [(j.round, j.course.state.tasks)] ∧
    Tale j.course.run j.course.workers .begun j.round plans j.verdicts es
  round : ∃ c q, 0 < c.workers ∧ j.InRound c j.course.state.tasks q

/-- **The tasks are on their way**, and those are told to be completed whose results the pool
has told of. -/
def Dispatched (j : Journey) : Prop :=
  ∃ es now completions, j.Briefed es ∧
    j.events = j.opening :: (es ++ j.course.dispatched now :: completions) ∧
    (completions.map (Event.completes? j.course.run j.round)).Perm
      (j.course.pool.announced.map fun r => some r.task)

/-- **The last event tells how the run has ended**: complete, with all rounds told through, or
at the place of the call that failed it. -/
def Concludes (j : Journey) (mark : Tale.Mark) (last : Event) : Prop :=
  (j.course.state.status = .completed ∧ mark = .told ∧
      ∃ now, last = .runCompleted j.course.run j.round .completed now) ∨
    ∃ before c answer, j.calls = before ++ [c, ⟨.persist j.round j.course.state, answer⟩] ∧
      mark = c.errand.mark ∧ ∃ f now, j.course.state.error = some f ∧
        last = .runFailed j.course.run j.round f now

/-- What was told at each stage of a run. -/
def TaleStage (j : Journey) : Prop :=
  match j.course.stage with
  | .recording | .storing _ => ∃ es, j.events = j.opening :: es ∧ j.Narrates .told es
  | .recalling | .planning _ => ∃ es, j.events = j.opening :: es ∧ j.Narrates .begun es
  | .dispatching _ | .dismissing _ => ∃ es, j.events = j.opening :: es ∧ j.Briefed es
  | .hiring _ | .draining => j.Dispatched
  | .judging _ => ∃ es, j.events = j.opening :: es ∧ j.Narrates .dispatched es
  | .failing => ∃ es before c, j.events = j.opening :: es ∧ j.calls = before ++ [c] ∧
    j.Narrates c.errand.mark es
  | .leaving | .over => ∃ es mark last, j.events = j.opening :: (es ++ [last]) ∧
    j.Narrates mark es ∧ j.Concludes mark last

theorem events_advance (j : Journey) (c : Course) (q : Queue Task) (ns : List Notice) :
    (j.advance c q ns).events = j.events ++ ns.filterMap Notice.event? :=
  List.filterMap_append

theorem plans_heard (j : Journey) (c : Course) (ns : List Notice) (call : Call) :
    (j.heard c ns call).plans = j.plans ++ call.plan?.toList :=
  filterMap_heard Call.plan? j c ns call

theorem SameRun.opening (h : j.SameRun j') : j'.opening = j.opening := by
  have hrun : j'.course.run = j.course.run := h.runId
  rw [Journey.opening, hrun, h.mission, h.workers, h.limit, h.startedAt, Journey.opening]

/-- **The journey stays within a round**: nothing is asked, and the plan is the same. -/
structure Within (j j' : Journey) : Prop where
  calls : j'.calls = j.calls
  same : j.SameRun j'
  round : j'.round = j.round
  tasks : j'.course.state.tasks = j.course.state.tasks
  inRound : ∀ c q, 0 < c.workers → j.InRound c j.course.state.tasks q →
    j'.InRound c j.course.state.tasks q

theorem Within.run (h : j.Within j') : j'.course.run = j.course.run := h.same.runId

/-- **Whatever drains a round stays within it.** -/
theorem within_of_move? {m : Move} (hdrain : m.IsDrain) (hm : j.move? m = some j') :
    j.Within j' := by
  have hkept : j'.calls = j.calls ∧ j'.round = j.round ∧
      j'.course.state.tasks = j.course.state.tasks := by
    cases m with
    | own m =>
      obtain ⟨c', q', ns, hstride, rfl⟩ := move?_own.mp hm
      cases hstride <;> exact ⟨rfl, rfl, rfl⟩
    | work i now =>
      obtain ⟨p, q', ns, -, rfl⟩ := move?_work.mp hm
      exact ⟨rfl, rfl, rfl⟩
    | delegated i r =>
      obtain ⟨d, -, rfl⟩ := move?_delegated.mp hm
      exact ⟨rfl, rfl, rfl⟩
    | lost i => exact hdrain.elim
    | answered a m => exact hdrain.elim
  exact ⟨hkept.1, sameRun_of_move? hm, hkept.2.1, hkept.2.2, fun c q hpos hin =>
    hin.move hpos hdrain hm⟩

/-- The plan of a round stays within it. -/
theorem Briefed.within (h : j.Briefed es) (hw : j.Within j') : j'.Briefed es := by
  obtain ⟨⟨plans, hplans, htale⟩, c, q, hpos, hin⟩ := h
  refine ⟨⟨plans, ?_, ?_⟩, c, q, hpos, hw.tasks ▸ hw.inRound c q hpos hin⟩
  · rw [Journey.plans, hw.calls, hw.round, hw.tasks]
    exact hplans
  · rw [hw.run, hw.same.workers, hw.round, verdicts, hw.calls]
    exact htale

/-- **Within a round whose tasks are on their way** it is told of those that the pool tells
of. -/
theorem Dispatched.within {new : List Event} (h : j.Dispatched) (hw : j.Within j')
    (hev : j'.events = j.events ++ new)
    (htold : (j'.course.pool.announced.map fun r => some r.task).Perm
      ((j.course.pool.announced.map fun r => some r.task) ++
        new.map (Event.completes? j.course.run j.round))) : j'.Dispatched := by
  obtain ⟨es, now, completions, hbriefed, hevents, hperm⟩ := h
  have hdispatched : j'.course.dispatched now = j.course.dispatched now := by
    have hround : j'.course.state.round = j.course.state.round := hw.round
    rw [Course.dispatched, hw.run, hround, hw.tasks, hw.same.workers, Course.dispatched]
  refine ⟨es, now, completions ++ new, hbriefed.within hw, ?_, ?_⟩
  · rw [hev, hevents, hw.same.opening, hdispatched]
    simp
  · rw [hw.run, hw.round, List.map_append]
    exact (hperm.append_right _).trans htold.symm

/-- Where nothing is told and the pool tells of no more, nothing changes. -/
theorem Dispatched.silent (h : j.Dispatched) (hw : j.Within j') (hev : j'.events = j.events)
    (htold : j'.course.pool.announced.Perm j.course.pool.announced) : j'.Dispatched := by
  refine h.within hw (hev.trans (List.append_nil _).symm) ?_
  rw [List.map_nil, List.append_nil]
  exact htold.map _

/-! ### Strides -/

theorem events_silent (j : Journey) (c : Course) (q : Queue Task) :
    (j.advance c q []).events = j.events :=
  (events_advance j c q []).trans (List.append_nil _)

/-- **When the first worker is about to be hired** it is told that the tasks are on their way,
and of none yet that it is completed. -/
theorem Briefed.dispatched (h : j.Briefed es) (hevents : j.events = j.opening :: es)
    (hs : j.course.stage = .dismissing 0) (hw : j.Within j') {now : Instant}
    (hev : j'.events = j.events ++ [j.course.dispatched now])
    (hpool : j'.course.pool = j.course.pool) (hdispatched : j'.course.dispatched now =
      j.course.dispatched now) : j'.Dispatched := by
  obtain ⟨c, q, -, hin⟩ := h.round
  have hstage := hin.stage
  rw [AtStage, hs] at hstage
  obtain ⟨sent, -, hpublished⟩ := hstage
  refine ⟨es, now, [], h.within hw, ?_, ?_⟩
  · rw [hev, hevents, hw.same.opening, hdispatched]
    rfl
  · rw [hpool, Pool.announced, hpublished.workers, hpublished.results]
    exact .nil

/-- **A drained pool has told of one completion for each task of the plan.** -/
theorem Dispatched.drained (h : j.Dispatched) (hs : j.course.stage = .draining)
    (hd : j.course.pool.isDrained = true) :
    ∃ es, j.events = j.opening :: es ∧ j.Narrates .dispatched es := by
  obtain ⟨es, now, completions, hbriefed, hevents, hperm⟩ := h
  obtain ⟨⟨plans, hplans, htale⟩, c, q, hpos, hin⟩ := hbriefed
  have hstage := hin.stage
  rw [AtStage, hs] at hstage
  obtain ⟨outcome, -, hresults⟩ := hstage.1.exists_outcome hpos hin.round hd
  refine ⟨_, hevents, ?_⟩
  rw [Narrates, hplans]
  -- The workers tell in any order and the results are collected in any other; both are those
  -- of the plan.
  refine htale.dispatch j.course.state.tasks now (hperm.trans ?_)
  rw [Pool.announced_of_isDrained hd]
  have hids := hresults.map fun r => some r.task
  refine hids.trans (List.Perm.of_eq (List.ext_getElem (by simp) fun k h₁ _ => ?_))
  simp [TaskResult.ofSubAgent]

/-- **A stride** goes on with the tale. -/
theorem TaleStage.own {m : Moment} (h : j.TaleStage) (hm : j.move? (.own m) = some j') :
    j'.TaleStage := by
  unfold TaleStage at h
  have hwithin := within_of_move? (m := .own m) trivial hm
  obtain ⟨c', q', ns, hstride, rfl⟩ := move?_own.mp hm
  -- Of all strides only the one behind the last sentinel tells an event.
  cases hstride with
  | publish hs | published hs | dismiss hs =>
    rw [hs] at h
    obtain ⟨es, hevents, hbriefed⟩ := h
    exact ⟨es, (events_silent _ _ _).trans hevents, hbriefed.within hwithin⟩
  | dismissed hs =>
    rw [hs] at h
    obtain ⟨es, hevents, hbriefed⟩ := h
    exact hbriefed.dispatched hevents hs hwithin (events_advance _ _ _ _) rfl rfl
  | hire hs =>
    rw [hs] at h
    exact Dispatched.silent h hwithin (events_silent _ _ _)
      (List.Perm.of_eq (Pool.announced_hire _))
  | hired hs =>
    rw [hs] at h
    exact Dispatched.silent h hwithin (events_silent _ _ _) .rfl
  | drained hs hd =>
    rw [hs] at h
    obtain ⟨es, hevents, htale⟩ := Dispatched.drained h hs hd
    refine ⟨es, ?_, htale⟩
    rw [events_advance, event?_checkDrained, List.append_nil]
    exact hevents
  | leave hs =>
    rw [hs] at h
    obtain ⟨es, mark, last, hevents, htale, hend⟩ := h
    exact ⟨es, mark, last, (events_advance _ _ _ _).trans ((List.append_nil _).trans hevents),
      htale, hend⟩

/-! ### Workers -/

/-- Workers are at work only when the tasks are on their way. -/
theorem TaleStage.dispatched (h : j.TaleStage) (hm : j.Manned) {k : Nat} {w : PoolWorker}
    (hw : j.course.pool.workers[k]? = some w) (hg : w.stage.isGone = false) :
    j.Dispatched ∧ ∀ j' : Journey, j'.course.stage = j.course.stage → j'.Dispatched →
      j'.TaleStage := by
  unfold TaleStage at h
  rcases hm.working hw hg with ⟨left, hs⟩ | hs
  all_goals
    rw [hs] at h
    refine ⟨h, fun j' hs' hdispatched => ?_⟩
    rw [TaleStage, hs', hs]
    exact hdispatched

/-- **A turn** goes on with the tale: a worker tells of the task whose result it has. -/
theorem TaleStage.work {i : Nat} {now : Instant} (h : j.TaleStage) (ht : j.OnTrack)
    (hhoused : j.Housed) (hm : j.move? (.work i now) = some j') : j'.TaleStage := by
  have hwithin := within_of_move? (m := .work i now) trivial hm
  obtain ⟨p, q', ns, hstep, rfl⟩ := move?_work.mp hm
  have hturn := Pool.turn_of_step? hstep
  obtain ⟨w, -, hw, hg, -⟩ := hturn.worker
  obtain ⟨hdispatched, hstage⟩ := h.dispatched ht.manned hw hg
  have htold := hturn.announced
  rw [hhoused.run, hhoused.round] at htold
  exact hstage _ rfl (hdispatched.within hwithin (events_advance _ _ _ _) htold)

/-- A delegation that comes back tells nothing. -/
theorem TaleStage.delegated {i : Nat} {r : SubAgentResult} (h : j.TaleStage) (ht : j.OnTrack)
    (hm : j.move? (.delegated i r) = some j') : j'.TaleStage := by
  have hwithin := within_of_move? (m := .delegated i r) trivial hm
  obtain ⟨d, hd, rfl⟩ := move?_delegated.mp hm
  obtain ⟨w, a, hw, hs⟩ := Pool.delegating?_eq_some hd
  obtain ⟨hdispatched, hstage⟩ := h.dispatched ht.manned hw (by rw [hs]; rfl)
  refine hstage _ rfl (hdispatched.silent hwithin (events_silent _ _ _) ?_)
  rw [show (Journey.advance _ _ _ _).course.pool = _ from rfl, Pool.delegated_eq hw hs]
  exact Pool.announced_goOn hw (by rw [hs]; rfl) rfl

/-! ### Answers -/

variable {c : Course} {ns : List Notice} {call : Call}

/-- Behind an answer it is told what the course makes of it. -/
theorem SameRun.events_heard (hsame : j.SameRun (j.heard c ns call))
    (hevents : j.events = j.opening :: es) : (j.heard c ns call).events =
      (j.heard c ns call).opening :: (es ++ ns.filterMap Notice.event?) := by
  rw [hsame.opening, ← List.cons_append, ← hevents]
  exact List.filterMap_append

theorem SameRun.events_silent (hsame : j.SameRun (j.heard c [] call))
    (hevents : j.events = j.opening :: es) :
    (j.heard c [] call).events = (j.heard c [] call).opening :: es := by
  rw [hsame.events_heard hevents, List.filterMap_nil, List.append_nil]

/-- **Behind an answer** the tale has the plan or the verdict that it brings. -/
theorem SameRun.narrates_heard {n : Nat} (hsame : j.SameRun (j.heard c ns call))
    (hround : c.state.round = n) : (j.heard c ns call).Narrates mark es ↔
      Tale j.course.run j.course.workers mark n (j.plans ++ call.plan?.toList)
        (j.verdicts ++ call.verdict?.toList) es := by
  have hrun : (j.heard c ns call).course.run = j.course.run := hsame.runId
  have hn : (j.heard c ns call).round = n := hround
  rw [Narrates, hrun, hsame.workers, hn, plans_heard, verdicts_heard]

/-- A call that brings no plan and no verdict leaves the tale as it is. -/
theorem Narrates.heard (h : j.Narrates mark es) (hsame : j.SameRun (j.heard c ns call))
    (hround : c.state.round = j.round) (hp : call.plan? = none) (hv : call.verdict? = none) :
    (j.heard c ns call).Narrates mark es := by
  rw [hsame.narrates_heard hround, hp, hv, Option.toList_none, Option.toList_none,
    List.append_nil, List.append_nil]
  exact h

/-- **A round begins**, and it is told that it does. -/
theorem Narrates.beginRound {m : Moment} (h : j.Narrates .told es)
    (hevents : j.events = j.opening :: es) (hp : j.course.Paced)
    (hlt : j.round < j.course.limit) (hsame : j.SameRun (j.heard (j.course.beginRound m).1
      (j.course.beginRound m).2 call)) (hplan : call.plan? = none) (hv : call.verdict? = none) :
    (j.heard (j.course.beginRound m).1 (j.course.beginRound m).2 call).TaleStage := by
  have hround : j.course.state.beginRound.round = j.round + 1 :=
    Course.round_beginRound hlt hp.2.1
  have hr : (j.course.beginRound m).1.state.round = j.round + 1 := by
    rw [Course.state_beginRound, hround]
  set j' := j.heard (j.course.beginRound m).1 (j.course.beginRound m).2 call
  have htale : j'.Narrates .begun (es ++ [.roundStarted j.course.run (j.round + 1) m.now]) := by
    rw [hsame.narrates_heard hr, hplan, hv, Option.toList_none, Option.toList_none,
      List.append_nil, List.append_nil]
    exact Tale.begin h m.now
  have hevents' : j'.events =
      j'.opening :: (es ++ [.roundStarted j.course.run (j.round + 1) m.now]) := by
    rw [hsame.events_heard hevents, ← hround]
    rfl
  unfold TaleStage
  rcases j.course.stage_beginRound m with ⟨-, hst⟩ | ⟨-, hst⟩
  · rw [show j'.course.stage = _ from hst]
    exact ⟨_, hevents', htale⟩
  · rw [show j'.course.stage = _ from hst]
    exact ⟨_, hevents', htale⟩

/-- **The plan has come**, and the round goes on to its tasks. -/
theorem Narrates.planned {r : PlanRequest} {tasks : List Task} (h : j.Narrates .begun es)
    (hevents : j.events = j.opening :: es) (hs : j.course.stage = .planning r)
    (hr : r.round = j.round) (ht : j.OnTrack) (htidy : j.Tidy)
    (hsame : j.SameRun (j.heard (j.course.dispatch tasks) [] ⟨.plan r, .planned (.ok tasks)⟩)) :
    (j.heard (j.course.dispatch tasks) [] ⟨.plan r, .planned (.ok tasks)⟩).TaleStage := by
  have hclear := htidy.stage
  unfold TidyStage at hclear
  rw [hs] at hclear
  obtain ⟨hblank, hnew⟩ := hclear
  have hplan : Call.plan? ⟨.plan r, .planned (.ok tasks)⟩ = some (j.round, tasks) := by
    rw [← hr]
    rfl
  have hverdict : Call.verdict? ⟨.plan r, .planned (.ok tasks)⟩ = none := rfl
  refine ⟨es, hsame.events_silent hevents, ⟨j.plans, ?_, ?_⟩, j.course, j.queue, htidy.workers,
    hnew.inRound hblank.clear ht.sound tasks _⟩
  · rw [plans_heard, hplan]
    rfl
  · rw [verdicts_heard, hverdict, Option.toList_none, List.append_nil]
    exact h

/-- **The judge has spoken**, and it is told that the round is consolidated. -/
theorem Narrates.judged {r : JudgeRequest} {v : Verdict} {now : Instant} {d : RoundDecision}
    (h : j.Narrates .dispatched es) (hevents : j.events = j.opening :: es)
    (hr : r.round = j.round)
    (hns : ns = [.event (.roundConsolidated j.course.run j.course.state.round v.summary
      v.continueRun now)])
    (hsame : j.SameRun (j.heard c ns ⟨.judge r, .judged (.ok v)⟩))
    (hround : c.state.round = j.round) (hs : c.stage = .storing d) :
    (j.heard c ns ⟨.judge r, .judged (.ok v)⟩).TaleStage := by
  have hstage : (j.heard c ns ⟨.judge r, .judged (.ok v)⟩).course.stage = .storing d := hs
  unfold TaleStage
  rw [hstage]
  refine ⟨es ++ [.roundConsolidated j.course.run j.round v.summary v.continueRun now], ?_, ?_⟩
  · rw [hsame.events_heard hevents, hns]
    rfl
  · have hplan : Call.plan? ⟨.judge r, .judged (.ok v)⟩ = none := rfl
    have hverdict : Call.verdict? ⟨.judge r, .judged (.ok v)⟩ = some (j.round, v) := by
      rw [← hr]
      rfl
    rw [hsame.narrates_heard hround, hplan, hverdict, Option.toList_none, List.append_nil]
    exact Tale.judge h v now

/-- **The last round is recorded**, and it is told that the run is complete. -/
theorem Narrates.completed {now : Instant} (h : j.Narrates .told es)
    (hevents : j.events = j.opening :: es) (hstatus : j.course.state.status = .completed)
    (hsame : j.SameRun (j.heard (j.course.goOn .leaving) [.event (j.course.completion now)]
      ⟨.persist j.round j.course.state, .persisted (.ok ())⟩)) :
    (j.heard (j.course.goOn .leaving) [.event (j.course.completion now)]
      ⟨.persist j.round j.course.state, .persisted (.ok ())⟩).TaleStage := by
  refine ⟨es, .told, j.course.completion now, hsame.events_heard hevents,
    h.heard hsame rfl rfl rfl, .inl ⟨hstatus, rfl, j.course.state.completedAt.getD now, ?_⟩⟩
  rw [Course.completion, hstatus]
  rfl

/-- **The failure is recorded**, or not, and it is told that the run has failed. -/
theorem Narrates.failed {before : List Call} {b : Call} {f : RunFailure} {now : Instant}
    {answer : Except StoreError Unit} (h : j.Narrates b.errand.mark es)
    (hevents : j.events = j.opening :: es) (hcalls : j.calls = before ++ [b])
    (herror : j.course.state.error = some f)
    (hsame : j.SameRun (j.heard (j.course.goOn .leaving) (j.course.failureNotices now)
      ⟨.persist j.round j.course.state, .persisted answer⟩)) :
    (j.heard (j.course.goOn .leaving) (j.course.failureNotices now)
      ⟨.persist j.round j.course.state, .persisted answer⟩).TaleStage := by
  have hnotices : j.course.failureNotices now = [.event (.runFailed j.course.run
      j.course.state.round f (j.course.state.completedAt.getD now))] := by
    rw [Course.failureNotices, herror]
  refine ⟨es, b.errand.mark, .runFailed j.course.run j.round f
    (j.course.state.completedAt.getD now), ?_, h.heard hsame rfl rfl rfl, .inr ?_⟩
  · rw [hsame.events_heard hevents, hnotices]
    rfl
  · refine ⟨before, b, .persisted answer, ?_, rfl, f, _, herror, rfl⟩
    change j.calls ++ [_] = _
    rw [hcalls, List.append_assoc]
    rfl

/-- **A call that fails** cuts the tale short at the place it belongs to. -/
theorem TaleStage.refused {r : CourseRequest} {a : CourseAnswer} {kind : FailureKind}
    {message : String} {m : Moment} (h : j.TaleStage) (hr : j.course.Refusal r a kind message)
    (hsame : j.SameRun (j.heard (j.course.fail kind message m.now) [] ⟨r, a⟩)) :
    (j.heard (j.course.fail kind message m.now) [] ⟨r, a⟩).TaleStage := by
  have hcut {es : List Event} (hevents : j.events = j.opening :: es)
      (htale : j.Narrates (Call.errand ⟨r, a⟩).mark es) (hp : Call.plan? ⟨r, a⟩ = none)
      (hv : Call.verdict? ⟨r, a⟩ = none) :
      (j.heard (j.course.fail kind message m.now) [] ⟨r, a⟩).TaleStage := by
    exact ⟨es, j.calls, ⟨r, a⟩, hsame.events_silent hevents, rfl, htale.heard hsame rfl hp hv⟩
  unfold TaleStage at h
  cases hr with
  | mission hs | nothing hs | memory hs | plan hs | judge hs | round hs =>
    rw [hs] at h
    obtain ⟨es, hevents, htale⟩ := h
    exact hcut hevents htale rfl rfl

/-- **Every answer** goes on with the tale. -/
theorem TaleStage.answered {a : CourseAnswer} {m : Moment} (h : j.TaleStage) (ht : j.OnTrack)
    (htidy : j.Tidy) (hreport : j.ReportStage) (hm : j.move? (.answered a m) = some j') :
    j'.TaleStage := by
  have htold := h
  unfold TaleStage at h
  have hsame := sameRun_of_move? hm
  have hpaced := ht.paced.2.2.2
  unfold ReportStage at hreport
  obtain ⟨r, c, ns, hreply, rfl⟩ := reply_of_move? hm
  -- An answer is taken at one stage only, which says how far the tale has got.
  cases hreply with
  | recorded hs =>
    rw [hs] at h hpaced
    obtain ⟨es, hevents, htale⟩ := h
    have hzero : j.round = 0 := hpaced
    exact htale.beginRound hevents ht.paced (by rw [hzero]; exact ht.paced.1) hsame rfl rfl
  | continued hs =>
    rw [hs] at h hpaced
    obtain ⟨es, hevents, htale⟩ := h
    exact htale.beginRound hevents ht.paced hpaced.2 hsame rfl rfl
  | recalled hs =>
    rw [hs] at h
    obtain ⟨es, hevents, htale⟩ := h
    exact ⟨es, hsame.events_silent hevents, htale.heard hsame rfl rfl rfl⟩
  | planned hs =>
    rw [hs] at h hreport
    obtain ⟨es, hevents, htale⟩ := h
    exact htale.planned hevents hs hreport.1 ht htidy hsame
  | proceeds hs | stops hs =>
    rw [hs] at h hreport
    obtain ⟨es, hevents, htale⟩ := h
    exact htale.judged hevents hreport.1 rfl hsame rfl rfl
  | completed hs =>
    rw [hs] at h hreport
    obtain ⟨es, hevents, htale⟩ := h
    obtain ⟨n, v, -, -, -, hstatus⟩ := hreport
    exact htale.completed hevents hstatus hsame
  | refused hr => exact htold.refused hr hsame
  | failed hs =>
    rw [hs] at h hreport
    obtain ⟨es, before, b, hevents, hcalls, htale⟩ := h
    obtain ⟨_, _, f, -, hfailed⟩ := hreport
    exact htale.failed hevents hcalls hfailed.error hsame

/-- **Every safe move** goes on with the tale. -/
theorem TaleStage.move {m : Move} (h : j.TaleStage) (ht : j.OnTrack) (htidy : j.Tidy)
    (hreport : j.ReportStage) (hhoused : j.Housed) (hsafe : m.IsSafe)
    (hm : j.move? m = some j') : j'.TaleStage := by
  cases m with
  | own m => exact h.own hm
  | work i now => exact h.work ht hhoused hm
  | delegated i r => exact h.delegated ht hm
  | lost i => exact hsafe.elim
  | answered a m => exact h.answered ht htidy hreport hm

/-- Wherever safe moves lead, the tale goes on. -/
theorem TaleStage.reaches (h : j.TaleStage) (ht : j.OnTrack) (htidy : j.Tidy)
    (hreport : j.ReportStage) (hhoused : j.Housed) (hr : j.Reaches Move.IsSafe j') :
    j'.TaleStage ∧ j'.ReportStage := by
  have hall : (j'.TaleStage ∧ j'.ReportStage) ∧ j'.Tidy ∧ j'.Housed := by
    refine ht.keeps (P := fun a => (a.TaleStage ∧ a.ReportStage) ∧ a.Tidy ∧ a.Housed) hr
      (fun ht hsafe hm h => ?_) ⟨⟨h, hreport⟩, htidy, hhoused⟩
    obtain ⟨⟨htale, hreport⟩, htidy, hhoused⟩ := h
    exact ⟨⟨htale.move ht htidy hreport hhoused hsafe hm, hreport.move htidy ht hsafe hm⟩,
      htidy.move ht hsafe hm, hhoused.move hm⟩
  exact hall.1

/-! ### The whole tale -/

/-- **A call on the errand has failed.** -/
def Fails (j : Journey) (e : Errand) : Prop :=
  ∃ c ∈ j.calls, c.errand = e ∧ c.failure? j.course.run ≠ none

/-- A plan or a verdict that does not come belongs to its round. -/
theorem roundAfter_of_errand {judged k : Nat} (h : call.errand = .plan k ∨ call.errand = .judge k) :
    call.roundAfter judged = k := by
  obtain ⟨request, answer⟩ := call
  cases request with
  | persist | load => rcases h with h | h <;> cases h
  | plan r | judge r =>
    rcases h with h | h <;> cases h
    rfl

/-- **A failed run has failed on the one errand that failed it**, if others than to be recorded
are looked at. -/
theorem FailedBy.fails_iff {before : List Call} {f : RunFailure} {answer : CourseAnswer}
    (h : j.FailedBy before call f)
    (hcalls : j.calls = before ++ [call, ⟨.persist j.round j.course.state, answer⟩]) {e : Errand}
    (he : ∀ n, e ≠ .record n) : j.Fails e ↔ call.errand = e := by
  constructor
  · rintro ⟨b, hb, rfl, hfailure⟩
    rw [hcalls] at hb
    rcases List.mem_append.mp hb with hb | hb
    · exact absurd (h.sound b hb) hfailure
    · rcases List.mem_cons.mp hb with rfl | hb
      · rfl
      · obtain rfl := List.mem_singleton.mp hb
        exact absurd rfl (he _)
  · rintro rfl
    refine ⟨call, ?_, rfl, by simp [h.failure]⟩
    rw [hcalls]
    exact List.mem_append_right _ List.mem_cons_self

/-- **The place where the tale was cut short** is the one of the errand that failed. -/
theorem Concludes.places {last : Event} (h : j.Concludes mark last) (hreport : j.ReportStage)
    (hover : j.course.stage = .over) :
    (mark = .begun ↔ j.Fails .recall ∨ j.Fails (.plan j.round)) ∧
    (mark = .dispatched ↔ j.Fails (.judge j.round)) ∧
    (j.course.state.status = .completed ∧
        (∃ now, last = .runCompleted j.course.run j.round .completed now) ∨
      j.course.state.status = .failed ∧ ∃ f now, j.course.state.error = some f ∧
        last = .runFailed j.course.run j.round f now) := by
  rw [ReportStage, hover] at hreport
  -- The report and the tale each say how the run has ended, and say the same.
  rcases hreport with hcompleted | ⟨before, c, f, answer, hcalls, hfailed⟩
  · have hnone (e : Errand) : ¬j.Fails e := by
      rintro ⟨c, hc, -, hfailure⟩
      exact hfailure (hcompleted.sound c hc)
    rcases h with ⟨hstatus, rfl, hlast⟩ | ⟨-, -, -, -, -, f, now, herror, -⟩
    · exact ⟨by simp [hnone], by simp [hnone], .inl ⟨hstatus, hlast⟩⟩
    · cases hcompleted.error.symm.trans herror
  · rcases h with ⟨hstatus, -⟩ | ⟨before', c', answer', hcalls', rfl, hlast⟩
    · cases hfailed.status.symm.trans hstatus
    · obtain ⟨-, hsame⟩ := List.append_inj' (hcalls.symm.trans hcalls') rfl
      obtain rfl := (List.cons_eq_cons.mp hsame).1
      have hplace {k : Nat} (he : c.errand = .plan k ∨ c.errand = .judge k) : j.round = k :=
        hfailed.round.trans (roundAfter_of_errand he)
      have hfails {e : Errand} (he : ∀ n, e ≠ .record n) : j.Fails e ↔ c.errand = e :=
        hfailed.fails_iff hcalls he
      rw [hfails (by simp), hfails (by simp), hfails (by simp)]
      refine ⟨?_, ?_, .inr ⟨hfailed.status, hlast⟩⟩
      · cases he : c.errand with
        | record | «recall» | judge => simp [Errand.mark]
        | plan k => simp [Errand.mark, hplace (.inl he)]
      · cases he : c.errand with
        | record | «recall» | plan => simp [Errand.mark]
        | judge k => simp [Errand.mark, hplace (.inr he)]

/-- A run at its outset has told that it has started. -/
theorem taleStage_of_embark {run : RunId} {mission : String} {workers limit : Nat}
    {delegation : Delegation} {now : Instant} {q : Queue Task} {j₀ : Journey}
    (h : embark run mission workers limit delegation now q = .ok j₀) :
    j₀.TaleStage ∧ j₀.Housed ∧ j₀.course.workers = workers ∧
      j₀.opening = .runStarted run mission workers limit now := by
  have hevents := events_of_embark h
  obtain ⟨-, -, ns, rfl⟩ := embark_eq_ok h
  exact ⟨⟨[], hevents, .outset⟩, ⟨rfl, rfl⟩, rfl, rfl⟩

end Journey

namespace Venture

variable {run : RunId} {mission : String} {workers limit : Nat} {delegation : Delegation}
  {standard : Span} {now : Instant} {q : Queue Task}

/-- A venture can be called for with workers and rounds. -/
theorem embark_of_pos (run : RunId) (mission : String) (delegation : Delegation) (standard : Span)
    (now : Instant) (q : Queue Task) (hw : 0 < workers) (hpos : 0 < limit) :
    ∃ v₀, embark run mission workers limit delegation standard now q = .ok v₀ := by
  obtain ⟨ns, hj₀⟩ := Journey.embark_of_pos run mission delegation now q hw hpos
  exact ⟨_, by rw [embark, hj₀]; rfl⟩

/-- **The tale of a run is told as it happened.** On a queue that does not have its topic yet, a
run with workers and rounds comes to its end. Wherever acts lead that lose no worker, when the
run is over the events that name it are, in the order in which they were published:

- that it has started;
- the tale of its rounds, with a completion for each task of each plan, told through but for a
  round whose memory or plan has failed, which has only begun, and one whose judge has failed,
  which has its tasks;
- that it is complete, exactly if it is, or the failure that stands on it, and the round it
  ended in.

Each completed task is told behind the spawn of its worker session and, behind this, the end of
that session with the same status. -/
theorem tale_told (hq : q.Reachable) (habsent : q.current? run.topic = none)
    (hl : limit < 2 ^ 32) (hw : 0 < workers) (hpos : 0 < limit) :
    ∃ v₀, embark run mission workers limit delegation standard now q = .ok v₀ ∧
      v₀.journey.Ends ∧ ∀ v, v₀.Reaches Move.IsSafe v → v.journey.course.isOver = true →
        (∃ mark es last,
          v.log.filter (fun e => e.run? = some run) =
            .runStarted run mission workers limit now :: (es ++ [last]) ∧
          Tale run workers mark v.journey.round v.journey.plans v.journey.verdicts es ∧
          (mark = .begun ↔ v.journey.Fails .recall ∨ v.journey.Fails (.plan v.journey.round)) ∧
          (mark = .dispatched ↔ v.journey.Fails (.judge v.journey.round)) ∧
          (v.journey.course.state.status = .completed ∧
              (∃ t, last = .runCompleted run v.journey.round .completed t) ∨
            v.journey.course.state.status = .failed ∧ ∃ f t,
              v.journey.course.state.error = some f ∧ last = .runFailed run v.journey.round f t)) ∧
        Vouched run v.log := by
  obtain ⟨v₀, hv₀⟩ := embark_of_pos run mission delegation standard now q hw hpos
  obtain ⟨hj₀, hattended₀⟩ := attended_of_embark hv₀
  have hon := Journey.OnTrack.embark hq.sound hl hj₀
  refine ⟨v₀, hv₀, hon.ends, fun v hv hover => ?_⟩
  obtain ⟨hattended, hreach⟩ := hattended₀.reaches hv
  have hj : v₀.journey.Reaches Move.IsSafe v.journey :=
    Journey.Reaches.mono hreach fun _ hm => hm.1
  obtain ⟨htidy, hreport₀, hrun₀, -⟩ :=
    Journey.tidy_of_embark (by rw [Queue.topicOf_of_none habsent]; exact ⟨rfl, rfl⟩) hj₀
  obtain ⟨htale₀, hhoused, hworkers₀, hopening₀⟩ := Journey.taleStage_of_embark hj₀
  obtain ⟨htale, hreport⟩ := htale₀.reaches hon htidy hreport₀ hhoused hj
  have hrun : v.journey.course.run = run := hj.sameRun.runId.trans hrun₀
  have hrun' : v.run = run := hrun
  have hopening : v.journey.opening = .runStarted run mission workers limit now :=
    hj.sameRun.opening.trans hopening₀
  have hworkers : v.journey.course.workers = workers := hj.sameRun.workers.trans hworkers₀
  have hstage := Course.isOver_iff.mp hover
  unfold Journey.TaleStage at htale
  rw [hstage] at htale
  obtain ⟨es, mark, last, hevents, hnarrates, hend⟩ := htale
  obtain ⟨hbegun, hdispatched, hlast⟩ := hend.places hreport hstage
  have hlog := hattended.events
  rw [hrun', hevents, hopening] at hlog
  rw [hrun] at hlast
  rw [Journey.Narrates, hrun, hworkers] at hnarrates
  exact ⟨⟨mark, es, last, hlog, hnarrates, hbegun, hdispatched, hlast⟩, hrun' ▸ hattended.vouched⟩

/-- Two workers in each of two rounds; no call fails, so the tale of both rounds is told through. -/
theorem tale_told_crossed : ∃ v₀ v es t,
    embark default "" 2 3 default default default .empty = .ok v₀ ∧ v₀.Reaches Move.IsSafe v ∧
    v.journey.course.isOver = true ∧ v.log.length = 20 ∧
    v.log.filter (fun e => e.run? = some default) =
      .runStarted default "" 2 3 default :: (es ++ [.runCompleted default 2 .completed t]) ∧
    Tale default 2 .told 2 v.journey.plans v.journey.verdicts es ∧ Vouched default v.log := by
  obtain ⟨v₀, hv₀, -, htold⟩ : ∃ v₀, embark default "" 2 3 default default default .empty = .ok v₀ ∧
      v₀.journey.Ends ∧ _ :=
    tale_told Relation.ReflTransGen.refl rfl (by decide) Nat.two_pos (Nat.succ_pos 2)
  have hsome : ((embark default "" 2 3 default default default .empty).toOption.bind
      (·.acts? (actsOf Journey.crossedRun))).any (fun v => v.journey.course.isOver &&
        v.journey.course.state.status == .completed && v.journey.round == 2 &&
        v.log.length == 20 &&
        v.journey.calls.all fun c => c.failure? v.journey.course.run == none) = true := by
    decide +kernel
  rw [hv₀, Except.toOption, Option.bind_some] at hsome
  obtain ⟨v, hv, hend⟩ := (Option.any_eq_true _ _).mp hsome
  obtain ⟨hend, hcalls⟩ := (Bool.and_eq_true _ _).mp hend
  obtain ⟨hend, hlength⟩ := (Bool.and_eq_true _ _).mp hend
  obtain ⟨hend, hround⟩ := (Bool.and_eq_true _ _).mp hend
  obtain ⟨hover, hstatus⟩ := (Bool.and_eq_true _ _).mp hend
  have hnone (e : Errand) : ¬v.journey.Fails e := by
    rintro ⟨c, hc, -, hfailure⟩
    exact hfailure (beq_iff_eq.mp (List.all_eq_true.mp hcalls c hc))
  have hreach := Reaches.of_acts? (of_actsOf Journey.isSafe_crossedRun) hv
  obtain ⟨⟨mark, es, last, hlog, htale, hbegun, hdispatched, hlast⟩, hvouched⟩ :=
    htold v hreach hover
  rw [beq_iff_eq.mp hround] at htale hlast
  cases mark with
  | begun => exact ((hbegun.mp rfl).elim (hnone _) (hnone _)).elim
  | dispatched => exact (hnone _ (hdispatched.mp rfl)).elim
  | told =>
    rcases hlast with ⟨-, t, rfl⟩ | ⟨hfailed, -⟩
    · exact ⟨v₀, v, es, t, hv₀, hreach, hover, beq_iff_eq.mp hlength, hlog, htale, hvouched⟩
    · cases hfailed.symm.trans (beq_iff_eq.mp hstatus)

end Venture

end Roundtable

import Roundtable.Proofs.Course.Outcome
import Roundtable.Spawn

/-!
# Runs with the spawns of their workers

A worker of a pool waits for a delegation, and behind each delegation stands a spawn that
takes answers of its own. A `Roundtable.Venture` is a journey together with the spawns its
workers wait for and everything the bus has carried: the events of the run, those of the
spawns, and whatever others publish between them.

A journey takes any result for the one of a delegation. In a venture **a result comes from
the spawn that was begun for the worker**, and that is what is carried along
(`Roundtable.Venture.Attended`): the spawn has told of its beginning under the root session
of the run, it tells of its end before it gives its result away, and the result reports an
error exactly if it is no success. So a venture makes no move its journey could not make
(`Roundtable.Venture.Attended.reaches`), each completed task is told behind the spawn and
the end of its session, and the events that name the run are those of its journey.
-/

namespace Roundtable

/-! ### Results that are honest -/

/-- The conclusion reports an error exactly if it is no success. -/
def Conclusion.IsHonest (c : Conclusion) : Prop := c.error = none ↔ c.status = .success

/-- The result reports an error exactly if it is no success. -/
def SubAgentResult.IsHonest (r : SubAgentResult) : Prop := r.error = none ↔ r.status = .success

namespace Move

/-- What the move brings back from a delegation is honest. -/
def IsHonest : Move → Prop
  | delegated _ r => r.IsHonest
  | own _ | work .. | lost _ | answered .. => True

/-- The worker whose delegation the move ends. -/
def ends? : Move → Option Nat
  | delegated i _ | lost i => some i
  | own _ | work .. | answered .. => none

end Move

/-- **However an execution ends**, what it amounts to is honest. -/
theorem ExecutionEnd.isHonest_conclusion (e : ExecutionEnd) (budget : Span) :
    (e.conclusion budget).IsHonest := by
  cases e with
  | returned o => cases ho : o.success <;> simp [conclusion, Conclusion.IsHonest, ho]
  | raised | brokeOff | outOfTime => simp [conclusion, Conclusion.IsHonest]

/-- A spawn that has broken off or was dropped. -/
def SpawnStage.isBroken : SpawnStage → Bool
  | brokenOff _ | dropped => true
  | creating | executing | closing _ | finished _ => false

/-- The event an act tells. -/
def SpawnAct.event? : SpawnAct → Option Event
  | notify n => n.event?
  | create | execute | cancel | leaveExecution | close | closeAside => none

/-! ### What is told of tasks -/

/-- **A worker session is attested** by what was told: that it was spawned for the run, and
behind this that it ended with a status. -/
def Attested (run : RunId) (session : SessionId) (status : SubAgentStatus) (log : List Event) :
    Prop :=
  ∃ role t₀ ms t₁, List.Sublist [.subAgentSpawned session run.rootSession role t₀,
    .subAgentFinished session status ms t₁] log

/-- The session and the status under which an event tells of a completed task of the run. -/
def Event.completer? (run : RunId) : Event → Option (SessionId × SubAgentStatus)
  | taskCompleted r _ _ session status _ => if r = run then some (session, status) else none
  | _ => none

/-- **Every completed task of the run is told behind the spawn and the end of its session.** -/
def Vouched (run : RunId) (log : List Event) : Prop :=
  ∀ before e after session status, log = before ++ e :: after →
    e.completer? run = some (session, status) → Attested run session status before

section Telling

variable {run : RunId} {session : SessionId} {status : SubAgentStatus} {log es : List Event}

theorem Attested.mono (h : Attested run session status log) (hl : log.Sublist es) :
    Attested run session status es := by
  obtain ⟨role, t₀, ms, t₁, hsub⟩ := h
  exact ⟨role, t₀, ms, t₁, hsub.trans hl⟩

/-- The end of a session is told behind its spawn. -/
theorem Attested.concat {role : String} {t₀ t₁ : Instant} {ms : Nat}
    (h : .subAgentSpawned session run.rootSession role t₀ ∈ log) :
    Attested run session status (log ++ [.subAgentFinished session status ms t₁]) :=
  ⟨role, t₀, ms, t₁, (List.singleton_sublist.mpr h).append (List.Sublist.refl _)⟩

theorem vouched_nil : Vouched run [] := by
  intro before e after session status h
  exact absurd h.symm (List.append_ne_nil_of_right_ne_nil _ (List.cons_ne_nil _ _))

/-- What is told next tells of completed tasks whose sessions are attested already. -/
theorem Vouched.append (h : Vouched run log)
    (hes : ∀ e ∈ es, ∀ session status, e.completer? run = some (session, status) →
      Attested run session status log) : Vouched run (log ++ es) := by
  intro before e after session status heq he
  -- The event is a new one, with all of the old log before it, or it has its old place.
  rcases List.append_eq_append_iff.mp heq with ⟨r, rfl, hr⟩ | ⟨r, hlog, hr⟩
  · have hmem : e ∈ es := by
      rw [hr]
      exact List.mem_append_right _ List.mem_cons_self
    exact (hes e hmem session status he).mono (List.sublist_append_left _ _)
  · cases r with
    | nil =>
      have hmem : e ∈ es := by
        rw [← List.nil_append es, ← hr]
        exact List.mem_cons_self
      rw [List.append_nil] at hlog
      exact hlog ▸ hes e hmem session status he
    | cons x r =>
      obtain ⟨rfl, -⟩ := List.cons_eq_cons.mp hr
      exact h before e r session status hlog he

/-- What tells of no completed task is told at any time. -/
theorem Vouched.append_of_none (h : Vouched run log) (hes : ∀ e ∈ es, e.completer? run = none) :
    Vouched run (log ++ es) :=
  h.append fun e he session status hcomp => by simp [hes e he] at hcomp

end Telling

/-! ### The moves of a spawn -/

namespace Spawn

variable {s : Spawn}

/-- The events among the acts of a spawn. -/
def events (acts : List SpawnAct) : List Event := acts.filterMap SpawnAct.event?

/-- **A spawn takes an answer in silence, or has its result and tells of its end.** -/
inductive Taken (s : Spawn) : Spawn → List Event → Prop
  | silent {stage : SpawnStage} (hr : ∀ r, stage = .finished r → s.stage = .finished r)
      (hc : ∀ c, stage = .closing c → s.stage = .closing c ∨ c.IsHonest) :
      Taken s { s with stage } []
  | finished {c : Conclusion} {now : Instant} {ms : Nat} (hc : s.stage = .closing c ∨ c.IsHonest) :
      Taken s { s with stage := .finished (s.result c now) }
        [.subAgentFinished s.session c.status ms now]

/-- A close has no event to tell. -/
theorem events_closeNotices (r : Except TeardownError Unit) : events (closeNotices r) = [] := by
  cases r <;> rfl

theorem taken_of_receive (s : Spawn) (x : SpawnInput) (now : Instant) :
    s.Taken (s.receive x now).1 (events (s.receive x now).2) := by
  unfold receive
  split
  -- A spawn has its result where its session could not be created or has been closed, and is
  -- about to have one where its execution has ended.
  case h_2 e hs => exact .finished (.inr (by simp [Conclusion.IsHonest]))
  case h_3 e hs =>
    have hnone : events ((if e = .outOfTime then [SpawnAct.cancel] else []) ++
        [.leaveExecution, .close]) = [] := by
      split <;> rfl
    rw [hnone]
    refine .silent (fun r hr => by cases hr) fun c hc => .inr ?_
    obtain rfl := SpawnStage.closing.inj hc
    exact e.isHonest_conclusion s.budget
  case h_4 c r hs =>
    have hend : events (closeNotices r ++ (s.finish c now).2) = events (s.finish c now).2 := by
      rw [events, List.filterMap_append]
      exact congrArg (· ++ _) (events_closeNotices r)
    rw [hend]
    exact .finished (.inl hs)
  case h_10 => exact .silent (fun r hr => hr) fun c hc => .inl hc
  all_goals exact .silent (fun r hr => by cases hr) fun c hc => by cases hc

/-- **A spawn that works for a run**: what was told of it so far, and what it is about to give
its worker. -/
structure Serving (run : RunId) (log : List Event) (s : Spawn) : Prop where
  spawned : ∃ role t, .subAgentSpawned s.session run.rootSession role t ∈ log
  closing : ∀ c, s.stage = .closing c → c.IsHonest
  finished : ∀ r, s.stage = .finished r → r.IsHonest ∧ Attested run r.session r.status log

variable {run : RunId} {log log' es : List Event} {s' : Spawn}

theorem Serving.mono (h : s.Serving run log) (hl : log.Sublist log') : s.Serving run log' := by
  obtain ⟨⟨role, t, hmem⟩, hclosing, hfinished⟩ := h
  exact ⟨⟨role, t, hl.subset hmem⟩, hclosing, fun r hr =>
    ⟨(hfinished r hr).1, (hfinished r hr).2.mono hl⟩⟩

/-- A spawn that begins under the root session of a run works for it. -/
theorem serving_begin {spec : SubAgentSpec} {standard : Span} {fresh : String} {now : Instant}
    (h : spec.parent = run.rootSession) :
    (begin spec standard fresh now).1.Serving run
      (log ++ events (begin spec standard fresh now).2) := by
  refine ⟨⟨spec.role, now, List.mem_append_right _ ?_⟩, fun c hc => (by cases hc),
    fun r hr => (by cases hr)⟩
  rw [← h]
  exact List.mem_singleton.mpr rfl

/-- **A spawn that takes an answer works on for its run.** -/
theorem Serving.taken (h : s.Serving run log) (ht : s.Taken s' es) :
    s'.Serving run (log ++ es) := by
  obtain ⟨⟨role, t, hmem⟩, hclosing, hfinished⟩ := h
  cases ht with
  | silent hr hc =>
    rw [List.append_nil]
    refine ⟨⟨role, t, hmem⟩, fun c hs => ?_, fun r hs => hfinished r (hr r hs)⟩
    rcases hc c hs with hs | hc
    · exact hclosing c hs
    · exact hc
  | finished hc =>
    have hc := hc.elim (hclosing _) id
    refine ⟨⟨role, t, List.mem_append_left _ hmem⟩, fun c hs => (by cases hs), fun r hs => ?_⟩
    obtain rfl := SpawnStage.finished.inj hs
    exact ⟨hc, .concat hmem⟩

/-- What a spawn tells when it takes an answer is not of completed tasks, and names no run. -/
theorem Taken.run?_eq_none (ht : s.Taken s' es) : ∀ e ∈ es, e.run? = none := by
  cases ht with
  | silent => exact List.forall_mem_nil _
  | finished => simp [Event.run?]

end Spawn

/-! ### What a move tells -/

/-- The result a worker has in hand. -/
def PoolStage.result? : PoolStage → Option TaskResult
  | announcing _ r | collecting _ r => some r
  | seeking | delegating .. | acknowledging _ | left | lost => none

namespace Pool

/-- The result has been collected, or a worker has it in hand. -/
def Has (p : Pool) (r : TaskResult) : Prop :=
  r ∈ p.results ∨ ∃ w ∈ p.workers, w.stage.result? = some r

variable {p p' : Pool} {i : Nat} {q q' : Queue Task} {now : Instant} {ns : List Notice}
  {deed : Option Deed} {r : TaskResult}

theorem has_empty {run : RunId} {round : Nat} {delegation : Delegation} :
    ¬(empty run round delegation).Has r := by
  rintro (hr | ⟨w, hw, -⟩)
  · exact List.not_mem_nil hr
  · exact List.not_mem_nil hw

/-- A worker that is hired has nothing in hand. -/
theorem Has.of_hire {s : Subscription} (h : (p.hire s).Has r) : p.Has r := by
  rcases h with hr | ⟨w, hw, hs⟩
  · exact .inl hr
  · rcases List.mem_append.mp hw with hw | hw
    · exact .inr ⟨w, hw, hs⟩
    · obtain rfl := List.mem_singleton.mp hw
      cases hs

/-- Where a worker is replaced, the new one alone has something new in hand. -/
theorem Has.of_setWorker {w : PoolWorker} (h : (p.setWorker i w).Has r) :
    p.Has r ∨ w.stage.result? = some r := by
  rcases h with hr | ⟨x, hx, hs⟩
  · exact .inl (.inl hr)
  · rcases List.mem_or_eq_of_mem_set hx with hx | rfl
    · exact .inl (.inr ⟨x, hx, hs⟩)
    · exact .inr hs

/-- **A turn brings no result**: it is taken from the hand to the collection. -/
theorem Turn.has (h : p.Turn i q now p' q' ns deed) (hr : p'.Has r) : p.Has r := by
  cases h with
  | task | sentinel | leave | ack | refused =>
    rcases hr.of_setWorker with hr | hr
    · exact hr
    · cases hr
  | announce hw hs =>
    rcases hr.of_setWorker with hr | hr
    · exact hr
    · exact .inr ⟨_, List.mem_of_getElem? hw, by rw [hs]; exact hr⟩
  | @collect w d x hw hs =>
    have hx : p.Has x := .inr ⟨w, List.mem_of_getElem? hw, by rw [hs]; rfl⟩
    rcases hr with hr | hr
    · rcases List.mem_append.mp hr with hr | hr
      · exact .inl hr
      · exact List.mem_singleton.mp hr ▸ hx
    · rcases Has.of_setWorker (.inr hr) with hr | hr
      · exact hr
      · cases hr

/-- A turn leaves the pool with its run and its round. -/
theorem Turn.house (h : p.Turn i q now p' q' ns deed) : p'.run = p.run ∧ p'.round = p.round := by
  cases h <;> exact ⟨rfl, rfl⟩

end Pool

namespace Journey

variable {j j' : Journey} {kind : Move → Prop}

/-- The events of a journey. -/
def events (j : Journey) : List Event := j.notices.filterMap Notice.event?

/-- **The pool works for the run and its round.** -/
structure Housed (j : Journey) : Prop where
  run : j.course.pool.run = j.course.run
  round : j.course.pool.round = j.round

/-- **The events that a move tells**: each names the run, and a completed task is told by a
worker that has its result. -/
structure Telling (j : Journey) (es : List Event) : Prop where
  run : ∀ e ∈ es, e.run? = some j.course.run
  completer : ∀ e ∈ es, ∀ session status,
    e.completer? j.course.run = some (session, status) →
      ∃ r, j.course.pool.Has r ∧ r.session = session ∧ r.status = status

theorem telling_nil : j.Telling [] := ⟨List.forall_mem_nil _, List.forall_mem_nil _⟩

/-- One event is told, and not of a completed task. -/
theorem telling_singleton {e : Event} (hrun : e.run? = some j.course.run)
    (he : e.completer? j.course.run = none) : j.Telling [e] := by
  refine ⟨List.forall_mem_singleton.mpr hrun, List.forall_mem_singleton.mpr ?_⟩
  intro session status hcomp
  simp [he] at hcomp

/-- A pool is housed as long as the run and the round stay and it keeps its own. -/
theorem Housed.of_same (h : j.Housed) (hrun : j'.course.run = j.course.run)
    (hround : j'.round = j.round) (hpr : j'.course.pool.run = j.course.pool.run)
    (hpn : j'.course.pool.round = j.course.pool.round) : j'.Housed :=
  ⟨(hpr.trans h.run).trans hrun.symm, (hpn.trans h.round).trans hround.symm⟩

/-- A new round has a pool of its own. -/
theorem housed_beginRound {m : Moment} {ns : List Notice} {call : Call} :
    (j.heard (j.course.beginRound m).1 ns call).Housed := by
  constructor
  · change (j.course.beginRound m).1.pool.run = (j.course.beginRound m).1.state.runId
    rw [Course.pool_beginRound, Course.state_beginRound]
    rfl
  · change (j.course.beginRound m).1.pool.round = (j.course.beginRound m).1.state.round
    rw [Course.pool_beginRound, Course.state_beginRound]
    rfl

/-- A stride that finds a round unbalanced counts it, and tells nothing. -/
theorem event?_checkDrained (c : Course) (q : Queue Task) (now : Instant) :
    (c.checkDrained q now).2.filterMap Notice.event? = [] := by
  unfold Course.checkDrained
  dsimp only
  split <;> rfl

/-- **Every move leaves the pool with the run and its round.** -/
theorem Housed.move {m : Move} (h : j.Housed) (hm : j.move? m = some j') : j'.Housed := by
  cases m with
  | own m =>
    obtain ⟨c', q', ns, hstride, rfl⟩ := move?_own.mp hm
    cases hstride <;> exact h.of_same rfl rfl rfl rfl
  | work i now =>
    obtain ⟨p, q', ns, hstep, rfl⟩ := move?_work.mp hm
    obtain ⟨hrun, hround⟩ := (Pool.turn_of_step? hstep).house
    exact h.of_same rfl rfl hrun hround
  | delegated i r =>
    obtain ⟨d, hd, rfl⟩ := move?_delegated.mp hm
    obtain ⟨w, t, hw, hs⟩ := Pool.delegating?_eq_some hd
    rw [Pool.delegated_eq hw hs]
    exact h.of_same rfl rfl rfl rfl
  | lost i =>
    obtain ⟨d, hd, rfl⟩ := move?_lost.mp hm
    obtain ⟨w, t, hw, -⟩ := Pool.delegating?_eq_some hd
    rw [Pool.lose_eq hw]
    exact h.of_same rfl rfl rfl rfl
  | answered a m =>
    obtain ⟨r, c, ns, hreply, rfl⟩ := reply_of_move? hm
    cases hreply with
    | recorded | continued => exact housed_beginRound
    | recalled | planned | proceeds | stops | completed | refused | failed =>
      exact h.of_same rfl rfl rfl rfl

/-- **A result is brought by a delegation that comes back**, and by nothing else. -/
theorem has_of_move? {m : Move} {r : TaskResult} (hm : j.move? m = some j')
    (hr : j'.course.pool.Has r) : j.course.pool.Has r ∨
      ∃ i res task, m = .delegated i res ∧ r = .ofSubAgent task res := by
  cases m with
  | own m =>
    obtain ⟨c', q', ns, hstride, rfl⟩ := move?_own.mp hm
    cases hstride with
    | hire => exact .inl hr.of_hire
    | publish | published | dismiss | dismissed | hired | drained | leave => exact .inl hr
  | work i now =>
    obtain ⟨p, q', ns, hstep, rfl⟩ := move?_work.mp hm
    exact .inl ((Pool.turn_of_step? hstep).has hr)
  | delegated i res =>
    obtain ⟨d, hd, rfl⟩ := move?_delegated.mp hm
    obtain ⟨w, t, hw, hs⟩ := Pool.delegating?_eq_some hd
    rw [Pool.delegated_eq hw hs] at hr
    refine hr.of_setWorker.imp id fun hres => ?_
    exact ⟨i, res, t.id, rfl, (Option.some.inj hres).symm⟩
  | lost i =>
    obtain ⟨d, hd, rfl⟩ := move?_lost.mp hm
    obtain ⟨w, t, hw, -⟩ := Pool.delegating?_eq_some hd
    rw [Pool.lose_eq hw] at hr
    rcases hr.of_setWorker with hr | hr
    · exact .inl hr
    · cases hr
  | answered a m =>
    obtain ⟨req, c, ns, hreply, rfl⟩ := reply_of_move? hm
    cases hreply with
    | recorded | continued =>
      have hempty : (j.course.beginRound m).1.pool.Has r := hr
      rw [Course.pool_beginRound] at hempty
      exact absurd hempty Pool.has_empty
    | recalled | planned | proceeds | stops | completed | refused | failed => exact .inl hr

/-- A stride tells at most that the tasks are on their way. -/
theorem telling_stride {m : Moment} {c : Course} {q : Queue Task} {ns : List Notice}
    (h : j.course.Stride j.queue m c q ns) : j.Telling (ns.filterMap Notice.event?) := by
  cases h with
  | publish | published | dismiss | hire | hired | leave => exact telling_nil
  | drained =>
    rw [event?_checkDrained]
    exact telling_nil
  | dismissed => exact telling_singleton rfl rfl

/-- **A worker tells at most that a task is completed**, and only with its result in hand. -/
theorem telling_turn {i : Nat} {now : Instant} {p : Pool} {q : Queue Task} {ns : List Notice}
    {deed : Option Deed} (hrun : j.course.pool.run = j.course.run)
    (h : j.course.pool.Turn i j.queue now p q ns deed) :
    j.Telling (ns.filterMap Notice.event?) := by
  cases h with
  | task | sentinel | leave | collect | ack | refused => exact telling_nil
  | @announce w d r hw hs =>
    constructor
    · refine List.forall_mem_singleton.mpr ?_
      rw [← hrun]
      rfl
    · refine List.forall_mem_singleton.mpr fun session status hcomp => ?_
      refine ⟨r, .inr ⟨w, List.mem_of_getElem? hw, by rw [hs]; rfl⟩, ?_⟩
      have hpair : some (r.session, r.status) = some (session, status) :=
        (if_pos hrun).symm.trans hcomp
      exact Prod.mk.inj (Option.some.inj hpair)

/-- A reply tells how the run goes on, or how it ended. -/
theorem telling_reply {m : Moment} {r : CourseRequest} {a : CourseAnswer} {c : Course}
    {ns : List Notice} (h : j.course.Reply m r a c ns) :
    j.Telling (ns.filterMap Notice.event?) := by
  cases h with
  | recorded | continued => exact telling_singleton rfl rfl
  | recalled | planned | refused => exact telling_nil
  | proceeds | stops | completed => exact telling_singleton rfl rfl
  | failed =>
    unfold Course.failureNotices
    split
    · exact telling_singleton rfl rfl
    · exact telling_nil

/-- **What a move tells comes behind what was told.** -/
theorem tells_of_move? {m : Move} (h : j.Housed) (hm : j.move? m = some j') :
    ∃ ns, j'.notices = j.notices ++ ns ∧ j.Telling (ns.filterMap Notice.event?) := by
  cases m with
  | own m =>
    obtain ⟨c', q', ns, hstride, rfl⟩ := move?_own.mp hm
    exact ⟨ns, rfl, telling_stride hstride⟩
  | work i now =>
    obtain ⟨p, q', ns, hstep, rfl⟩ := move?_work.mp hm
    exact ⟨ns, rfl, telling_turn h.run (Pool.turn_of_step? hstep)⟩
  | delegated i r =>
    obtain ⟨d, -, rfl⟩ := move?_delegated.mp hm
    exact ⟨[], rfl, telling_nil⟩
  | lost i =>
    obtain ⟨d, -, rfl⟩ := move?_lost.mp hm
    exact ⟨[], rfl, telling_nil⟩
  | answered a m =>
    obtain ⟨r, c, ns, hreply, rfl⟩ := reply_of_move? hm
    exact ⟨ns, rfl, telling_reply hreply⟩

/-- A run at its outset has told that it has started. -/
theorem events_of_embark {run : RunId} {mission : String} {workers limit : Nat}
    {delegation : Delegation} {now : Instant} {q : Queue Task} {j₀ : Journey}
    (h : embark run mission workers limit delegation now q = .ok j₀) :
    j₀.events = [.runStarted run mission workers limit now] := by
  obtain ⟨hw, hl, -⟩ := embark_eq_ok h
  rw [embark, Course.begin, if_neg (by omega), if_neg (by omega)] at h
  obtain rfl := Except.ok.inj h
  rfl

end Journey

/-! ### Ventures -/

/-- A run, the spawns its workers wait for, and what the bus has carried. -/
structure Venture where
  journey : Journey
  /-- The budget of a spawn that is given none. -/
  standard : Span
  /-- The spawn that a worker waits for. -/
  spawns : Nat → Option Spawn
  /-- The events, in the order in which they were published. -/
  log : List Event

namespace Venture

/-- What can happen in a venture next. -/
inductive Act
  /-- The run makes a move. -/
  | move (m : Move)
  /-- The spawn that a worker waits for begins. -/
  | spawn (i : Nat) (fresh : String) (now : Instant)
  /-- The spawn of a worker takes an answer, or is dropped. -/
  | input (i : Nat) (x : SpawnInput) (now : Instant)
  /-- Somebody else publishes an event. -/
  | aside (e : Event)

/-- The act is no move of the run, or one of a kind. -/
def Act.Of (kind : Move → Prop) : Act → Prop
  | move m => kind m
  | spawn .. | input .. | aside _ => True

/-- The run. -/
def run (v : Venture) : RunId := v.journey.course.run

/-- **A delegation comes back with what its spawn has found**, and breaks off where its spawn
has. -/
def allows (v : Venture) : Move → Bool
  | .own _ | .work .. | .answered .. => true
  | .delegated i r => (v.spawns i).any (·.stage == .finished r)
  | .lost i => (v.spawns i).any (·.stage.isBroken)

/-- The run has made a move: what it told goes to the bus, and where the move ends a
delegation its spawn is gone. -/
def follow (v : Venture) (m : Move) (j : Journey) : Venture :=
  { v with
    journey := j
    spawns := match m.ends? with
      | some i => Function.update v.spawns i none
      | none => v.spawns
    log := v.log ++ (j.notices.drop v.journey.notices.length).filterMap Notice.event? }

/-- A worker waits for a spawn, and what the spawn tells goes to the bus. -/
def await (v : Venture) (i : Nat) (s : Spawn) (acts : List SpawnAct) : Venture :=
  { v with spawns := Function.update v.spawns i (some s), log := v.log ++ Spawn.events acts }

/-- **What an act makes of a venture**, if it can happen now. Nobody else tells of the run. -/
def act? (v : Venture) : Act → Option Venture
  | .move m => if v.allows m then (v.journey.move? m).map (v.follow m) else none
  | .spawn i fresh now =>
    match v.spawns i with
    | some _ => none
    | none =>
      (v.journey.course.pool.request? i).map fun spec =>
        let (s, acts) := Spawn.begin spec v.standard fresh now
        v.await i s acts
  | .input i x now =>
    (v.spawns i).map fun s =>
      let (s, acts) := s.receive x now
      v.await i s acts
  | .aside e => if e.run? = some v.run then none else some { v with log := v.log ++ [e] }

/-- One act, where the moves are of a kind. -/
def Step (kind : Move → Prop) (v v' : Venture) : Prop := ∃ a : Act, a.Of kind ∧ v.act? a = some v'

/-- **One venture leads to another**, where the moves are of a kind. -/
abbrev Reaches (kind : Move → Prop) : Venture → Venture → Prop :=
  Relation.ReflTransGen (Step kind)

/-- Acts one after another. -/
def acts? (v : Venture) : List Act → Option Venture
  | [] => some v
  | a :: as => (v.act? a).bind (·.acts? as)

/-- A run that is called for, before any of its workers waits for a spawn. -/
def embark (run : RunId) (mission : String) (workers limit : Nat) (delegation : Delegation)
    (standard : Span) (now : Instant) (q : Queue Task) : Except CourseFault Venture :=
  (Journey.embark run mission workers limit delegation now q).map fun j =>
    ⟨j, standard, fun _ => none, j.events⟩

variable {v v' : Venture} {kind : Move → Prop}

/-- Acts that can happen one after another lead somewhere. -/
theorem Reaches.of_acts? {as : List Act} (has : ∀ a ∈ as, a.Of kind) (h : v.acts? as = some v') :
    v.Reaches kind v' := by
  induction as generalizing v with
  | nil =>
    obtain rfl := Option.some.inj h
    exact .refl
  | cons a as ih =>
    obtain ⟨x, hx, hrest⟩ := Option.bind_eq_some_iff.mp h
    have htail := ih (fun a ha => has a (List.mem_cons_of_mem _ ha)) hrest
    exact Relation.ReflTransGen.head ⟨a, has a List.mem_cons_self, hx⟩ htail

/-! ### What an act is -/

theorem act?_move {m : Move} : v.act? (.move m) = some v' ↔
    v.allows m = true ∧ ∃ j, v.journey.move? m = some j ∧ v' = v.follow m j := by
  simp only [act?, Option.ite_none_right_eq_some, Option.map_eq_some_iff]
  exact and_congr_right fun _ => exists_congr fun j => and_congr_right fun _ => eq_comm

theorem act?_spawn {i : Nat} {fresh : String} {now : Instant} :
    v.act? (.spawn i fresh now) = some v' ↔ v.spawns i = none ∧
      ∃ spec, v.journey.course.pool.request? i = some spec ∧
        v' = v.await i (Spawn.begin spec v.standard fresh now).1
          (Spawn.begin spec v.standard fresh now).2 := by
  cases hs : v.spawns i with
  | some s => simp [act?, hs]
  | none => simp [act?, hs, eq_comm]

theorem act?_input {i : Nat} {x : SpawnInput} {now : Instant} :
    v.act? (.input i x now) = some v' ↔ ∃ s, v.spawns i = some s ∧
      v' = v.await i (s.receive x now).1 (s.receive x now).2 := by
  simp only [act?, Option.map_eq_some_iff]
  exact exists_congr fun s => and_congr_right fun _ => eq_comm

theorem act?_aside {e : Event} : v.act? (.aside e) = some v' ↔
    e.run? ≠ some v.run ∧ v' = { v with log := v.log ++ [e] } := by
  simp [act?, eq_comm]

/-- A spawn a worker asks for belongs under the root session of the run. -/
theorem parent_of_request? {p : Pool} {i : Nat} {spec : SubAgentSpec}
    (h : p.request? i = some spec) : spec.parent = p.run.rootSession := by
  unfold Pool.request? at h
  split at h
  · split at h
    · obtain rfl := Option.some.inj h
      rfl
    · cases h
  · cases h

/-! ### What is carried along -/

/-- **Whatever the workers of a run have in hand comes from spawns that told of themselves**,
and what names the run on the bus are the events of its journey. -/
structure Attended (v : Venture) : Prop where
  housed : v.journey.Housed
  spawns : ∀ i s, v.spawns i = some s → s.Serving v.run v.log
  results : ∀ r, v.journey.course.pool.Has r → Attested v.run r.session r.status v.log
  vouched : Vouched v.run v.log
  events : v.log.filter (fun e => e.run? = some v.run) = v.journey.events

/-- What names no run of ours is no completed task of it. -/
theorem completer?_of_run?_ne {e : Event} {run : RunId} (h : e.run? ≠ some run) :
    e.completer? run = none := by
  cases e with
  | taskCompleted => exact if_neg fun heq => h (congrArg some heq)
  | _ => rfl

/-- A move of the run begins no spawn. -/
theorem spawns_follow {m : Move} {j : Journey} {i : Nat} {s : Spawn}
    (h : (v.follow m j).spawns i = some s) : v.spawns i = some s := by
  unfold follow at h
  cases hm : m.ends? with
  | none => simpa only [hm] using h
  | some k =>
    simp only [hm, Function.update_apply] at h
    split at h
    · cases h
    · exact h

/-- **What others tell** leaves the run as it is. -/
theorem Attended.hear {es : List Event} (h : v.Attended) (hes : ∀ e ∈ es, e.run? ≠ some v.run)
    {spawns : Nat → Option Spawn}
    (hspawns : ∀ i s, spawns i = some s → s.Serving v.run (v.log ++ es)) :
    ({ v with spawns, log := v.log ++ es } : Venture).Attended := by
  refine ⟨h.housed, hspawns, fun r hr => ?_, ?_, ?_⟩
  · exact (h.results r hr).mono (List.sublist_append_left _ _)
  · exact h.vouched.append_of_none fun e he => completer?_of_run?_ne (hes e he)
  · have hnone : es.filter (fun e => e.run? = some v.run) = [] :=
      List.filter_eq_nil_iff.mpr fun e he => by simpa using hes e he
    have happend := List.filter_append (p := fun e : Event => decide (e.run? = some v.run)) v.log es
    rw [hnone, List.append_nil, h.events] at happend
    exact happend

/-- A spawn that works for the run takes its place, and tells something of itself. -/
theorem Attended.await {i : Nat} {s : Spawn} {acts : List SpawnAct} (h : v.Attended)
    (hs : s.Serving v.run (v.log ++ Spawn.events acts))
    (hes : ∀ e ∈ Spawn.events acts, e.run? = none) : (v.await i s acts).Attended := by
  refine h.hear (fun e he => by simp [hes e he]) fun k x hx => ?_
  rcases eq_or_ne k i with rfl | hne
  · rw [Function.update_self] at hx
    exact Option.some.inj hx ▸ hs
  · rw [Function.update_of_ne hne] at hx
    exact (h.spawns k x hx).mono (List.sublist_append_left _ _)

/-- What comes back from a delegation is honest and attested. -/
theorem Attended.of_allows {m : Move} (h : v.Attended) (ha : v.allows m = true) :
    m.IsHonest ∧ ∀ i r, m = .delegated i r → Attested v.run r.session r.status v.log := by
  cases m with
  | delegated i r =>
    obtain ⟨s, hs, hstage⟩ := (Option.any_eq_true _ _).mp ha
    obtain ⟨hhonest, hattested⟩ := (h.spawns i s hs).finished r (beq_iff_eq.mp hstage)
    refine ⟨hhonest, fun k x hx => ?_⟩
    obtain ⟨-, rfl⟩ := Move.delegated.inj hx
    exact hattested
  | own | work | lost | answered => exact ⟨trivial, fun i r hm => (by cases hm)⟩

/-- **A move of the run** keeps its workers attended. -/
theorem Attended.follow {m : Move} {j : Journey} (h : v.Attended) (ha : v.allows m = true)
    (hm : v.journey.move? m = some j) : (v.follow m j).Attended := by
  obtain ⟨ns, hns, htelling⟩ := Journey.tells_of_move? h.housed hm
  have hrun : (v.follow m j).run = v.run := (Journey.sameRun_of_move? hm).runId
  have hlog : (v.follow m j).log = v.log ++ ns.filterMap Notice.event? := by
    rw [Venture.follow, hns, List.drop_left]
  have hsub : v.log.Sublist (v.follow m j).log := hlog ▸ List.sublist_append_left _ _
  refine ⟨h.housed.move hm, fun i s hs => ?_, fun r hr => ?_, ?_, ?_⟩
  · rw [hrun]
    exact (h.spawns i s (spawns_follow hs)).mono hsub
  · rw [hrun]
    refine Attested.mono ?_ hsub
    obtain hr | ⟨i, res, task, rfl, rfl⟩ := Journey.has_of_move? hm hr
    · exact h.results r hr
    · exact (h.of_allows ha).2 i res rfl
  · rw [hrun, hlog]
    refine h.vouched.append fun e he session status hcomp => ?_
    obtain ⟨r, hr, rfl, rfl⟩ := htelling.completer e he session status hcomp
    exact h.results r hr
  · have hall : (ns.filterMap Notice.event?).filter (fun e => e.run? = some v.run) =
        ns.filterMap Notice.event? :=
      List.filter_eq_self.mpr fun e he => decide_eq_true (htelling.run e he)
    rw [hrun, hlog, List.filter_append, h.events, hall, Journey.events, ← List.filterMap_append,
      ← hns]
    rfl

/-- **Every act** keeps the workers attended, and is no move or one that the journey makes with
an honest result. -/
theorem Attended.act {a : Act} (h : v.Attended) (ha : a.Of kind) (hact : v.act? a = some v') :
    v'.Attended ∧ v.journey.Reaches (fun m => kind m ∧ m.IsHonest) v'.journey := by
  cases a with
  | move m =>
    obtain ⟨hallows, j, hm, rfl⟩ := act?_move.mp hact
    exact ⟨h.follow hallows hm, .single ⟨m, ⟨ha, (h.of_allows hallows).1⟩, hm⟩⟩
  | spawn i fresh now =>
    obtain ⟨-, spec, hspec, rfl⟩ := act?_spawn.mp hact
    have hparent : spec.parent = v.run.rootSession := by
      rw [parent_of_request? hspec, h.housed.run]
      rfl
    refine ⟨h.await (Spawn.serving_begin hparent) ?_, .refl⟩
    exact List.forall_mem_singleton.mpr rfl
  | input i x now =>
    obtain ⟨s, hs, rfl⟩ := act?_input.mp hact
    have htaken := s.taken_of_receive x now
    exact ⟨h.await ((h.spawns i s hs).taken htaken) htaken.run?_eq_none, .refl⟩
  | aside e =>
    obtain ⟨he, rfl⟩ := act?_aside.mp hact
    refine ⟨h.hear (List.forall_mem_singleton.mpr he) fun i s hs => ?_, .refl⟩
    exact (h.spawns i s hs).mono (List.sublist_append_left _ _)

/-- **A venture makes no move its journey could not make.** Wherever acts lead, the workers are
attended and the journey has gone on by moves of the kind, with honest results. -/
theorem Attended.reaches (h : v.Attended) (hr : v.Reaches kind v') :
    v'.Attended ∧ v.journey.Reaches (fun m => kind m ∧ m.IsHonest) v'.journey := by
  induction hr with
  | refl => exact ⟨h, .refl⟩
  | tail _ hs ih =>
    obtain ⟨a, ha, hact⟩ := hs
    obtain ⟨hattended, hreach⟩ := ih
    obtain ⟨hnext, hmore⟩ := hattended.act ha hact
    exact ⟨hnext, hreach.trans hmore⟩

variable {run : RunId} {mission : String} {workers limit : Nat} {delegation : Delegation}
  {standard : Span} {now : Instant} {q : Queue Task} {v₀ : Venture}

/-- A venture that is called for begins with a journey, and its workers are attended: there are
none yet. -/
theorem attended_of_embark
    (h : embark run mission workers limit delegation standard now q = .ok v₀) :
    Journey.embark run mission workers limit delegation now q = .ok v₀.journey ∧
      v₀.Attended := by
  obtain ⟨j, hj, rfl⟩ : ∃ j, Journey.embark run mission workers limit delegation now q = .ok j ∧
      ⟨j, standard, fun _ => none, j.events⟩ = v₀ := by
    unfold embark at h
    cases hj : Journey.embark run mission workers limit delegation now q with
    | error e =>
      rw [hj] at h
      cases h
    | ok j =>
      rw [hj] at h
      exact ⟨j, rfl, Except.ok.inj h⟩
  have hevents := Journey.events_of_embark hj
  obtain ⟨-, -, ns, rfl⟩ := Journey.embark_eq_ok hj
  refine ⟨hj, ⟨rfl, rfl⟩, fun i s hs => ?_, fun r hr => ?_, ?_, ?_⟩
  · cases hs
  · exact absurd hr Pool.has_empty
  · change Vouched _ (Journey.events _)
    rw [hevents]
    exact vouched_nil.append_of_none (List.forall_mem_singleton.mpr rfl)
  · change List.filter _ (Journey.events _) = _
    rw [hevents]
    exact List.filter_eq_self.mpr (List.forall_mem_singleton.mpr (decide_eq_true rfl))

/-! ### Runs whose delegations come back -/

/-- How the spawn goes of a worker that is to come back with a result. -/
def spawnActs (i : Nat) (r : SubAgentResult) : List Act :=
  [.spawn i (r.session.suffix?.getD "") default, .input i (.created (.ok ())) default,
    .input i (.ended (.returned ⟨r.output, r.isSuccess, r.error⟩)) default,
    .input i (.closed (.ok ())) default]

/-- The moves of a run, each delegation that comes back behind its spawn. -/
def actsOf (ms : List Move) : List Act :=
  ms.flatMap fun m =>
    match m with
    | .delegated i r => spawnActs i r ++ [.move m]
    | .own _ | .work .. | .lost _ | .answered .. => [.move m]

/-- Such acts make no other moves. -/
theorem of_actsOf {ms : List Move} (h : ∀ m ∈ ms, kind m) : ∀ a ∈ actsOf ms, a.Of kind := by
  intro a ha
  obtain ⟨m, hm, ha⟩ := List.mem_flatMap.mp ha
  have hkind := h m hm
  cases m with
  | delegated i r =>
    rcases List.mem_append.mp ha with ha | ha
    · simp only [spawnActs, List.mem_cons, List.not_mem_nil, or_false] at ha
      rcases ha with rfl | rfl | rfl | rfl <;> trivial
    · obtain rfl := List.mem_singleton.mp ha
      exact hkind
  | own | work | lost | answered =>
    obtain rfl := List.mem_singleton.mp ha
    exact hkind

end Venture

end Roundtable

import Roundtable.Proofs.Course.Chronicle
import Roundtable.Proofs.Queue.Neighbours

/-!
# A run that is started again

Who starts a run under an id that is taken is refused as soon as its mission is to be
recorded: **a store records a round once** (`Roundtable.Store.HasMission.persist_eq`). The
latecomer plans nothing, publishes nothing and judges nothing; it fails
(`Roundtable.Journey.Barred`), and until it leaves the queue is as others have made it.

**But every run takes its topic away when it leaves**, and the topic of the latecomer is the
one of the run that has the id. What waits or is in flight there can never be acknowledged
again, while all other topics are spared (`Roundtable.Journey.latecomer`). A worker of the
first run that comes back with its result finds its delivery unknown
(`Roundtable.Journey.latecomer_evicts`).

The others are not modelled here but for what they can do to the queue: between two moves of
the latecomer anything may happen to it (`Roundtable.Journey.Shared`).
-/

namespace Roundtable

/-! ### Missions that were recorded -/

/-- The mission of the run was recorded. -/
def Store.HasMission (s : Store) (run : RunId) : Prop :=
  ∃ records, s.Keeps run records ∧ ∃ r ∈ records, r.round = 0

/-- **A mission is not recorded again.** -/
theorem Store.HasMission.persist_eq {s : Store} {run : RunId} (h : s.HasMission run)
    (state : RunState) (now : Instant) :
    s.persist run 0 state now = (.error (.alreadyExists run 0), s) := by
  obtain ⟨records, hkeeps, r, hr, hround⟩ := h
  rw [← hround]
  exact hkeeps.persist_again hr state now

/-- A mission that is recorded was recorded. -/
theorem Store.hasMission_of_persist {s s' : Store} {run : RunId} {state : RunState}
    {now : Instant} (hs : s.IsOpen) (hnew : s.history run = .ok [])
    (h : s.persist run 0 state now = (.ok (), s')) : s'.HasMission run := by
  obtain ⟨-, -, -, hkeeps⟩ := (Store.keeps_nil hs hnew).persist (by decide) h
  exact ⟨_, hkeeps, _, MemoryStore.mem_insertRecord.mpr (.inl rfl), rfl⟩

/-- A store that holds something of round zero has the mission. -/
theorem Store.Holds.hasMission {s : Store} {run : RunId} {log : List (Nat × RunState)}
    (h : s.Holds run log) (hlog : ∃ x ∈ log, x.1 = 0) : s.HasMission run := by
  obtain ⟨records, hkeeps, rfl, -⟩ := h
  obtain ⟨x, hx, hzero⟩ := hlog
  obtain ⟨r, hr, rfl⟩ := List.mem_map.mp hx
  exact ⟨records, hkeeps, r, hr, hzero⟩

/-- **The call comes late**: if it is to record something, a store answers that has the
mission already. -/
def Call.IsLate (run : RunId) (call : Call) : Prop :=
  ∀ round state, call.request = .persist round state → ∃ (s : Store) (now : Instant),
    s.HasMission run ∧ call.answer = .persisted (s.persist run round state now).1

namespace Journey

/-! ### A queue that is shared -/

/-- **What happens next on a shared queue**: the run makes a move, all its calls being of a
kind, or somebody else does something with the queue. -/
inductive Shared (kind : Call → Prop) (j : Journey) : Journey → Prop
  | move {m : Move} {j' : Journey} (hm : j.move? m = some j') (hc : ∀ c ∈ j'.calls, kind c) :
      Shared kind j j'
  | other {q : Queue Task} (hq : j.queue.Step q) : Shared kind j { j with queue := q }

variable {j j' : Journey} {run : RunId}

/-- Moves one after another are made on a shared queue too. -/
theorem shared_of_moves? {kind : Call → Prop} {ms : List Move} (h : j.moves? ms = some j')
    (hc : ∀ c ∈ j'.calls, kind c) : Relation.ReflTransGen (Shared kind) j j' := by
  have hall : (∀ c ∈ j.calls, kind c) ∧ Relation.ReflTransGen (Shared kind) j j' := by
    induction ms generalizing j with
    | nil =>
      obtain rfl := Option.some.inj h
      exact ⟨hc, .refl⟩
    | cons m ms ih =>
      obtain ⟨a, ha, hrest⟩ := Option.bind_eq_some_iff.mp h
      obtain ⟨hkind, hreach⟩ := ih hrest
      obtain ⟨call, hcalls, -⟩ := calls_of_move? ha
      refine ⟨fun c hmem => hkind c ?_, .head (.move ha hkind) hreach⟩
      rw [hcalls]
      exact List.mem_append_left _ hmem
  exact hall.2

/-! ### The latecomer -/

/-- What a latecomer asks and is answered. -/
def refusal (run : RunId) (state : RunState) : Call :=
  ⟨.persist 0 state, .persisted (.error (.alreadyExists run 0))⟩

/-- Why a latecomer fails. -/
def lateness (run : RunId) : RunFailure :=
  ⟨.persistence, "Failed to record mission: " ++ (StoreError.alreadyExists run 0).message⟩

/-- **The run is barred**: it asks for nothing but to record its mission, nobody works for
it, and once it was refused it has failed. -/
structure Barred (run : RunId) (j : Journey) : Prop where
  runId : j.course.run = run
  round : j.round = 0
  workers : j.course.pool.workers = []
  calls : ∀ c ∈ j.calls, ∃ state, c = refusal run state
  stage : match j.course.stage with
    | .recording => True
    | .failing | .leaving | .over =>
      j.course.state.status = .failed ∧ j.course.state.error = some (lateness run)
    | _ => False

/-- A late call to record the mission is refused. -/
theorem eq_refusal {state : RunState} {a : CourseAnswer}
    (h : Call.IsLate run ⟨.persist 0 state, a⟩) :
    (⟨.persist 0 state, a⟩ : Call) = refusal run state := by
  obtain ⟨s, now, hmission, ha⟩ := h 0 state rfl
  change a = _ at ha
  rw [ha, hmission.persist_eq]
  rfl

/-- Nobody works for a run that is barred. -/
theorem Barred.not_working (h : j.Barred run) {i : Nat} {w : PoolWorker}
    (hw : j.course.pool.workers[i]? = some w) : False := by
  rw [h.workers] at hw
  cases hw

/-- **An answer bars a run that comes late**, and does nothing to the queue. -/
theorem Barred.answered {a : CourseAnswer} {m : Moment} (h : j.Barred run)
    (hm : j.move? (.answered a m) = some j') (hc : ∀ c ∈ j'.calls, Call.IsLate run c) :
    j'.Barred run ∧ j'.queue = j.queue ∧ j'.course.isOver = false := by
  obtain ⟨r, c, ns, hreply, rfl⟩ := reply_of_move? hm
  have hlate : Call.IsLate run ⟨r, a⟩ := hc _ (List.mem_append_right _ (List.mem_singleton_self _))
  have hcalls : ∀ {state : RunState}, r = .persist 0 state →
      ∀ x ∈ j.calls ++ [⟨r, a⟩], ∃ state, x = refusal run state := by
    rintro state rfl x hx
    rcases List.mem_append.mp hx with hx | hx
    · exact h.calls x hx
    · exact ⟨state, (List.mem_singleton.mp hx).trans (eq_refusal hlate)⟩
  have hstage := h.stage
  cases hreply with
  | recorded hs =>
    -- The answer would be that the mission is recorded now.
    have hanswer := congrArg Call.answer (eq_refusal hlate)
    cases hanswer
  | refused hr =>
    cases hr with
    | @mission e hs =>
      obtain rfl : e = .alreadyExists run 0 := by
        have hanswer := congrArg Call.answer (eq_refusal hlate)
        cases hanswer
        rfl
      exact ⟨⟨h.runId, h.round, h.workers, hcalls rfl, rfl, rfl⟩, rfl, rfl⟩
    | nothing hs | memory hs | plan hs | judge hs | round hs =>
      rw [hs] at hstage
      exact hstage.elim
  | failed hs =>
    rw [hs] at hstage
    have hzero : j.course.state.round = 0 := h.round
    exact ⟨⟨h.runId, h.round, h.workers, hcalls (by rw [hzero]), hstage⟩, rfl, rfl⟩
  | recalled hs | planned hs | proceeds hs | stops hs | continued hs | completed hs =>
    rw [hs] at hstage
    exact hstage.elim

/-- **A run that is barred stays so**, and does nothing to the queue before it leaves. -/
theorem Barred.move {m : Move} (h : j.Barred run) (hm : j.move? m = some j')
    (hc : ∀ c ∈ j'.calls, Call.IsLate run c) : j'.Barred run ∧
      (j'.queue = j.queue ∧ j'.course.isOver = false ∨
        j'.course.isOver = true ∧ j'.queue = (j.queue.remove run.topic).2) := by
  cases m with
  | own m =>
    have hstage := h.stage
    obtain ⟨c', q', ns, hstride, rfl⟩ := move?_own.mp hm
    cases hstride with
    | leave hs =>
      rw [hs] at hstage
      exact ⟨⟨h.runId, h.round, h.workers, h.calls, hstage⟩, .inr ⟨rfl, by rw [← h.runId]; rfl⟩⟩
    | publish hs | published hs | dismiss hs | dismissed hs | hire hs | hired hs | drained hs =>
      rw [hs] at hstage
      exact hstage.elim
  | work i now =>
    obtain ⟨p, q', ns, hstep, rfl⟩ := move?_work.mp hm
    obtain ⟨w, w', hw, -, -⟩ := (Pool.turn_of_step? hstep).worker
    exact (h.not_working hw).elim
  | delegated i r =>
    obtain ⟨d, hd, rfl⟩ := move?_delegated.mp hm
    obtain ⟨w, a, hw, -⟩ := Pool.delegating?_eq_some hd
    exact (h.not_working hw).elim
  | lost i =>
    obtain ⟨d, hd, rfl⟩ := move?_lost.mp hm
    obtain ⟨w, a, hw, -⟩ := Pool.delegating?_eq_some hd
    exact (h.not_working hw).elim
  | answered a m =>
    obtain ⟨hbarred, hqueue⟩ := h.answered hm hc
    exact ⟨hbarred, .inl hqueue⟩

/-- What others do with the queue keeps a run that is barred on its track. -/
theorem Barred.onTrack (h : j.Barred run) (ht : j.OnTrack) {q : Queue Task} (hq : q.Sound) :
    ({ j with queue := q } : Journey).OnTrack := by
  refine ⟨hq, ht.paced, ?_⟩
  have hstage := h.stage
  have hmanned := ht.manned
  unfold Manned at hmanned ⊢
  cases hs : j.course.stage with
  | recording | failing | leaving | «over» =>
    rw [hs] at hmanned
    exact hmanned
  | recalling | planning | dispatching | dismissing | hiring | draining | judging | storing =>
    rw [hs] at hstage
    exact hstage.elim

/-- **Whatever happens to the queue meanwhile**, a run that is barred stays so. -/
theorem Barred.shared (h : j.Barred run) (ht : j.OnTrack)
    (hj : Relation.ReflTransGen (Shared (Call.IsLate run)) j j') :
    j'.Barred run ∧ j'.OnTrack := by
  induction hj with
  | refl => exact ⟨h, ht⟩
  | tail _ hs ih =>
    obtain ⟨h, ht⟩ := ih
    cases hs with
    | move hm hc => exact ⟨(h.move hm hc).1, (ht.move hm).1⟩
    | other hq =>
      exact ⟨⟨h.runId, h.round, h.workers, h.calls, h.stage⟩, h.onTrack ht (hq.sound ht.sound)⟩

variable {mission : String} {workers limit : Nat} {delegation : Delegation} {now : Instant}
  {q : Queue Task}

/-- A run at its outset is barred already, if all it asks is late. -/
theorem barred_of_embark {j₀ : Journey}
    (h : embark run mission workers limit delegation now q = .ok j₀) : j₀.Barred run := by
  obtain ⟨-, -, ns, rfl⟩ := embark_eq_ok h
  exact ⟨rfl, rfl, rfl, fun c hc => (List.not_mem_nil hc).elim, trivial⟩

/-- **A run that is started again is refused, and takes the topic of the first one with
it.** Where the mission of the id is recorded, and whatever others do with the queue
meanwhile, the latecomer comes to its end. It asks only to record its mission, is refused
each time, and ends as failed. Its moves do nothing to the queue but for the last one: that
takes the topic away, so that what waited or was in flight there can never be acknowledged
again, and spares all other topics. -/
theorem latecomer (hq : q.Reachable) (hl : limit < 2 ^ 32) (hw : 0 < workers)
    (hpos : 0 < limit) :
    ∃ j₀, embark run mission workers limit delegation now q = .ok j₀ ∧
      ∀ j, Relation.ReflTransGen (Shared (Call.IsLate run)) j₀ j →
        j.Ends ∧ (∀ c ∈ j.calls, ∃ state, c = refusal run state) ∧
        (j.course.isOver = true →
          j.course.state.status = .failed ∧ j.course.state.error = some (lateness run)) ∧
        ∀ m j', j.move? m = some j' → (∀ c ∈ j'.calls, Call.IsLate run c) →
          j'.queue = j.queue ∧ j'.course.isOver = false ∨
          j'.course.isOver = true ∧ j'.queue.current? run.topic = none ∧
            (∀ d ∈ (j.queue.topicOf run.topic).ids, ∀ q',
              Relation.ReflTransGen Queue.Step j'.queue q' →
              q'.ack d = .error (.unknownDelivery d)) ∧
            ∀ other, other ≠ run.topic → j.queue.Spares j'.queue other := by
  obtain ⟨ns, hj₀⟩ := embark_of_pos run mission delegation now q hw hpos
  refine ⟨_, hj₀, fun j hj => ?_⟩
  obtain ⟨hbarred, hon⟩ :=
    (barred_of_embark hj₀).shared (OnTrack.embark hq.sound hl hj₀) hj
  refine ⟨hon.ends, hbarred.calls, fun hover => ?_, fun m j' hm hc => ?_⟩
  · have hstage := hbarred.stage
    rwa [Course.isOver_iff.mp hover] at hstage
  · rcases (hbarred.move hm hc).2 with hsame | ⟨hover, hqueue⟩
    · exact .inl hsame
    · rw [hqueue]
      exact .inr ⟨hover, Queue.current?_remove_self,
        fun d hd q' hq' => (Queue.lapsed_of_remove hon.sound hd).ack_eq hq',
        fun other hne => Queue.spares_remove hne⟩

/-- A store that has the mission answers a latecomer. -/
theorem isLate_refusal {s : Store} (h : s.HasMission run) (state : RunState) :
    (refusal run state).IsLate run := by
  intro round state' hr
  obtain ⟨rfl, rfl⟩ := CourseRequest.persist.inj hr
  exact ⟨s, default, h, by rw [h.persist_eq]; rfl⟩

/-- **A latecomer that is alone** is refused twice and leaves. -/
theorem exists_late {s : Store} {j₀ : Journey} (hs : s.HasMission run)
    (h : embark run mission workers limit delegation now q = .ok j₀) :
    ∃ j j', Relation.ReflTransGen (Shared (Call.IsLate run)) j₀ j ∧ j.queue = q ∧
      j.move? (.own default) = some j' ∧ (∀ c ∈ j'.calls, Call.IsLate run c) ∧
      j'.course.isOver = true := by
  obtain ⟨-, -, ns, rfl⟩ := embark_eq_ok h
  have hlate : ∀ {state state' : RunState}, ∀ c ∈ [refusal run state, refusal run state'],
      Call.IsLate run c := by
    intro state state' c hc
    rcases List.mem_pair.mp hc with rfl | rfl
    · exact isLate_refusal hs state
    · exact isLate_refusal hs state'
  exact ⟨_, _, shared_of_moves? (rfl : moves? _ (List.replicate 2
    (.answered (.persisted (.error (.alreadyExists run 0))) default)) = some _) hlate, rfl, rfl,
    hlate, rfl⟩

/-- A queue on which a consumer holds the first delivery. -/
def soloQueue : Queue Task :=
  ((Queue.empty.publish (default : RunId).topic default).2.next ⟨0, false⟩).2.2

theorem latecomer_solo : ∃ j₀ j, embark default "" 1 1 default default soloQueue = .ok j₀ ∧
    Relation.ReflTransGen (Shared (Call.IsLate default)) j₀ j ∧ j.course.isOver = true ∧
    j.course.state.status = .failed ∧ j.queue.ack 1 = .error (.unknownDelivery 1) := by
  have hq : soloQueue.Reachable :=
    .tail (.single (.enqueue .empty (default : RunId).topic (.item default))) (.next _ _)
  obtain ⟨j₀, hj₀, hlate⟩ : ∃ j₀, embark default "" 1 1 default default soloQueue = .ok j₀ ∧ _ :=
    latecomer hq (by decide) Nat.one_pos Nat.one_pos
  have hrecorded : (Store.memory .empty).persist default 0 default default =
      (.ok (), ((Store.memory .empty).persist default 0 default default).2) := rfl
  have hs := Store.hasMission_of_persist (s := .memory .empty) trivial rfl hrecorded
  obtain ⟨j, j', hj, hqueue, hm, hc, hover⟩ := exists_late hs hj₀
  have hj' := hj.tail (.move hm hc)
  obtain ⟨-, -, hfailed, -⟩ := hlate j' hj'
  obtain ⟨-, -, -, hmoves⟩ := hlate j hj
  rcases hmoves _ j' hm hc with ⟨-, hnot⟩ | ⟨-, -, hlapsed, -⟩
  · rw [hover] at hnot
    cases hnot
  · have hids : 1 ∈ (soloQueue.topicOf (default : RunId).topic).ids := by decide +kernel
    exact ⟨j₀, j', hj₀, hj', hover, (hfailed hover).1, hlapsed 1 (hqueue ▸ hids) _ .refl⟩

/-- How a run goes until its worker has the task of the first round. -/
def untilHeld : List Move :=
  [.answered (.persisted (.ok ())) default, .answered (.planned (.ok [default])) default] ++
    List.replicate 6 (.own default) ++ [.work 0 default]

/-- **A latecomer evicts the run that has the id**: the worker of the first run holds a
delivery that it could acknowledge, and cannot once the latecomer has left. -/
theorem latecomer_evicts : ∃ j₀ j₁ s d l₀ l,
    embark default "" 1 1 default default .empty = .ok j₀ ∧ j₀.Reaches Move.IsSafe j₁ ∧
    (Store.memory .empty).Serves default j₁.calls s ∧ s.HasMission default ∧
    j₁.course.pool.delegating? 0 = some d ∧ (∃ q, j₁.queue.ack d = .ok q) ∧
    embark default "" 1 1 default default j₁.queue = .ok l₀ ∧
    Relation.ReflTransGen (Shared (Call.IsLate default)) l₀ l ∧ l.course.isOver = true ∧
    l.queue.stats? (default : RunId).topic = none ∧
    l.queue.ack d = .error (.unknownDelivery d) := by
  have hsome : ((embark default "" 1 1 default default .empty).toOption.bind
      (·.moves? untilHeld)).any (fun j => j.recorded.any (·.1 == 0) &&
        (j.calls.foldlM (Store.answer? default default) (.memory .empty)).isSome &&
        (j.course.pool.delegating? 0).any fun d =>
          (j.queue.ack d).toOption.isSome &&
          (j.queue.topicOf (default : RunId).topic).ids.contains d) = true := by
    decide +kernel
  obtain ⟨ns, hj₀⟩ := embark_of_pos default "" default default .empty Nat.one_pos Nat.one_pos
  have hon := OnTrack.embark (Queue.Reachable.sound .refl) (by decide) hj₀
  rw [hj₀, Except.toOption, Option.bind_some] at hsome
  obtain ⟨j₁, hj₁, hend⟩ := (Option.any_eq_true _ _).mp hsome
  obtain ⟨hend, hheld⟩ := (Bool.and_eq_true _ _).mp hend
  obtain ⟨hrecorded, hserved⟩ := (Bool.and_eq_true _ _).mp hend
  obtain ⟨d, hd, hend⟩ := (Option.any_eq_true _ _).mp hheld
  obtain ⟨hack, hids⟩ := (Bool.and_eq_true _ _).mp hend
  obtain ⟨s, hs⟩ := Option.isSome_iff_exists.mp hserved
  have hserves := Store.serves_of_answer? hs
  have hopen : (Store.memory .empty).IsOpen := trivial
  have hreach : Reaches Move.IsSafe _ j₁ :=
    Reaches.of_moves? (by simp [untilHeld, Move.IsSafe]) hj₁
  have hon₁ := hon.reaches hreach
  have hchronicled := chronicled_of_reaches
    (fun _ hserves => (chronicled_of_embark hopen rfl hj₀ hserves).1) hon hreach hserves
  have hmission : s.HasMission default := by
    obtain ⟨x, hx, hzero⟩ := List.any_eq_true.mp hrecorded
    exact hchronicled.holds.hasMission ⟨x, hx, beq_iff_eq.mp hzero⟩
  obtain ⟨q, hq⟩ : ∃ q, j₁.queue.ack d = .ok q := by
    cases ha : j₁.queue.ack d with
    | error e => simp [ha, Except.toOption] at hack
    | ok q => exact ⟨q, rfl⟩
  obtain ⟨ns', hl₀⟩ := embark_of_pos default "" default default j₁.queue Nat.one_pos Nat.one_pos
  obtain ⟨l, l', hl, hqueue, hm, hc, hover⟩ := exists_late hmission hl₀
  obtain ⟨hbarred, -⟩ :=
    (barred_of_embark hl₀).shared (OnTrack.embark hon₁.sound (by decide) hl₀) hl
  rcases (hbarred.move hm hc).2 with ⟨-, hnot⟩ | ⟨-, hremoved⟩
  · rw [hover] at hnot
    cases hnot
  rw [hqueue] at hremoved
  refine ⟨_, j₁, s, d, _, l', hj₀, hreach, hserves, hmission, hd, ⟨q, hq⟩, hl₀,
    hl.tail (.move hm hc), hover, ?_, ?_⟩
  · rw [hremoved, Queue.stats?, Queue.current?_remove_self]
    rfl
  · rw [hremoved]
    exact (Queue.lapsed_of_remove hon₁.sound (by simpa using hids)).ack_eq .refl

end Journey

end Roundtable

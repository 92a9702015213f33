import Mathlib.Logic.Relation
import Roundtable.Proofs.Course.Stride

/-!
# Journeys

A course moves in many ways, and none of them is its own choice alone: it makes a step on
the queue, a worker of its pool does, a delegation comes back or breaks off, a planner, a
judge or a store answers. A `Roundtable.Move` is one of these, and a
`Roundtable.Journey` is a course on its queue with **everything that has come of it so
far**: what it told, what it asked and was answered, and what its workers did with their
deliveries.

Nothing is said here of who moves when. What holds of every journey that
`Roundtable.Journey.Reaches` another one holds under every interleaving of the workers
and for every behaviour of the parties around the run.

A journey comes to its end (`Roundtable.Journey.Ends`) if, whatever the moves, it gets
there: no state on the way is stuck and none goes on forever.
-/

namespace Roundtable

/-! ### Calls -/

/-- A question of a run and its answer. -/
structure Call where
  request : CourseRequest
  answer : CourseAnswer

/-! ### What workers do -/

/-- What a worker of a pool does with a delivery. -/
inductive Deed
  /-- Its delegation has come back. -/
  | delegated (delivery : Nat) (r : SubAgentResult)
  /-- Its result is put into the collection. -/
  | collected (delivery : Nat) (r : TaskResult)
  /-- It is acknowledged, and the queue has taken that. -/
  | acked (delivery : Nat)
deriving DecidableEq, Repr

namespace Deed

/-- The deed brings back the delegation of a delivery. -/
def isDelegated (d : Nat) : Deed → Bool
  | delegated e _ => e == d
  | collected .. | acked _ => false

/-- The deed collects the result of a delivery. -/
def isCollected (d : Nat) : Deed → Bool
  | collected e _ => e == d
  | delegated .. | acked _ => false

/-- The deed acknowledges a delivery. -/
def isAcked (d : Nat) : Deed → Bool
  | acked e => e == d
  | delegated .. | collected .. => false

/-- The delivery and the result a deed collects. -/
def collected? : Deed → Option (Nat × TaskResult)
  | collected d r => some (d, r)
  | delegated .. | acked _ => none

/-- The result a deed collects. -/
def result? (d : Deed) : Option TaskResult := d.collected?.map (·.2)

end Deed

/-- What the next step of a worker does with the delivery it holds. -/
def Pool.deed? (p : Pool) (i : Nat) (q : Queue Task) : Option Deed :=
  match p.workers[i]? with
  | none => none
  | some w =>
    match w.stage with
    | .collecting d r => some (.collected d r)
    | .acknowledging d =>
      match q.ack d with
      | .ok _ => some (.acked d)
      | .error _ => none
    | .seeking | .delegating .. | .announcing .. | .left | .lost => none

/-- The delivery a worker waits to delegate. -/
def Pool.delegating? (p : Pool) (i : Nat) : Option Nat :=
  match p.workers[i]? with
  | none => none
  | some w =>
    match w.stage with
    | .delegating d _ => some d
    | .seeking | .announcing .. | .collecting .. | .acknowledging _ | .left | .lost => none

/-! ### Moves -/

/-- What can happen to a run next. -/
inductive Move
  /-- The course makes a step of its own. -/
  | own (m : Moment)
  /-- A worker of the pool makes a step. -/
  | work (i : Nat) (now : Instant)
  /-- The delegation of a worker comes back. -/
  | delegated (i : Nat) (r : SubAgentResult)
  /-- The delegation of a worker breaks off, and the worker is lost. -/
  | lost (i : Nat)
  /-- The store, the planner or the judge answers. -/
  | answered (a : CourseAnswer) (m : Moment)

namespace Move

/-- The move loses no worker. -/
def IsSafe : Move → Prop
  | lost _ => False
  | own _ | work .. | delegated .. | answered .. => True

/-- The move belongs to the dispatch and the drain of one round, and loses no worker. -/
def IsDrain : Move → Prop
  | own _ | work .. | delegated .. => True
  | lost _ | answered .. => False

/-- The move is one of the worker `i`, and does not lose it. -/
def IsBy (i : Nat) : Move → Prop
  | work k _ | delegated k _ => k = i
  | own _ | lost _ | answered .. => False

/-- Any move. -/
def IsAny : Move → Prop := fun _ => True

theorem IsBy.isDrain {m : Move} {i : Nat} (h : m.IsBy i) : m.IsDrain := by
  cases m <;> trivial

end Move

/-! ### Journeys -/

/-- A course on its queue, and what has come of it. -/
structure Journey where
  course : Course
  queue : Queue Task
  /-- What was told. -/
  notices : List Notice
  /-- What was asked and answered. -/
  calls : List Call
  /-- What the workers did, each deed with its round. -/
  deeds : List (Nat × Deed)

namespace Journey

/-- A course on a queue at the outset. -/
def outset (c : Course) (q : Queue Task) (notices : List Notice) : Journey :=
  ⟨c, q, notices, [], []⟩

/-- The round the run is in. -/
def round (j : Journey) : Nat := j.course.state.round

/-- The topic of the run. -/
def topic (j : Journey) : String := j.course.run.topic

/-- What the workers of a round did. -/
def deedsOf (j : Journey) (round : Nat) : List Deed :=
  (j.deeds.filter (·.1 == round)).map (·.2)

/-- A course and its queue go on, and something is told. -/
def advance (j : Journey) (c : Course) (q : Queue Task) (notices : List Notice) : Journey :=
  { j with course := c, queue := q, notices := j.notices ++ notices }

/-- A call has its answer, and the course goes on with it. -/
def heard (j : Journey) (c : Course) (notices : List Notice) (call : Call) : Journey :=
  { j.advance c j.queue notices with calls := j.calls ++ [call] }

/-- What is read off the calls goes on with the last one. -/
theorem filterMap_heard {α : Type} (f : Call → Option α) (j : Journey) (c : Course)
    (ns : List Notice) (call : Call) :
    (j.heard c ns call).calls.filterMap f = j.calls.filterMap f ++ (f call).toList := by
  rw [heard, List.filterMap_append]
  cases h : f call <;> simp [h]

/-- The workers of the round did something. -/
def did (j : Journey) (d : Option Deed) : Journey :=
  { j with deeds := j.deeds ++ d.toList.map fun d => (j.round, d) }

/-- Where nothing was done, nothing changes. -/
theorem did_none (j : Journey) : j.did none = j := by
  simp [did]

/-- A round that nobody has come to has no deeds. -/
theorem deedsOf_eq_nil {j : Journey} {round : Nat} (h : ∀ x ∈ j.deeds, x.1 < round) :
    j.deedsOf round = [] := by
  refine List.map_eq_nil_iff.mpr (List.filter_eq_nil_iff.mpr fun x hx => ?_)
  have hlt := h x hx
  rw [beq_iff_eq]
  omega

theorem deedsOf_did (j : Journey) (d : Option Deed) (round : Nat) :
    (j.did d).deedsOf round =
      j.deedsOf round ++ if j.round = round then d.toList else [] := by
  cases d with
  | none => simp [did, deedsOf]
  | some d => by_cases h : j.round = round <;> simp [did, deedsOf, h]

/-- **What a move makes of a journey**, if it can happen now. -/
def move? (j : Journey) : Move → Option Journey
  | .own m =>
    (j.course.step? j.queue m).map fun (c, q, notices) => j.advance c q notices
  | .work i now =>
    (j.course.stepWorker? i j.queue now).map fun (c, q, notices) =>
      (j.did (j.course.pool.deed? i j.queue)).advance c q notices
  | .delegated i r =>
    (j.course.pool.delegating? i).map fun d =>
      (j.did (some (.delegated d r))).advance
        { j.course with pool := j.course.pool.delegated i r } j.queue []
  | .lost i =>
    (j.course.pool.delegating? i).map fun _ =>
      j.advance { j.course with pool := j.course.pool.lose i } j.queue []
  | .answered a m =>
    match j.course.request? with
    | none => none
    | some r =>
      if a.Fits r then
        some (j.heard (j.course.resume a m).1 (j.course.resume a m).2 ⟨r, a⟩)
      else none

/-- One move of a kind. -/
def Step (kind : Move → Prop) (j j' : Journey) : Prop := ∃ m, kind m ∧ j.move? m = some j'

/-- **One journey leads to another** by moves of a kind. -/
abbrev Reaches (kind : Move → Prop) : Journey → Journey → Prop :=
  Relation.ReflTransGen (Step kind)

/-- Moves one after another. -/
def moves? (j : Journey) : List Move → Option Journey
  | [] => some j
  | m :: ms => (j.move? m).bind (·.moves? ms)

/-- Moves that can be made one after another lead somewhere. -/
theorem Reaches.of_moves? {kind : Move → Prop} {ms : List Move} {j j' : Journey}
    (hms : ∀ m ∈ ms, kind m) (h : j.moves? ms = some j') : j.Reaches kind j' := by
  induction ms generalizing j with
  | nil =>
    obtain rfl := Option.some.inj h
    exact .refl
  | cons m ms ih =>
    obtain ⟨a, ha, hrest⟩ := Option.bind_eq_some_iff.mp h
    have htail := ih (fun m hm => hms m (List.mem_cons_of_mem _ hm)) hrest
    exact Relation.ReflTransGen.head ⟨m, hms m List.mem_cons_self, ha⟩ htail

/-- What holds at first and is kept by every move holds wherever moves lead. -/
theorem Reaches.keeps {kind : Move → Prop} {P : Journey → Prop} {j j' : Journey}
    (h : j.Reaches kind j')
    (hstep : ∀ {a b : Journey} {m : Move}, kind m → a.move? m = some b → P a → P b)
    (hj : P j) : P j' := by
  induction h with
  | refl => exact hj
  | tail _ hs ih =>
    obtain ⟨m, hm, hmove⟩ := hs
    exact hstep hm hmove ih

/-- Moves of one kind are moves of a wider one. -/
theorem Reaches.mono {kind kind' : Move → Prop} {j j' : Journey} (h : j.Reaches kind j')
    (hkind : ∀ m, kind m → kind' m) : j.Reaches kind' j' :=
  h.keeps (fun hm hmove ha => ha.tail ⟨_, hkind _ hm, hmove⟩) .refl

/-- **A journey comes to its end**: it is over, or it can move without losing a worker and
comes to its end whatever the move. -/
inductive Ends : Journey → Prop
  | over {j : Journey} (h : j.course.isOver = true) : Ends j
  | move {j : Journey} (hstep : ∃ j', j.Step Move.IsSafe j')
      (hall : ∀ j', j.Step Move.IsAny j' → Ends j') : Ends j

/-! ### What a move is -/

variable {j j' : Journey}

theorem move?_own {m : Moment} : j.move? (.own m) = some j' ↔ ∃ c q ns,
    j.course.Stride j.queue m c q ns ∧ j' = j.advance c q ns := by
  simp only [move?, Option.map_eq_some_iff, Prod.exists, Course.step?_eq_some_iff]
  exact exists₃_congr fun c q ns => and_congr_right fun _ => eq_comm

theorem move?_work {i : Nat} {now : Instant} : j.move? (.work i now) = some j' ↔ ∃ p q ns,
    j.course.pool.step? i j.queue now = some (p, q, ns) ∧
    j' = (j.did (j.course.pool.deed? i j.queue)).advance { j.course with pool := p } q ns := by
  simp only [move?, Course.stepWorker?, Option.map_map, Option.map_eq_some_iff, Prod.exists]
  exact exists₃_congr fun p q ns => and_congr_right fun _ => eq_comm

theorem move?_delegated {i : Nat} {r : SubAgentResult} :
    j.move? (.delegated i r) = some j' ↔ ∃ d, j.course.pool.delegating? i = some d ∧
    j' = (j.did (some (.delegated d r))).advance
      { j.course with pool := j.course.pool.delegated i r } j.queue [] := by
  simp only [move?, Option.map_eq_some_iff]
  exact exists_congr fun d => and_congr_right fun _ => eq_comm

theorem move?_lost {i : Nat} : j.move? (.lost i) = some j' ↔ ∃ d,
    j.course.pool.delegating? i = some d ∧
    j' = j.advance { j.course with pool := j.course.pool.lose i } j.queue [] := by
  simp only [move?, Option.map_eq_some_iff]
  exact exists_congr fun d => and_congr_right fun _ => eq_comm

theorem move?_answered {a : CourseAnswer} {m : Moment} :
    j.move? (.answered a m) = some j' ↔ ∃ r, j.course.request? = some r ∧ a.Fits r ∧
    j' = j.heard (j.course.resume a m).1 (j.course.resume a m).2 ⟨r, a⟩ := by
  unfold move?
  cases hr : j.course.request? with
  | none => simp
  | some r =>
    simp only [Option.ite_none_right_eq_some, Option.some.injEq, exists_eq_left']
    exact and_congr_right fun _ => eq_comm

/-- An answer that comes is one of the replies. -/
theorem reply_of_move? {a : CourseAnswer} {m : Moment} (h : j.move? (.answered a m) = some j') :
    ∃ r c ns, j.course.Reply m r a c ns ∧ j' = j.heard c ns ⟨r, a⟩ := by
  obtain ⟨r, hr, ha, rfl⟩ := move?_answered.mp h
  exact ⟨r, _, _, Course.reply_of_fits hr ha, rfl⟩

/-- A move adds at most one call, and then one to the question that was asked. -/
theorem calls_of_move? {m : Move} (h : j.move? m = some j') :
    ∃ call : Option Call, j'.calls = j.calls ++ call.toList ∧
      ∀ c ∈ call, j.course.request? = some c.request := by
  cases m with
  | own m =>
    obtain ⟨c', q', ns, -, rfl⟩ := move?_own.mp h
    exact ⟨none, (List.append_nil _).symm, by simp⟩
  | work i now =>
    obtain ⟨p, q', ns, -, rfl⟩ := move?_work.mp h
    exact ⟨none, (List.append_nil _).symm, by simp⟩
  | delegated i r =>
    obtain ⟨d, -, rfl⟩ := move?_delegated.mp h
    exact ⟨none, (List.append_nil _).symm, by simp⟩
  | lost i =>
    obtain ⟨d, -, rfl⟩ := move?_lost.mp h
    exact ⟨none, (List.append_nil _).symm, by simp⟩
  | answered a m =>
    obtain ⟨r, hr, -, rfl⟩ := move?_answered.mp h
    refine ⟨some ⟨r, a⟩, rfl, fun c hc => ?_⟩
    obtain rfl := Option.some.inj hc
    exact hr

/-- **A course that asks nothing goes on by itself**, or a worker of its pool is still there. -/
theorem exists_move (hr : j.course.request? = none) (hover : j.course.isOver = false) :
    (∃ j', j.move? (.own default) = some j') ∨
      ∃ (k : Nat) (w : PoolWorker), j.course.pool.workers[k]? = some w ∧
        w.stage.isGone = false := by
  have hown : ∀ c' q' ns, j.course.Stride j.queue default c' q' ns →
      ∃ j', j.move? (.own default) = some j' :=
    fun c' q' ns hstride => ⟨_, move?_own.mpr ⟨c', q', ns, hstride, rfl⟩⟩
  cases hs : j.course.stage with
  | recording | recalling | planning | judging | storing | failing =>
    simp [Course.request?, hs] at hr
  | dispatching rest =>
    cases rest with
    | nil => exact .inl (hown _ _ _ (.published hs))
    | cons t rest => exact .inl (hown _ _ _ (.publish hs))
  | dismissing left =>
    cases left with
    | zero => exact .inl (hown _ _ _ (.dismissed hs))
    | succ n => exact .inl (hown _ _ _ (.dismiss hs))
  | hiring left =>
    cases left with
    | zero => exact .inl (hown _ _ _ (.hired hs))
    | succ n => exact .inl (hown _ _ _ (.hire hs))
  | draining =>
    cases hd : j.course.pool.isDrained with
    | true => exact .inl (hown _ _ _ (.drained hs hd))
    | false =>
      obtain ⟨w, hw, hg⟩ := List.all_eq_false.mp hd
      obtain ⟨k, hk⟩ := List.mem_iff_getElem?.mp hw
      exact .inr ⟨k, w, hk, by simpa using hg⟩
  | leaving => exact .inl (hown _ _ _ (.leave hs))
  | «over» => simp [Course.isOver, hs] at hover

/-! ### What no move changes -/

/-- **Two journeys of one run**: what was settled when the run began. -/
structure SameRun (j j' : Journey) : Prop where
  runId : j'.course.state.runId = j.course.state.runId
  mission : j'.course.state.mission = j.course.state.mission
  startedAt : j'.course.state.startedAt = j.course.state.startedAt
  workers : j'.course.workers = j.course.workers
  limit : j'.course.limit = j.course.limit

theorem SameRun.refl (j : Journey) : j.SameRun j := ⟨rfl, rfl, rfl, rfl, rfl⟩

theorem SameRun.trans {j'' : Journey} (h : j.SameRun j') (h' : j'.SameRun j'') : j.SameRun j'' :=
  ⟨h'.runId.trans h.runId, h'.mission.trans h.mission, h'.startedAt.trans h.startedAt,
    h'.workers.trans h.workers, h'.limit.trans h.limit⟩

/-- **A move stays within its run.** -/
theorem sameRun_of_move? {m : Move} (h : j.move? m = some j') : j.SameRun j' := by
  cases m with
  | own m =>
    obtain ⟨c', q', ns, hstride, rfl⟩ := move?_own.mp h
    cases hstride <;> exact ⟨rfl, rfl, rfl, rfl, rfl⟩
  | work i now =>
    obtain ⟨p, q', ns, -, rfl⟩ := move?_work.mp h
    exact ⟨rfl, rfl, rfl, rfl, rfl⟩
  | delegated i r =>
    obtain ⟨d, -, rfl⟩ := move?_delegated.mp h
    exact ⟨rfl, rfl, rfl, rfl, rfl⟩
  | lost i =>
    obtain ⟨d, -, rfl⟩ := move?_lost.mp h
    exact ⟨rfl, rfl, rfl, rfl, rfl⟩
  | answered a m =>
    obtain ⟨r, c', ns, hreply, rfl⟩ := reply_of_move? h
    cases hreply with
    | recorded | continued =>
      refine ⟨?_, ?_, ?_, Course.workers_beginRound, Course.limit_beginRound⟩ <;>
        simp only [heard, advance, Course.state_beginRound] <;> rfl
    | recalled | planned | proceeds | stops | completed | refused | failed =>
      exact ⟨rfl, rfl, rfl, rfl, rfl⟩

/-- A move stays on the topic of its run. -/
theorem topic_of_move? {m : Move} (h : j.move? m = some j') : j'.topic = j.topic :=
  congrArg RunId.topic (sameRun_of_move? h).runId

theorem Reaches.sameRun {kind : Move → Prop} (h : j.Reaches kind j') : j.SameRun j' :=
  h.keeps (fun _ hm ha => ha.trans (sameRun_of_move? hm)) (.refl j)

end Journey

end Roundtable

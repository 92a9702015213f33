import Mathlib.Order.RelClasses
import Roundtable.Proofs.Pool.Ledger

/-!
# Every run comes to its end

A run that has begun on a sound queue ends, whatever its workers, its planner, its judge
and its store do, and in whatever order (`Roundtable.Journey.ends_of_embark`): no move leads
into a state that is stuck, and none can be followed by others forever.

Two things are kept. The rounds are counted as they should and never beyond the limit
(`Roundtable.Course.Paced`). And **as many sentinels wait as workers have to leave**
(`Roundtable.Journey.Manned`), even when workers are lost or when the topic held other
messages before. The way to go is then measured by the rounds that are left, the stages
left of the round, what is left of the stage, and the turns that the pool can still make
(`Roundtable.Journey.toGo`); each move shortens it.
-/

namespace Roundtable

/-! ### The rounds -/

namespace Course

/-- **The rounds are counted as they should.** -/
def Paced (c : Course) : Prop :=
  0 < c.limit ∧ c.limit < 2 ^ 32 ∧ c.state.round ≤ c.limit ∧
  match c.stage with
  | .recording => c.state.round = 0
  | .storing .continue => 0 < c.state.round ∧ c.state.round < c.limit
  | .failing | .leaving | .over => True
  | _ => 0 < c.state.round

variable {c c' : Course} {q q' : Queue Task} {m : Moment} {ns : List Notice}

/-- A round that may begin is counted. -/
theorem round_beginRound (hlt : c.state.round < c.limit) (h : c.limit < 2 ^ 32) :
    c.state.beginRound.round = c.state.round + 1 :=
  Nat.mod_eq_of_lt (by omega)

theorem Paced.beginRound (h : c.Paced) (hlt : c.state.round < c.limit) (m : Moment) :
    (c.beginRound m).1.Paced := by
  have hround : (c.beginRound m).1.state.round = c.state.round + 1 := by
    rw [state_beginRound, round_beginRound hlt h.2.1]
  refine ⟨by simpa using h.1, by simpa using h.2.1, by rw [hround, limit_beginRound]; omega, ?_⟩
  rcases c.stage_beginRound m with ⟨-, hs⟩ | ⟨-, hs⟩
  · rw [hs, hround]
    exact Nat.succ_pos _
  · rw [hs, hround]
    exact Nat.succ_pos _

/-- A stride keeps the pace. -/
theorem Paced.stride (h : c.Paced) (hs : c.Stride q m c' q' ns) : c'.Paced := by
  obtain ⟨hpos, hlimit, hle, hstage⟩ := h
  cases hs with
  | publish hs | published hs | dismiss hs | dismissed hs | hire hs | hired hs | drained hs
  | leave hs =>
    rw [hs] at hstage
    exact ⟨hpos, hlimit, hle, hstage⟩

/-- A reply keeps the pace. -/
theorem Paced.reply {r : CourseRequest} {a : CourseAnswer} (h : c.Paced)
    (hr : c.Reply m r a c' ns) : c'.Paced := by
  have hall := h
  obtain ⟨hpos, hlimit, hle, hstage⟩ := h
  cases hr with
  | recorded hs =>
    rw [hs] at hstage
    exact hall.beginRound (by omega) m
  | recalled hs | planned hs | stops hs =>
    rw [hs] at hstage
    exact ⟨hpos, hlimit, hle, hstage⟩
  | proceeds hs hd =>
    rw [hs] at hstage
    exact ⟨hpos, hlimit, hle, hstage, hd.2⟩
  | continued hs =>
    rw [hs] at hstage
    exact hall.beginRound hstage.2 m
  | completed hs | refused | failed hs => exact ⟨hpos, hlimit, hle, trivial⟩

end Course

/-! ### The pool -/

namespace PoolWorker

/-- The worker is there and has not had its sentinel. -/
def isUnserved (w : PoolWorker) : Bool := !w.isServed && !w.stage.isGone

end PoolWorker

namespace PoolStage

/-- How many turns a worker can make before it takes the next message. -/
def weight : PoolStage → Nat
  | delegating .. => 5
  | announcing .. => 4
  | collecting .. => 3
  | acknowledging _ => 2
  | seeking => 1
  | left | lost => 0

end PoolStage

namespace Pool

/-- How many turns the workers can make before they take the next messages. -/
def weight (p : Pool) : Nat := (p.workers.map (·.stage.weight)).sum

theorem weight_setWorker {p : Pool} {i : Nat} {w : PoolWorker} (hw : p.workers[i]? = some w)
    (w' : PoolWorker) :
    (p.setWorker i w').weight + w.stage.weight = p.weight + w'.stage.weight := by
  obtain ⟨hi, rfl⟩ := List.getElem?_eq_some_iff.mp hw
  have hold := ((List.getElem_cons_eraseIdx_perm hi).map (·.stage.weight)).sum_nat
  have hnew := ((List.set_perm_cons_eraseIdx hi w').map (·.stage.weight)).sum_nat
  simp only [List.map_cons, List.sum_cons] at hold hnew
  simp only [weight, setWorker]
  omega

variable {p p' : Pool} {i n : Nat} {q q' : Queue Task} {now : Instant} {ns : List Notice}
  {deed : Option Deed} {topic : String}

/-- What a turn does to the messages that wait on a topic: the first is taken, or nothing. -/
theorem Turn.ready (h : p.Turn i q now p' q' ns deed) (hn : q.current? topic = some n)
    (hin : ∀ w ∈ p.workers, w.subscription.incarnation = n) :
    (∃ e w w', p.workers[i]? = some w ∧ p' = p.setWorker i w' ∧ w.stage = .seeking ∧
      w.isServed = false ∧ (q.topicOf topic).ready = e :: (q'.topicOf topic).ready ∧
      w'.subscription.incarnation = n ∧ w'.isServed = e.payload.isSentinel ∧
      w'.stage.weight ≤ 5) ∨
    (∃ w stage, p.workers[i]? = some w ∧ p'.workers = p.workers.set i { w with stage } ∧
      stage.weight < w.stage.weight ∧ (q'.topicOf topic).ready = (q.topicOf topic).ready) := by
  have hq : q.topicOf topic = q.topicAt n := Queue.topicOf_of_some hn
  have hq' : q'.topicOf topic = q'.topicAt n :=
    Queue.topicOf_of_some ((h.current? topic).trans hn)
  rw [hq, hq']
  cases h with
  | @task w e t a hw hs hf ht he =>
    obtain rfl := hin w (List.mem_of_getElem? hw)
    obtain ⟨r, hr, rfl⟩ := Topic.take_eq_some_iff.mp ht
    rw [Queue.topicAt_setTopic_self (Queue.lt_length_of_take ht)]
    exact .inl ⟨e, w, _, hw, rfl, hs, hf, hr, rfl, by rw [he]; exact hf, Nat.le_refl _⟩
  | @sentinel w e t hw hs hf ht he =>
    obtain rfl := hin w (List.mem_of_getElem? hw)
    obtain ⟨r, hr, rfl⟩ := Topic.take_eq_some_iff.mp ht
    rw [Queue.topicAt_setTopic_self (Queue.lt_length_of_take ht)]
    exact .inl ⟨e, w, _, hw, rfl, hs, hf, hr, rfl, by rw [he]; rfl, by simp [PoolStage.weight]⟩
  | leave hw hs | announce hw hs | collect hw hs | refused hw hs =>
    exact .inr ⟨_, _, hw, rfl, by rw [hs]; simp [PoolStage.weight], rfl⟩
  | ack hw hs ha =>
    exact .inr ⟨_, _, hw, rfl, by rw [hs]; simp [PoolStage.weight], Queue.ready_topicAt_ack ha n⟩

/-- The turns that the workers can still make with what waits on a topic. -/
def toGo (p : Pool) (t : Topic Task) : Nat := 6 * t.ready.length + p.weight

/-- **A turn less is to go.** -/
theorem Turn.toGo_lt (h : p.Turn i q now p' q' ns deed) (hn : q.current? topic = some n)
    (hin : ∀ w ∈ p.workers, w.subscription.incarnation = n) :
    p'.toGo (q'.topicOf topic) < p.toGo (q.topicOf topic) := by
  unfold toGo
  obtain ⟨e, w, w', hw, rfl, hs, -, hready, -, -, hle⟩ | ⟨w, stage, hw, hset, hlt, hready⟩ :=
    h.ready hn hin
  -- A message that is taken weighs six, and the worker that takes it gains four at most.
  · have hweight := weight_setWorker hw w'
    have hone : w.stage.weight = 1 := by rw [hs]; rfl
    rw [hready, List.length_cons]
    omega
  · have hweight : (p.setWorker i { w with stage }).weight + w.stage.weight =
        p.weight + stage.weight := weight_setWorker hw _
    have hp : p'.weight = (p.setWorker i { w with stage }).weight := by
      simp only [weight, setWorker, hset]
    rw [hready, hp]
    omega

/-- A worker that has a turn ahead is there. -/
theorem isGone_eq_false_of_weight {s : PoolStage} (h : 0 < s.weight) : s.isGone = false := by
  cases s with
  | left | lost => simp [PoolStage.weight] at h
  | seeking | delegating | announcing | collecting | acknowledging => rfl

/-- A worker that goes on does not lose a sentinel it has had. -/
theorem countP_isUnserved_goOn {w : PoolWorker} (hw : p.workers[i]? = some w)
    (hg : w.stage.isGone = false) (stage : PoolStage) :
    (p.goOn i w stage).workers.countP PoolWorker.isUnserved ≤
      p.workers.countP PoolWorker.isUnserved := by
  have hcount := countP_set_add (P := PoolWorker.isUnserved) (b := { w with stage }) hw
  have himp : ({ w with stage } : PoolWorker).isUnserved = true → w.isUnserved = true := by
    simp only [PoolWorker.isUnserved, PoolWorker.isServed, hg, Bool.and_eq_true]
    exact fun hnew => ⟨hnew.1, rfl⟩
  simp only [goOn, setWorker]
  by_cases hnew : ({ w with stage } : PoolWorker).isUnserved = true
  · rw [if_pos hnew, if_pos (himp hnew)] at hcount
    omega
  · rw [if_neg hnew] at hcount
    omega

/-- **As many sentinels wait as are needed** for the workers that have to leave and for
others still to be hired. -/
structure Staffed (p : Pool) (q : Queue Task) (topic : String) (left : Nat) : Prop where
  incarnation : ∀ w ∈ p.workers, q.current? topic = some w.subscription.incarnation
  sentinels : p.workers.countP PoolWorker.isUnserved + left ≤
    (q.topicOf topic).ready.countP (·.payload.isSentinel)

/-- **No turn leaves a worker without a sentinel.** -/
theorem Staffed.turn {left : Nat} (h : p.Staffed q topic left)
    (ht : p.Turn i q now p' q' ns deed) : p'.Staffed q' topic left := by
  obtain ⟨w, -, hw, -, -⟩ := ht.worker
  have hn := h.incarnation w (List.mem_of_getElem? hw)
  have hin : ∀ x ∈ p.workers, x.subscription.incarnation = w.subscription.incarnation :=
    fun x hx => Option.some.inj ((h.incarnation x hx).symm.trans hn)
  have hsent := h.sentinels
  obtain ⟨e, w, w', hw', rfl, hs, hf, hready, hinc, hserved, -⟩ |
    ⟨w, stage, hw', hset, hlt, hready⟩ := ht.ready hn hin
  · refine ⟨fun x hx => ?_, ?_⟩
    · rw [ht.current?]
      rcases List.mem_or_eq_of_mem_set hx with hx | rfl
      · exact h.incarnation x hx
      · rw [hn, hinc]
    · have hcount := countP_set_add (P := PoolWorker.isUnserved) (b := w') hw'
      have hold : w.isUnserved = true := by
        simp [PoolWorker.isUnserved, hf, hs, PoolStage.isGone]
      rw [hready, List.countP_cons] at hsent
      rw [hold, if_pos rfl] at hcount
      simp only [setWorker]
      -- A sentinel that is taken serves its worker.
      cases he : e.payload.isSentinel with
      | true =>
        have hnew : w'.isUnserved = false := by simp [PoolWorker.isUnserved, hserved, he]
        rw [hnew, if_neg (by simp)] at hcount
        rw [he, if_pos rfl] at hsent
        omega
      | false =>
        rw [he, if_neg (by simp)] at hsent
        split at hcount <;> omega
  · refine ⟨fun x hx => ?_, ?_⟩
    · rw [ht.current?]
      rw [hset] at hx
      rcases List.mem_or_eq_of_mem_set hx with hx | rfl
      · exact h.incarnation x hx
      · exact h.incarnation w (List.mem_of_getElem? hw')
    · have hthere := isGone_eq_false_of_weight (Nat.zero_lt_of_lt hlt)
      have hle := countP_isUnserved_goOn hw' hthere stage
      rw [hready, hset]
      simp only [Pool.goOn, setWorker] at hle
      omega

/-- A worker goes on without a turn: its delegation has come back or broken off. -/
theorem Staffed.goOn {left : Nat} {w : PoolWorker} {stage : PoolStage}
    (h : p.Staffed q topic left) (hw : p.workers[i]? = some w) (hg : w.stage.isGone = false) :
    (p.goOn i w stage).Staffed q topic left := by
  refine ⟨fun x hx => ?_, ?_⟩
  · rcases List.mem_or_eq_of_mem_set hx with hx | rfl
    · exact h.incarnation x hx
    · exact h.incarnation w (List.mem_of_getElem? hw)
  · have hsent := h.sentinels
    have hle := countP_isUnserved_goOn hw hg stage
    omega

end Pool

/-! ### The way to go -/

namespace CourseStage

/-- How many stages are left of a round, and of the way out. -/
def rank : CourseStage → Nat
  | recording => 11
  | recalling => 10
  | planning _ => 9
  | dispatching _ => 8
  | dismissing _ => 7
  | hiring _ => 6
  | draining => 5
  | judging _ => 4
  | storing _ => 3
  | failing => 2
  | leaving => 1
  | «over» => 0

/-- No worker is there at the stage. -/
def isIdle : CourseStage → Bool
  | recording | judging _ | storing _ | failing | leaving | «over» => true
  | recalling | planning _ | dispatching _ | dismissing _ | hiring _ | draining => false

/-- What is left of a stage. -/
def left : CourseStage → Nat
  | dispatching rest => rest.length
  | dismissing n | hiring n => n
  | recording | recalling | planning _ | draining | judging _ | storing _ | failing | leaving
  | «over» => 0

end CourseStage

namespace Course

variable {c c' : Course} {q q' : Queue Task} {m : Moment} {ns : List Notice}

/-- The rounds, the stages and the rest of the stage that are to go. -/
def toGo (c : Course) : Nat × Nat × Nat :=
  (c.limit - c.state.round, c.stage.rank, c.stage.left)

/-- One way is shorter than another. -/
abbrev Shorter : Nat × Nat × Nat → Nat × Nat × Nat → Prop :=
  Prod.Lex (· < ·) (Prod.Lex (· < ·) (· < ·))

/-- In the same round, a later stage is a shorter way. -/
theorem shorter_of_rank (hl : c'.limit = c.limit) (hr : c'.state.round = c.state.round)
    (h : c'.stage.rank < c.stage.rank) : Shorter c'.toGo c.toGo := by
  rw [toGo, toGo, hl, hr]
  exact .right _ (.left _ _ h)

/-- A round more is a shorter way. -/
theorem shorter_of_beginRound (h : c.Paced) (hlt : c.state.round < c.limit) (m : Moment) :
    Shorter (c.beginRound m).1.toGo c.toGo := by
  refine .left _ _ ?_
  rw [state_beginRound, round_beginRound hlt h.2.1, limit_beginRound]
  omega

/-- **A stride shortens the way.** -/
theorem Stride.shorter (hs : c.Stride q m c' q' ns) : Shorter c'.toGo c.toGo := by
  cases hs with
  | publish hs | dismiss hs | hire hs =>
    rw [toGo, toGo, hs]
    exact .right _ (.right _ (Nat.lt_succ_self _))
  | published hs | dismissed hs | hired hs | drained hs | leave hs =>
    exact shorter_of_rank rfl rfl (by rw [hs]; simp [CourseStage.rank, goOn])

/-- A refusal comes before the failure is recorded. -/
theorem Refusal.rank_lt {r : CourseRequest} {a : CourseAnswer} {kind : FailureKind}
    {message : String} (h : c.Refusal r a kind message) : 2 < c.stage.rank := by
  cases h with
  | mission hs | nothing hs | memory hs | plan hs | judge hs | round hs =>
    rw [hs]
    simp [CourseStage.rank]

/-- **A reply shortens the way.** -/
theorem Reply.shorter {r : CourseRequest} {a : CourseAnswer} (h : c.Paced)
    (hr : c.Reply m r a c' ns) : Shorter c'.toGo c.toGo := by
  have hstage := h.2.2.2
  have hpos := h.1
  cases hr with
  | recorded hs =>
    rw [hs] at hstage
    exact shorter_of_beginRound h (by omega) m
  | continued hs =>
    rw [hs] at hstage
    exact shorter_of_beginRound h hstage.2 m
  | recalled hs | planned hs | proceeds hs | stops hs | completed hs | failed hs =>
    exact shorter_of_rank rfl rfl (by rw [hs]; simp [CourseStage.rank, goOn, plan, dispatch])
  | refused h => exact shorter_of_rank rfl rfl h.rank_lt

end Course

/-! ### Journeys -/

namespace Journey

variable {j j' : Journey}

/-- **There are sentinels for all who work**, and nobody works where nobody should. -/
def Manned (j : Journey) : Prop :=
  match j.course.stage with
  | .recalling | .planning _ | .dispatching _ => j.course.pool.workers = []
  | .dismissing left => j.course.pool.workers = [] ∧
      j.course.workers ≤
        (j.queue.topicOf j.topic).ready.countP (·.payload.isSentinel) + left
  | .hiring left => j.course.pool.Staffed j.queue j.topic left
  | .draining => j.course.pool.Staffed j.queue j.topic 0
  | .recording | .judging _ | .storing _ | .failing | .leaving | .over =>
    j.course.pool.isDrained = true

/-- **A journey on its way to the end.** -/
structure OnTrack (j : Journey) : Prop where
  sound : j.queue.Sound
  paced : j.course.Paced
  manned : j.Manned

/-- What a journey has to go: the way of its course, and the turns of its pool. -/
def toGo (j : Journey) : (Nat × Nat × Nat) × Nat :=
  (j.course.toGo, j.course.pool.toGo (j.queue.topicOf j.topic))

/-- One journey has less to go than another. -/
def Nearer (j' j : Journey) : Prop := Prod.Lex Course.Shorter (· < ·) j'.toGo j.toGo

theorem Nearer.wf : WellFounded Nearer := by
  have hlt : WellFounded (α := Nat) (· < ·) := Nat.lt_wfRel.wf
  exact InvImage.wf toGo (WellFounded.prod_lex
    (WellFounded.prod_lex hlt (WellFounded.prod_lex hlt hlt)) hlt)

/-- Nobody works in a pool without workers. -/
theorem isDrained_of_nil {p : Pool} (h : p.workers = []) : p.isDrained = true := by
  simp [Pool.isDrained, h]

theorem manned_of_isIdle (hs : j.course.stage.isIdle = true)
    (hd : j.course.pool.isDrained = true) : j.Manned := by
  unfold Manned
  cases hstage : j.course.stage <;> simp [hstage, CourseStage.isIdle] at hs ⊢ <;> exact hd

/-- Nobody works while somebody else is asked. -/
theorem Manned.isDrained {r : CourseRequest} (h : j.Manned) (hr : j.course.request? = some r) :
    j.course.pool.isDrained = true := by
  unfold Manned at h
  unfold Course.request? at hr
  cases hs : j.course.stage <;> simp [hs] at h hr
  case recording | judging | storing | failing => exact h
  case recalling | planning => exact isDrained_of_nil h

/-- **Workers are there** only while they are hired and while the pool is drained. -/
theorem Manned.working (h : j.Manned) {k : Nat} {w : PoolWorker}
    (hw : j.course.pool.workers[k]? = some w) (hg : w.stage.isGone = false) :
    (∃ left, j.course.stage = .hiring left) ∨ j.course.stage = .draining := by
  have hnone : j.course.pool.isDrained ≠ true := by
    intro hd
    have := List.all_eq_true.mp hd w (List.mem_of_getElem? hw)
    simp [hg] at this
  unfold Manned at h
  cases hs : j.course.stage with
  | hiring left => exact .inl ⟨left, rfl⟩
  | draining => exact .inr rfl
  | recalling | planning | dispatching =>
    rw [hs] at h
    exact absurd (isDrained_of_nil h) hnone
  | dismissing =>
    rw [hs] at h
    exact absurd (isDrained_of_nil h.1) hnone
  | recording | judging | storing | failing | leaving | «over» =>
    rw [hs] at h
    exact absurd h hnone

/-- **A worker that is not gone** is one of those with a sentinel ahead. -/
theorem Manned.staffed (h : j.Manned) {k : Nat} {w : PoolWorker}
    (hw : j.course.pool.workers[k]? = some w) (hg : w.stage.isGone = false) :
    ∃ left, j.course.pool.Staffed j.queue j.topic left ∧
      ∀ j' : Journey, j'.course.stage = j.course.stage →
        j'.course.pool.Staffed j'.queue j'.topic left → j'.Manned := by
  have hmanned := h
  unfold Manned at h
  rcases hmanned.working hw hg with ⟨left, hs⟩ | hs
  · rw [hs] at h
    refine ⟨left, h, fun j' hs' hstaff => ?_⟩
    rw [Manned, hs', hs]
    exact hstaff
  · rw [hs] at h
    refine ⟨0, h, fun j' hs' hstaff => ?_⟩
    rw [Manned, hs', hs]
    exact hstaff

/-- **A turn** keeps a journey on its track and shortens it. -/
theorem OnTrack.work {k : Nat} {now : Instant} (h : j.OnTrack)
    (hm : j.move? (.work k now) = some j') : j'.OnTrack ∧ j'.Nearer j := by
  obtain ⟨p, q', ns, hstep, rfl⟩ := move?_work.mp hm
  have hturn := Pool.turn_of_step? hstep
  obtain ⟨w, w', hw, hg, -⟩ := hturn.worker
  obtain ⟨left, hstaff, hmanned⟩ := h.manned.staffed hw hg
  have hn := hstaff.incarnation w (List.mem_of_getElem? hw)
  refine ⟨⟨hturn.sound h.sound, h.paced, hmanned _ rfl (hstaff.turn hturn)⟩, .right _ ?_⟩
  exact hturn.toGo_lt hn fun x hx =>
    Option.some.inj ((hstaff.incarnation x hx).symm.trans hn)

/-- A worker that goes on without a turn keeps a journey on its track and shortens it. -/
theorem OnTrack.goOn {k : Nat} {w : PoolWorker} {stage : PoolStage} {p : Pool} (h : j.OnTrack)
    (hw : j.course.pool.workers[k]? = some w) (hlt : stage.weight < w.stage.weight)
    (hp : p = j.course.pool.goOn k w stage) (d : Option Deed) :
    ((j.did d).advance { j.course with pool := p } j.queue []).OnTrack ∧
      ((j.did d).advance { j.course with pool := p } j.queue []).Nearer j := by
  have hg := Pool.isGone_eq_false_of_weight (Nat.zero_lt_of_lt hlt)
  obtain ⟨left, hstaff, hmanned⟩ := h.manned.staffed hw hg
  subst hp
  refine ⟨⟨h.sound, h.paced, hmanned _ rfl (hstaff.goOn hw hg)⟩, .right _ ?_⟩
  have hweight : (j.course.pool.goOn k w stage).weight + w.stage.weight =
      j.course.pool.weight + stage.weight := Pool.weight_setWorker hw _
  change 6 * (j.queue.topicOf j.topic).ready.length + (j.course.pool.goOn k w stage).weight <
    6 * (j.queue.topicOf j.topic).ready.length + j.course.pool.weight
  omega

/-- **A delegation that comes back** keeps a journey on its track and shortens it. -/
theorem OnTrack.delegated {k : Nat} {r : SubAgentResult} (h : j.OnTrack)
    (hm : j.move? (.delegated k r) = some j') : j'.OnTrack ∧ j'.Nearer j := by
  obtain ⟨d, hd, rfl⟩ := move?_delegated.mp hm
  obtain ⟨w, a, hw, hs⟩ := Pool.delegating?_eq_some hd
  exact h.goOn hw (by rw [hs]; simp [PoolStage.weight]) (Pool.delegated_eq hw hs r) _

/-- **A delegation that breaks off** keeps a journey on its track and shortens it. -/
theorem OnTrack.lost {k : Nat} (h : j.OnTrack) (hm : j.move? (.lost k) = some j') :
    j'.OnTrack ∧ j'.Nearer j := by
  obtain ⟨d, hd, rfl⟩ := move?_lost.mp hm
  obtain ⟨w, a, hw, hs⟩ := Pool.delegating?_eq_some hd
  have hlt : PoolStage.lost.weight < w.stage.weight := by rw [hs]; simp [PoolStage.weight]
  have hgo := h.goOn hw hlt (Pool.lose_eq hw) none
  simpa [did] using hgo

/-- A queue on which a payload was published holds one sentinel more if it is one. -/
theorem countP_isSentinel_enqueue {q : Queue Task} (hq : q.Sound) (topic : String)
    (p : Payload Task) :
    ((q.enqueue topic p).2.topicOf topic).ready.countP (·.payload.isSentinel) =
      (q.topicOf topic).ready.countP (·.payload.isSentinel) + if p.isSentinel then 1 else 0 := by
  rw [Queue.topicOf_enqueue hq, Topic.push]
  simp [List.countP_append, List.countP_singleton]

/-- A stride keeps the queue sound. -/
theorem sound_stride {c c' : Course} {q q' : Queue Task} {m : Moment} {ns : List Notice}
    (hq : q.Sound) (hs : c.Stride q m c' q' ns) : q'.Sound := by
  cases hs with
  | publish => exact hq.enqueue _ _
  | dismiss => exact hq.enqueue _ _
  | hire => exact hq.enter _
  | leave => exact hq.remove _
  | published | dismissed | hired | drained => exact hq

/-- Where a sentinel waits for a worker to be hired, the name is in use and stays with its
incarnation. -/
theorem subscribe_of_staffed {p : Pool} {q : Queue Task} {topic : String} {left : Nat}
    (h : p.Staffed q topic (left + 1)) :
    ∃ i, q.current? topic = some i ∧ q.subscribe topic = (⟨i, false⟩, q) := by
  have hname : q.current? topic ≠ none := by
    intro hnone
    have hsent := h.sentinels
    rw [Queue.topicOf_of_none hnone] at hsent
    simp [Topic.empty] at hsent
  obtain ⟨i, hi⟩ := Option.ne_none_iff_exists'.mp hname
  exact ⟨i, hi, by simp [Queue.subscribe, Queue.enter_of_some hi]⟩

/-- A worker is hired where a sentinel waits for it. -/
theorem staffed_hire {p : Pool} {q : Queue Task} {topic : String} {left : Nat}
    (h : p.Staffed q topic (left + 1)) :
    (p.hire (q.subscribe topic).1).Staffed (q.subscribe topic).2 topic left := by
  have hsent := h.sentinels
  obtain ⟨i, hi, hsub⟩ := subscribe_of_staffed h
  rw [hsub]
  refine ⟨fun w hw => ?_, ?_⟩
  · rcases List.mem_append.mp hw with hw | hw
    · exact h.incarnation w hw
    · obtain rfl := List.mem_singleton.mp hw
      exact hi
  · have hone : (p.hire ⟨i, false⟩).workers.countP PoolWorker.isUnserved =
        p.workers.countP PoolWorker.isUnserved + 1 := by
      simp [Pool.hire, List.countP_append, PoolWorker.isUnserved, PoolWorker.isServed,
        PoolStage.isGone]
    change (p.hire ⟨i, false⟩).workers.countP PoolWorker.isUnserved + left ≤
      (q.topicOf topic).ready.countP (·.payload.isSentinel)
    omega

/-- Where nobody works, sentinels are needed for those to be hired alone. -/
theorem staffed_of_nil {p : Pool} {q : Queue Task} {topic : String} {left : Nat}
    (hw : p.workers = [])
    (hle : left ≤ (q.topicOf topic).ready.countP (·.payload.isSentinel)) :
    p.Staffed q topic left := by
  refine ⟨by simp [hw], ?_⟩
  rw [hw, List.countP_nil]
  omega

/-- **A stride** keeps a journey on its track and shortens it. -/
theorem OnTrack.own {m : Moment} (h : j.OnTrack) (hm : j.move? (.own m) = some j') :
    j'.OnTrack ∧ j'.Nearer j := by
  obtain ⟨c', q', ns, hstride, rfl⟩ := move?_own.mp hm
  refine ⟨⟨sound_stride h.sound hstride, h.paced.stride hstride, ?_⟩,
    .left _ _ hstride.shorter⟩
  have hmanned := h.manned
  unfold Manned at hmanned
  cases hstride with
  | publish hs | hired hs =>
    rw [hs] at hmanned
    exact hmanned
  | published hs =>
    rw [hs] at hmanned
    exact ⟨hmanned, Nat.le_add_left _ _⟩
  | @dismiss n hs =>
    rw [hs] at hmanned
    refine ⟨hmanned.1, ?_⟩
    change j.course.workers ≤ ((j.queue.enqueue j.topic .sentinel).2.topicOf j.topic).ready.countP
      (·.payload.isSentinel) + n
    have hcount := countP_isSentinel_enqueue h.sound j.topic .sentinel
    rw [if_pos (by rfl)] at hcount
    have := hmanned.2
    omega
  | dismissed hs =>
    rw [hs] at hmanned
    exact staffed_of_nil hmanned.1 hmanned.2
  | hire hs =>
    rw [hs] at hmanned
    exact staffed_hire hmanned
  | drained hs hd => exact manned_of_isIdle rfl hd
  | leave hs =>
    rw [hs] at hmanned
    exact hmanned

/-- **A reply** keeps a journey on its track and shortens it. -/
theorem OnTrack.answered {a : CourseAnswer} {m : Moment} (h : j.OnTrack)
    (hm : j.move? (.answered a m) = some j') : j'.OnTrack ∧ j'.Nearer j := by
  obtain ⟨r, hr, -, -⟩ := move?_answered.mp hm
  have hd := h.manned.isDrained hr
  obtain ⟨r, c, ns, hreply, rfl⟩ := reply_of_move? hm
  refine ⟨⟨h.sound, h.paced.reply hreply, ?_⟩, .left _ _ (hreply.shorter h.paced)⟩
  have hmanned := h.manned
  unfold Manned at hmanned
  cases hreply with
  | recorded hs | continued hs =>
    unfold Manned
    rcases j.course.stage_beginRound m with ⟨-, hst⟩ | ⟨-, hst⟩
    · simp [heard, advance, hst, Pool.empty]
    · simp [heard, advance, hst, Pool.empty]
  | recalled hs | planned hs =>
    rw [hs] at hmanned
    exact hmanned
  | proceeds hs | stops hs | completed hs | refused hr | failed hs =>
    exact manned_of_isIdle rfl hd

/-- **Every move** keeps a journey on its track and shortens it. -/
theorem OnTrack.move {m : Move} (h : j.OnTrack) (hm : j.move? m = some j') :
    j'.OnTrack ∧ j'.Nearer j := by
  cases m with
  | own m => exact h.own hm
  | work i now => exact h.work hm
  | delegated i r => exact h.delegated hm
  | lost i => exact h.lost hm
  | answered a m => exact h.answered hm

/-- **A worker with a sentinel ahead can move.** -/
theorem OnTrack.canMove {k : Nat} {w : PoolWorker} (h : j.OnTrack)
    (hw : j.course.pool.workers[k]? = some w) (hg : w.stage.isGone = false) :
    ∃ j', j.Step Move.IsSafe j' := by
  cases hd : j.course.pool.delegating? k with
  | some d =>
    exact ⟨_, .delegated k default, trivial, move?_delegated.mpr ⟨d, hd, rfl⟩⟩
  | none =>
    obtain ⟨left, hstaff, -⟩ := h.manned.staffed hw hg
    have hn := hstaff.incarnation w (List.mem_of_getElem? hw)
    have hready : w.isServed = false →
        (j.queue.topicAt w.subscription.incarnation).ready ≠ [] := by
      intro hf hnil
      have hsent := hstaff.sentinels
      rw [Queue.topicOf_of_some hn, hnil, List.countP_nil] at hsent
      have hpos : 0 < j.course.pool.workers.countP PoolWorker.isUnserved :=
        List.countP_pos_iff.mpr
          ⟨w, List.mem_of_getElem? hw, by simp [PoolWorker.isUnserved, hf, hg]⟩
      omega
    obtain ⟨p, q', ns, hstep⟩ := Pool.exists_step? hw hg hd hready default
    exact ⟨_, .work k default, trivial, move?_work.mpr ⟨p, q', ns, hstep, rfl⟩⟩

/-- Every question has an answer that fits. -/
theorem exists_fits (r : CourseRequest) : ∃ a : CourseAnswer, a.Fits r := by
  cases r with
  | persist => exact ⟨.persisted (.ok ()), trivial⟩
  | load => exact ⟨.loaded (.ok none), trivial⟩
  | plan => exact ⟨.planned (.ok []), trivial⟩
  | judge => exact ⟨.judged (.ok default), trivial⟩

/-- **No journey on its track is stuck.** -/
theorem OnTrack.exists_step (h : j.OnTrack) (hover : j.course.isOver = false) :
    ∃ j', j.Step Move.IsSafe j' := by
  cases hr : j.course.request? with
  | some r =>
    obtain ⟨a, ha⟩ := exists_fits r
    exact ⟨_, .answered a default, trivial, move?_answered.mpr ⟨r, hr, ha, rfl⟩⟩
  | none =>
    rcases exists_move hr hover with ⟨j', hm⟩ | ⟨k, w, hw, hg⟩
    · exact ⟨j', .own default, trivial, hm⟩
    · exact h.canMove hw hg

/-- **A journey on its track comes to its end.** -/
theorem OnTrack.ends (h : j.OnTrack) : j.Ends := by
  induction j using Nearer.wf.induction with
  | _ j ih =>
    cases hover : j.course.isOver with
    | true => exact .over hover
    | false =>
      refine .move (h.exists_step hover) ?_
      rintro j' ⟨m, -, hm⟩
      obtain ⟨h', hnear⟩ := h.move hm
      exact ih j' hnear h'

/-- Where any moves have led, the way goes on to the end. -/
theorem OnTrack.reaches {kind : Move → Prop} (h : j.OnTrack) (hr : j.Reaches kind j') :
    j'.OnTrack :=
  hr.keeps (fun _ hm ha => (ha.move hm).1) h

/-- **What every move keeps on the track** holds wherever moves have led. -/
theorem OnTrack.keeps {kind : Move → Prop} {P : Journey → Prop} (h : j.OnTrack)
    (hr : j.Reaches kind j')
    (hstep : ∀ {a b : Journey} {m : Move}, a.OnTrack → kind m → a.move? m = some b → P a → P b)
    (hj : P j) : P j' := by
  have hboth : j'.OnTrack ∧ P j' := by
    refine Reaches.keeps (P := fun a => a.OnTrack ∧ P a) hr (fun hkind hm ha => ?_) ⟨h, hj⟩
    exact ⟨(ha.1.move hm).1, hstep ha.1 hkind hm ha.2⟩
  exact hboth.2

/-! ### From the outset -/

/-- **A run that is called for**: it is refused on the spot, before anything is asked, told
or done with the queue, or it is at its outset. -/
def embark (run : RunId) (mission : String) (workers limit : Nat) (delegation : Delegation)
    (now : Instant) (q : Queue Task) : Except CourseFault Journey :=
  (Course.begin run mission workers limit delegation now).map fun (c, ns) => outset c q ns

variable {run : RunId} {mission : String} {workers limit : Nat} {delegation : Delegation}
  {now : Instant} {q : Queue Task}

theorem embark_of_noWorkers :
    embark run mission 0 limit delegation now q = .error .noWorkers := rfl

theorem embark_of_noRounds (hw : 0 < workers) :
    embark run mission workers 0 delegation now q = .error .noRounds := by
  rw [embark, Course.begin, if_neg (by omega), if_pos rfl]
  rfl

theorem embark_of_pos (run : RunId) (mission : String) (delegation : Delegation) (now : Instant)
    (q : Queue Task) (hw : 0 < workers) (hl : 0 < limit) :
    ∃ ns, embark run mission workers limit delegation now q = .ok (outset
      { state := .start run mission now, workers, limit, delegation
        pool := .empty run 0 delegation, stage := .recording } q ns) := by
  rw [embark, Course.begin, if_neg (by omega), if_neg (by omega)]
  exact ⟨_, rfl⟩

/-- **A run that is not refused** has workers and rounds, and is at its outset. -/
theorem embark_eq_ok {j₀ : Journey}
    (h : embark run mission workers limit delegation now q = .ok j₀) :
    0 < workers ∧ 0 < limit ∧ ∃ ns, j₀ = outset
      { state := .start run mission now, workers, limit, delegation
        pool := .empty run 0 delegation, stage := .recording } q ns := by
  rcases Nat.eq_zero_or_pos workers with rfl | hw
  · rw [embark_of_noWorkers] at h
    cases h
  rcases Nat.eq_zero_or_pos limit with rfl | hl
  · rw [embark_of_noRounds hw] at h
    cases h
  obtain ⟨ns, hok⟩ := embark_of_pos run mission delegation now q hw hl
  exact ⟨hw, hl, ns, Except.ok.inj (h.symm.trans hok)⟩

/-- A run at its outset is on its track. -/
theorem OnTrack.embark {j₀ : Journey} (hq : q.Sound) (hl : limit < 2 ^ 32)
    (h : embark run mission workers limit delegation now q = .ok j₀) : j₀.OnTrack := by
  obtain ⟨-, hpos, ns, rfl⟩ := embark_eq_ok h
  exact ⟨hq, ⟨hpos, hl, Nat.zero_le _, rfl⟩, rfl⟩

/-- **Every run comes to its end.** -/
theorem ends_of_embark {j₀ : Journey} (hq : q.Sound) (hl : limit < 2 ^ 32)
    (h : embark run mission workers limit delegation now q = .ok j₀) : j₀.Ends :=
  (OnTrack.embark hq hl h).ends

end Journey

end Roundtable

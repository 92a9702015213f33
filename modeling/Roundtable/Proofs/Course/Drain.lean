import Roundtable.Proofs.Pool.Ledger

/-!
# The drain of a round

A round puts its tasks on its topic and one sentinel for each worker behind them
(`Roundtable.roundPayloads`), hires the workers and lets them drain the topic. On a topic
that is clear at first, **the drain is exact under every interleaving** of the workers
(`Roundtable.Journey.drain_exact`): no task is lost or run twice, nothing gets stuck, and
what is collected in the end is one result for each task.

The proof follows the stages. While the course publishes, the topic holds what was
published so far and nobody works on it; from the first worker on, the ledger of the drain
is kept (`Roundtable.Pool.Ledger`).
-/

namespace Roundtable

/-! ### Orders -/

/-- Payloads in a row, each as a message with the next id. -/
def ordersFrom (topic : String) (base : Nat) (ps : List (Payload Task)) : List (Envelope Task) :=
  (ps.zipIdx base).map fun x => ⟨topic, x.1, x.2, 1⟩

/-- What a round publishes: its tasks, and sentinels behind them. -/
def roundPayloads (tasks : List Task) (sentinels : Nat) : List (Payload Task) :=
  tasks.map .item ++ List.replicate sentinels .sentinel

section Orders

variable {topic : String} {base n k : Nat} {ps : List (Payload Task)} {p : Payload Task}
  {tasks : List Task} {t : Task}

theorem ordersFrom_concat : ordersFrom topic base (ps ++ [p]) =
    ordersFrom topic base ps ++ [⟨topic, p, base + ps.length, 1⟩] := by
  simp [ordersFrom, List.zipIdx_append]

theorem roundPayloads_succ :
    roundPayloads tasks (n + 1) = roundPayloads tasks n ++ [.sentinel] := by
  simp [roundPayloads, List.replicate_succ']

theorem length_roundPayloads : (roundPayloads tasks n).length = tasks.length + n := by
  simp [roundPayloads]

/-- Orders are numbered in a row. -/
theorem map_id_ordersFrom :
    (ordersFrom topic base ps).map (·.id) = List.range' base ps.length := by
  rw [ordersFrom, List.map_map]
  exact List.zipIdx_map_snd base ps

theorem nodup_ordersFrom : ((ordersFrom topic base ps).map (·.id)).Nodup := by
  rw [map_id_ordersFrom]
  exact List.nodup_range'

/-- The order of a task. -/
theorem mem_ordersFrom (h : tasks[k]? = some t) :
    ⟨topic, .item t, base + k, 1⟩ ∈ ordersFrom topic base (roundPayloads tasks n) := by
  have hk : (roundPayloads tasks n)[k]? = some (.item t) := by
    have hlt : k < tasks.length := (List.getElem?_eq_some_iff.mp h).1
    rw [roundPayloads, List.getElem?_append_left (by simpa using hlt), List.getElem?_map, h]
    rfl
  refine List.mem_map.mpr ⟨(.item t, base + k), List.mem_iff_getElem?.mpr ⟨k, ?_⟩, rfl⟩
  rw [List.getElem?_zipIdx, hk]
  rfl

/-- Sentinels come last. -/
theorem isSentinel_getLast? (hn : 0 < n) :
    ∀ e ∈ (ordersFrom topic base (roundPayloads tasks n)).getLast?,
      e.payload.isSentinel = true := by
  obtain ⟨n, rfl⟩ := Nat.exists_eq_add_of_lt hn
  intro e he
  rw [Nat.zero_add, roundPayloads_succ, ordersFrom_concat, List.getLast?_concat] at he
  obtain rfl := Option.some.inj he
  rfl

/-- As many sentinels are ordered as there are workers. -/
theorem countP_isSentinel :
    (ordersFrom topic base (roundPayloads tasks n)).countP (·.payload.isSentinel) = n := by
  induction n with
  | zero =>
    refine List.countP_eq_zero.mpr fun e he => ?_
    obtain ⟨x, hx, rfl⟩ := List.mem_map.mp he
    have hmem : x.1 ∈ roundPayloads tasks 0 := List.fst_mem_of_mem_zipIdx hx
    obtain ⟨t, -, ht⟩ : ∃ t, t ∈ tasks ∧ Payload.item t = x.1 := by
      simpa [roundPayloads] using hmem
    simp [← ht, Payload.isSentinel]
  | succ n ih =>
    rw [roundPayloads_succ, ordersFrom_concat, List.countP_append, ih]
    rfl

/-- The orders of the tasks, and what they are numbered with. -/
theorem map_filter_ordersFrom {β : Type} (f : Nat → β) :
    ((ordersFrom topic base (roundPayloads tasks n)).filter fun e =>
      !e.payload.isSentinel).map (fun e => f e.id) =
    tasks.mapIdx fun k _ => f (base + k) := by
  induction n with
  | zero =>
    have hkeep : (ordersFrom topic base (roundPayloads tasks 0)).filter
        (fun e => !e.payload.isSentinel) = ordersFrom topic base (roundPayloads tasks 0) := by
      refine List.filter_eq_self.mpr fun e he => ?_
      have := List.countP_eq_zero.mp (countP_isSentinel (n := 0)) e he
      simpa using this
    have hids : ((ordersFrom topic base (roundPayloads tasks 0)).map (·.id)).map f =
        (List.range' base tasks.length).map f := by
      rw [map_id_ordersFrom, length_roundPayloads]
      rfl
    rw [List.map_map] at hids
    refine (congrArg (List.map _) hkeep).trans (hids.trans ?_)
    exact List.ext_getElem (by simp) fun k _ _ => by simp
  | succ n ih =>
    rw [roundPayloads_succ, ordersFrom_concat, List.filter_append, List.map_append, ih]
    simp [Payload.isSentinel]

end Orders

/-! ### The stages of a round -/

namespace Journey

variable {c : Course} {tasks : List Task} {q : Queue Task} {j j' : Journey}

/-- What the round of `c` orders on the queue `q`. -/
abbrev orders (c : Course) (tasks : List Task) (q : Queue Task) : List (Envelope Task) :=
  ordersFrom c.run.topic q.nextId (roundPayloads tasks c.workers)

/-- **Payloads were published** on a topic that was clear, and nobody has been hired. -/
structure Published (c : Course) (q : Queue Task) (ps : List (Payload Task)) (j : Journey) :
    Prop where
  ready : (j.queue.topicOf c.run.topic).ready = ordersFrom c.run.topic q.nextId ps
  inFlight : (j.queue.topicOf c.run.topic).inFlight = []
  nextId : j.queue.nextId = q.nextId + ps.length
  workers : j.course.pool.workers = []
  results : j.course.pool.results = []
  deeds : j.deedsOf c.state.round = []

/-- **Workers are at the orders**, and `left` of them are still to be hired. -/
def AtWork (c : Course) (tasks : List Task) (q : Queue Task) (left : Nat) (j : Journey) : Prop :=
  ∃ i, j.queue.current? c.run.topic = some i ∧
    j.course.pool.Ledger (orders c tasks q) i left (j.queue.topicAt i) (j.deedsOf c.state.round)

/-- What holds at each stage between the answer of the planner and the question to the
judge. -/
def AtStage (c : Course) (tasks : List Task) (q : Queue Task) (j : Journey) : Prop :=
  match j.course.stage with
  | .dispatching rest => ∃ sent, tasks = sent ++ rest ∧ j.Published c q (sent.map .item)
  | .dismissing left => ∃ sent, sent + left = c.workers ∧ j.Published c q (roundPayloads tasks sent)
  | .hiring left => j.AtWork c tasks q left ∧ j.course.pool.workers.length + left = c.workers
  | .draining => j.AtWork c tasks q 0 ∧ j.course.pool.workers.length = c.workers
  | .judging r => j.AtWork c tasks q 0 ∧ j.course.pool.workers.length = c.workers ∧
      j.course.pool.isDrained = true ∧ r.results = j.course.pool.results
  | _ => False

/-- **A round between the answer of the planner and the question to the judge.** -/
structure InRound (c : Course) (tasks : List Task) (q : Queue Task) (j : Journey) : Prop where
  sound : j.queue.Sound
  run : j.course.run = c.run
  round : j.round = c.state.round
  workers : j.course.workers = c.workers
  error : j.course.state.error = c.state.error
  stage : j.AtStage c tasks q

/-- One payload more is published. -/
theorem Published.enqueue {ps : List (Payload Task)} (h : j.Published c q ps)
    (hs : j.queue.Sound) (p : Payload Task) (c' : Course) (hp : c'.pool = j.course.pool)
    (ns : List Notice) :
    (j.advance c' (j.queue.enqueue c.run.topic p).2 ns).Published c q (ps ++ [p]) := by
  have htopic := Queue.topicOf_enqueue hs c.run.topic p
  refine ⟨?_, ?_, ?_, ?_, ?_, h.deeds⟩
  · refine (congrArg Topic.ready htopic).trans ?_
    rw [ordersFrom_concat, ← h.ready, ← h.nextId]
    rfl
  · exact (congrArg Topic.inFlight htopic).trans h.inFlight
  · refine (Queue.nextId_enqueue _ _ _).trans ?_
    rw [h.nextId, List.length_append]
    rfl
  · exact (congrArg Pool.workers hp).trans h.workers
  · exact (congrArg Pool.results hp).trans h.results

/-- Nothing is published. -/
theorem Published.advance {ps : List (Payload Task)} (h : j.Published c q ps) (c' : Course)
    (hp : c'.pool = j.course.pool) (ns : List Notice) :
    (j.advance c' j.queue ns).Published c q ps :=
  ⟨h.ready, h.inFlight, h.nextId, (congrArg Pool.workers hp).trans h.workers,
    (congrArg Pool.results hp).trans h.results, h.deeds⟩

/-- **The first worker is about to be hired**: the orders are all there. -/
theorem Published.atWork (h : j.Published c q (roundPayloads tasks c.workers))
    (hw : 0 < c.workers) : j.AtWork c tasks q c.workers := by
  have hname : j.queue.current? c.run.topic ≠ none := by
    intro hnone
    have hempty := congrArg List.length h.ready
    rw [Queue.topicOf_of_none hnone] at hempty
    simp [Topic.empty, ordersFrom, length_roundPayloads] at hempty
    omega
  obtain ⟨i, hi⟩ := Option.ne_none_iff_exists'.mp hname
  have htopic := Queue.topicOf_of_some hi
  refine ⟨i, hi, ?_⟩
  rw [h.deeds]
  exact .published nodup_ordersFrom (htopic ▸ h.ready) (htopic ▸ h.inFlight) h.workers h.results
    countP_isSentinel

/-- A worker more is hired. -/
theorem AtWork.hire {left : Nat} (h : j.AtWork c tasks q (left + 1)) (hrun : j.topic = c.run.topic)
    (ns : List Notice) (stage : CourseStage) :
    (j.queue.subscribe j.topic).2 = j.queue ∧
    (j.advance
      { j.course with pool := j.course.pool.hire (j.queue.subscribe j.topic).1, stage := stage }
      (j.queue.subscribe j.topic).2 ns).AtWork c tasks q left := by
  obtain ⟨i, hi, hledger⟩ := h
  have hsub : j.queue.subscribe j.topic = (⟨i, false⟩, j.queue) := by
    simp [Queue.subscribe, hrun, Queue.enter_of_some hi]
  rw [hsub]
  exact ⟨rfl, i, hi, hledger.hire⟩

/-- **A drained pool has left its topic clear.** -/
theorem AtWork.drained (h : j.AtWork c tasks q 0) (hw : 0 < c.workers)
    (hd : j.course.pool.isDrained = true) : (j.queue.topicOf c.run.topic).IsClear := by
  obtain ⟨i, hi, hledger⟩ := h
  rw [Queue.topicOf_of_some hi]
  exact ⟨hledger.ready_eq_nil hd (isSentinel_getLast? hw), hledger.inFlight_eq_nil hd⟩

/-- **A drained pool is balanced.** -/
theorem AtWork.balanced (h : j.AtWork c tasks q 0) (hw : 0 < c.workers)
    (hd : j.course.pool.isDrained = true) (hn : j.course.pool.workers.length = c.workers) :
    j.course.pool.report.isBalanced c.workers (j.queue.topicOf c.run.topic).stats = true := by
  obtain ⟨hready, hflight⟩ := h.drained hw hd
  obtain ⟨i, hi, hledger⟩ := h
  rw [hledger.report_eq hd, hn]
  simp [PoolReport.isBalanced, PoolReport.consumed, Topic.stats, hready, hflight]

/-- **A step of the course keeps the round.** -/
theorem InRound.own {m : Moment} (hw : 0 < c.workers) (h : j.InRound c tasks q)
    (hm : j.move? (.own m) = some j') : j'.InRound c tasks q := by
  obtain ⟨c', q', ns, hstride, rfl⟩ := move?_own.mp hm
  obtain ⟨hsound, hrun, hround, hworkers, herror, hstage⟩ := h
  have htopic : j.course.run.topic = c.run.topic := congrArg RunId.topic hrun
  unfold AtStage at hstage
  -- The orders grow by one while tasks and then sentinels are published, and are complete
  -- before the first worker is hired.
  cases hstride with
  | @publish t rest hs =>
    rw [hs] at hstage
    obtain ⟨sent, htasks, hpub⟩ := hstage
    have hnext := hpub.enqueue hsound (.item t) (j.course.goOn (.dispatching rest)) rfl []
    rw [htopic]
    refine ⟨hsound.enqueue _ _, hrun, hround, hworkers, herror, sent ++ [t], by simp [htasks], ?_⟩
    rw [List.map_append]
    exact hnext
  | published hs =>
    rw [hs] at hstage
    obtain ⟨sent, htasks, hpub⟩ := hstage
    obtain rfl : tasks = sent := by simpa using htasks
    have hpub' : j.Published c q (roundPayloads tasks 0) := by simpa [roundPayloads] using hpub
    have hnext := hpub'.advance (j.course.goOn (.dismissing j.course.workers)) rfl []
    exact ⟨hsound, hrun, hround, hworkers, herror, 0, by rw [Nat.zero_add, hworkers], hnext⟩
  | @dismiss n hs =>
    rw [hs] at hstage
    obtain ⟨sent, hsent, hpub⟩ := hstage
    have hnext := hpub.enqueue hsound .sentinel (j.course.goOn (.dismissing n)) rfl []
    rw [htopic]
    refine ⟨hsound.enqueue _ _, hrun, hround, hworkers, herror, sent + 1, by omega, ?_⟩
    rw [roundPayloads_succ]
    exact hnext
  | dismissed hs =>
    rw [hs] at hstage
    obtain ⟨sent, hsent, hpub⟩ := hstage
    obtain rfl : sent = c.workers := by omega
    refine ⟨hsound, hrun, hround, hworkers, herror, ?_, ?_⟩
    · rw [hworkers]
      refine Published.atWork (hpub.advance _ ?_ _) hw
      rfl
    · rw [hworkers]
      exact (congrArg (·.length + c.workers) hpub.workers).trans (Nat.zero_add _)
  | @hire n hs =>
    rw [hs] at hstage
    obtain ⟨hwork, hn⟩ := hstage
    obtain ⟨hsame, hnext⟩ := hwork.hire htopic [] (.hiring n)
    refine ⟨?_, hrun, hround, hworkers, herror, hnext, ?_⟩
    · exact (congrArg Queue.Sound hsame).mpr hsound
    · simp only [advance, Pool.hire, List.length_append, List.length_singleton]
      omega
  | hired hs =>
    rw [hs] at hstage
    exact ⟨hsound, hrun, hround, hworkers, herror, hstage.1, hstage.2⟩
  | drained hs hd =>
    rw [hs] at hstage
    obtain ⟨hwork, hn⟩ := hstage
    -- The pool is balanced, so nothing is said of it.
    have hbalanced := hwork.balanced hw hd hn
    have hcheck : j.course.checkDrained j.queue m.now = (j.course, []) := by
      rw [Course.checkDrained, htopic, Queue.stats?_getD, hworkers, if_pos hbalanced]
    rw [hcheck]
    exact ⟨hsound, hrun, hround, hworkers, herror, hwork, hn, hd, rfl⟩
  | leave hs =>
    rw [hs] at hstage
    exact hstage.elim

/-- **A worker that is not gone** has been hired to drain the orders. -/
theorem InRound.atWork (h : j.InRound c tasks q) {k : Nat} {w : PoolWorker}
    (hw : j.course.pool.workers[k]? = some w) (hg : w.stage.isGone = false) :
    ∃ left, j.AtWork c tasks q left ∧
      ∀ j' : Journey, j'.course.stage = j.course.stage → j'.AtWork c tasks q left →
        j'.course.pool.workers.length = j.course.pool.workers.length → j'.AtStage c tasks q := by
  have hstage := h.stage
  unfold AtStage at hstage
  -- Before the workers are hired there is none, and before the judge is asked all are gone.
  split at hstage
  · obtain ⟨_, -, hpub⟩ := hstage
    simp [hpub.workers] at hw
  · obtain ⟨_, -, hpub⟩ := hstage
    simp [hpub.workers] at hw
  · next left hs =>
    refine ⟨left, hstage.1, fun j' hs' hwork hn => ?_⟩
    rw [AtStage, hs', hs, hn]
    exact ⟨hwork, hstage.2⟩
  · next hs =>
    refine ⟨0, hstage.1, fun j' hs' hwork hn => ?_⟩
    rw [AtStage, hs', hs, hn]
    exact ⟨hwork, hstage.2⟩
  · have := List.all_eq_true.mp hstage.2.2.1 w (List.mem_of_getElem? hw)
    simp [hg] at this
  · exact hstage.elim

/-- **A turn of a worker keeps the round.** -/
theorem InRound.work {k : Nat} {now : Instant} (h : j.InRound c tasks q)
    (hm : j.move? (.work k now) = some j') : j'.InRound c tasks q := by
  obtain ⟨p, q', ns, hstep, rfl⟩ := move?_work.mp hm
  have hturn := Pool.turn_of_step? hstep
  obtain ⟨w, w', hw, hg, hset⟩ := hturn.worker
  obtain ⟨left, ⟨i, hi, hledger⟩, hstage⟩ := h.atWork hw hg
  refine ⟨hturn.sound h.sound, h.run, h.round, h.workers, h.error, hstage _ rfl ⟨i, ?_, ?_⟩ ?_⟩
  · exact (hturn.current? _).trans hi
  · have hnext := hledger.turn nodup_ordersFrom h.sound hi hturn
    have hdeeds := deedsOf_did j (j.course.pool.deed? k j.queue) c.state.round
    rw [if_pos h.round] at hdeeds
    exact hdeeds ▸ hnext
  · exact (congrArg List.length hset).trans List.length_set

/-- **A delegation that comes back keeps the round.** -/
theorem InRound.delegated {k : Nat} {r : SubAgentResult} (h : j.InRound c tasks q)
    (hm : j.move? (.delegated k r) = some j') : j'.InRound c tasks q := by
  obtain ⟨d, hd, rfl⟩ := move?_delegated.mp hm
  obtain ⟨w, a, hw, hs⟩ := Pool.delegating?_eq_some hd
  obtain ⟨left, ⟨i, hi, hledger⟩, hstage⟩ := h.atWork hw (by rw [hs]; rfl)
  refine ⟨h.sound, h.run, h.round, h.workers, h.error, hstage _ rfl ⟨i, hi, ?_⟩ ?_⟩
  · have hnext := hledger.delegated hd r
    have hdeeds := deedsOf_did j (some (.delegated d r)) c.state.round
    rw [if_pos h.round] at hdeeds
    exact hdeeds ▸ hnext
  · rw [show (Journey.advance _ _ _ _).course.pool = _ from rfl, Pool.delegated_eq hw hs]
    exact List.length_set

/-- **Every move of the round keeps it.** -/
theorem InRound.move {m : Move} (hw : 0 < c.workers) (hkind : m.IsDrain)
    (hm : j.move? m = some j') (h : j.InRound c tasks q) : j'.InRound c tasks q := by
  cases m with
  | own m => exact h.own hw hm
  | work i now => exact h.work hm
  | delegated i r => exact h.delegated hm
  | lost i => exact hkind.elim
  | answered a m => exact hkind.elim

/-- **A round that has begun** stays a round wherever its moves lead. -/
theorem Reaches.inRound (hq : q.Sound) (hclear : (q.topicOf c.run.topic).IsClear)
    (hw : 0 < c.workers) (hworkers : c.pool.workers = []) (hresults : c.pool.results = [])
    (hj : (outset (c.dispatch tasks) q []).Reaches Move.IsDrain j) : j.InRound c tasks q := by
  refine Reaches.keeps hj (fun hkind hm h => h.move hw hkind hm) ?_
  exact ⟨hq, rfl, rfl, rfl, rfl, [], rfl, hclear.1, hclear.2, rfl, hworkers, hresults, rfl⟩

/-! ### What holds along the way -/

/-- **A worker that is not gone can move**, whatever the others do. -/
theorem InRound.canMove {k : Nat} {w : PoolWorker} (h : j.InRound c tasks q)
    (hw : j.course.pool.workers[k]? = some w) (hg : w.stage.isGone = false) :
    ∃ j', j.Step (Move.IsBy k) j' := by
  cases hd : j.course.pool.delegating? k with
  | some d =>
    exact ⟨_, .delegated k default, rfl, move?_delegated.mpr ⟨d, hd, rfl⟩⟩
  | none =>
    obtain ⟨left, ⟨i, -, hledger⟩, -⟩ := h.atWork hw hg
    have hi := (hledger.workers w (List.mem_of_getElem? hw)).incarnation
    obtain ⟨p, q', ns, hstep⟩ :=
      Pool.exists_step? hw hg hd (fun hf => hi ▸ hledger.ready_ne_nil hw hf) default
    exact ⟨_, .work k default, rfl, move?_work.mpr ⟨p, q', ns, hstep, rfl⟩⟩

/-- **A round is never stuck** before the judge is asked. -/
theorem InRound.exists_step (h : j.InRound c tasks q)
    (hs : ∀ r, j.course.stage ≠ .judging r) : ∃ j', j.Step Move.IsDrain j' := by
  have hstage := h.stage
  unfold AtStage at hstage
  have hidle : j.course.request? = none ∧ j.course.isOver = false := by
    unfold Course.request? Course.isOver
    split at hstage
    · next rest hr => simp [hr]
    · next left hl => simp [hl]
    · next left hl => simp [hl]
    · next hdrain => simp [hdrain]
    · next r hr => exact absurd hr (hs r)
    · exact hstage.elim
  rcases exists_move hidle.1 hidle.2 with ⟨j', hm⟩ | ⟨k, w, hw, hg⟩
  · exact ⟨j', .own default, trivial, hm⟩
  · obtain ⟨j', m, hby, hm⟩ := h.canMove hw hg
    exact ⟨j', m, hby.isDrain, hm⟩

/-- Where a delivery stands on the run's topic in the round under way. -/
def standing (j : Journey) (d : Nat) : Standing :=
  .of (j.queue.topicOf j.topic) (j.deedsOf j.round) d

/-- What was published and has not been taken waits. -/
theorem Published.standing {ps : List (Payload Task)} (h : j.Published c q ps)
    (ht : j.topic = c.run.topic) (hr : j.round = c.state.round) {e : Envelope Task}
    (he : e ∈ ordersFrom c.run.topic q.nextId ps) : j.standing e.id = .pending := by
  have hone := Pool.Ledger.countP_id nodup_ordersFrom he
  have hdeeds : j.deedsOf j.round = [] := hr ▸ h.deeds
  simp [Journey.standing, Standing.of, Standing.pending, Topic.waiting, Topic.flying, ht, h.ready,
    h.inFlight, hone, hdeeds]

/-- **A task of the round is accounted for** under the delivery `d`. -/
structure Accounts (j : Journey) (d : Nat) (t : Task) : Prop where
  /-- It waits, or is in flight without its result in the collection or with it, or is
  acknowledged with its result in the collection. -/
  standing : j.standing d ∈
    [Standing.pending, Standing.underWay, Standing.collected, Standing.settled]
  /-- It was not run twice. -/
  once : (j.deedsOf j.round).countP (Deed.isDelegated d) ≤ 1
  /-- Its message carries it. -/
  message : ∀ e, e ∈ (j.queue.topicOf j.topic).ready ∨ e ∈ (j.queue.topicOf j.topic).inFlight →
    e.id = d → e.payload = .item t

theorem Published.accounts {ps : List (Payload Task)} (h : j.Published c q ps)
    (ht : j.topic = c.run.topic) (hr : j.round = c.state.round) {k : Nat} {t : Task}
    (hmem : ⟨c.run.topic, .item t, q.nextId + k, 1⟩ ∈ ordersFrom c.run.topic q.nextId ps) :
    j.Accounts (q.nextId + k) t := by
  refine ⟨?_, by simp [hr, h.deeds], fun e he hid => ?_⟩
  · have := h.standing ht hr hmem
    simp [this]
  · rw [ht, h.ready, h.inFlight] at he
    rcases he with he | he
    · rw [Pool.Ledger.order_unique nodup_ordersFrom he hmem hid]
    · simp at he

theorem AtWork.accounts {left : Nat} (h : j.AtWork c tasks q left) (ht : j.topic = c.run.topic)
    (hr : j.round = c.state.round) {k : Nat} {t : Task} (hk : tasks[k]? = some t) :
    j.Accounts (q.nextId + k) t := by
  obtain ⟨i, hi, hledger⟩ := h
  have hmem : ⟨c.run.topic, .item t, q.nextId + k, 1⟩ ∈ orders c tasks q := mem_ordersFrom hk
  have htopic : j.queue.topicOf j.topic = j.queue.topicAt i := by
    rw [ht, Queue.topicOf_of_some hi]
  refine ⟨?_, ?_, fun e he hid => ?_⟩
  · rw [Journey.standing, htopic, hr]
    exact hledger.standing hmem rfl
  · rw [hr]
    exact hledger.delegated_le_one hmem rfl
  · rw [htopic] at he
    have heo : e ∈ orders c tasks q := he.elim hledger.mem_of_ready (hledger.inFlight e)
    rw [Pool.Ledger.order_unique nodup_ordersFrom heo hmem hid]

/-- **Every task that was published is accounted for.** -/
theorem InRound.accounts (h : j.InRound c tasks q) {k : Nat} {t : Task} (hk : tasks[k]? = some t)
    (hpub : ∀ rest, j.course.stage = .dispatching rest → k + rest.length < tasks.length) :
    j.Accounts (q.nextId + k) t := by
  have ht : j.topic = c.run.topic := congrArg RunId.topic h.run
  have hstage := h.stage
  unfold AtStage at hstage
  split at hstage
  · next rest hs =>
    obtain ⟨sent, htasks, hp⟩ := hstage
    have hlt := hpub rest hs
    rw [htasks, List.length_append] at hlt
    have hsent : sent[k]? = some t := by
      rwa [htasks, List.getElem?_append_left (by omega)] at hk
    have hmem : ⟨c.run.topic, .item t, q.nextId + k, 1⟩ ∈
        ordersFrom c.run.topic q.nextId (roundPayloads sent 0) := mem_ordersFrom hsent
    rw [roundPayloads, List.replicate_zero, List.append_nil] at hmem
    exact hp.accounts ht h.round hmem
  · obtain ⟨sent, -, hp⟩ := hstage
    exact hp.accounts ht h.round (mem_ordersFrom hk)
  · exact hstage.1.accounts ht h.round hk
  · exact hstage.1.accounts ht h.round hk
  · exact hstage.1.accounts ht h.round hk
  · exact hstage.elim

/-- Once as many workers are hired as the course has, all of them are at the orders. -/
theorem InRound.atWork_of_length (h : j.InRound c tasks q) (hw : 0 < c.workers)
    (hn : j.course.pool.workers.length = c.workers) : j.AtWork c tasks q 0 := by
  have hstage := h.stage
  unfold AtStage at hstage
  split at hstage
  · obtain ⟨_, -, hpub⟩ := hstage
    rw [hpub.workers, List.length_nil] at hn
    omega
  · obtain ⟨_, -, hpub⟩ := hstage
    rw [hpub.workers, List.length_nil] at hn
    omega
  · next left _ =>
    obtain rfl : left = 0 := by omega
    exact hstage.1
  · exact hstage.1
  · exact hstage.1
  · exact hstage.elim

/-- **When all workers are gone** their results are one for each task, each from the one
delegation of its task. -/
theorem AtWork.exists_outcome (h : j.AtWork c tasks q 0) (hw : 0 < c.workers)
    (hr : j.round = c.state.round) (hd : j.course.pool.isDrained = true) :
    ∃ outcome : Nat → SubAgentResult,
      (∀ k, k < tasks.length → .delegated (q.nextId + k) (outcome k) ∈ j.deedsOf j.round) ∧
      j.course.pool.results.Perm (tasks.mapIdx fun k t => .ofSubAgent t.id (outcome k)) := by
  obtain ⟨i, hi, hledger⟩ := h
  have hready := hledger.ready_eq_nil hd (isSentinel_getLast? hw)
  obtain ⟨f, hperm, hf⟩ := hledger.results_perm nodup_ordersFrom hd hready
  have hall : ∀ k, ∃ res, ∀ t, tasks[k]? = some t →
      .delegated (q.nextId + k) res ∈ j.deedsOf j.round ∧
        f (q.nextId + k) = .ofSubAgent t.id res := by
    intro k
    cases hk : tasks[k]? with
    | none => exact ⟨default, by simp⟩
    | some t =>
      obtain ⟨res, hres, heq⟩ := hf _ (mem_ordersFrom hk) t rfl
      refine ⟨res, fun t' ht' => ?_⟩
      obtain rfl := Option.some.inj ht'
      exact ⟨hr ▸ hres, heq⟩
  choose outcome houtcome using hall
  refine ⟨outcome, fun k hk => (houtcome k _ (List.getElem?_eq_getElem hk)).1, ?_⟩
  rw [map_filter_ordersFrom] at hperm
  refine hperm.trans (List.Perm.of_eq (List.ext_getElem (by simp) fun k h₁ _ => ?_))
  have hk : k < tasks.length := by simpa using h₁
  simpa using (houtcome k _ (List.getElem?_eq_getElem hk)).2

/-- **The drain of a round is exact under every interleaving.** On a topic that is clear,
with any tasks and at least one worker, wherever the moves of the round lead:

- every task that was published is accounted for;
- a worker that is not gone can move, and so can the round until the judge is asked;
- once all workers are hired and gone, the collection holds one result for each task, each
  from the one delegation of its task, every worker has had one sentinel, and the topic is
  clear; the judge is asked about just these results, and no failure has been recorded. -/
theorem drain_exact (hq : q.Reachable) (hclear : (q.topicOf c.run.topic).IsClear)
    (hw : 0 < c.workers) (hworkers : c.pool.workers = []) (hresults : c.pool.results = [])
    (hj : (outset (c.dispatch tasks) q []).Reaches Move.IsDrain j) :
    (∀ k t, tasks[k]? = some t →
      (∀ rest, j.course.stage = .dispatching rest → k + rest.length < tasks.length) →
      j.Accounts (q.nextId + k) t) ∧
    ((∀ k w, j.course.pool.workers[k]? = some w → w.stage.isGone = false →
        ∃ j', j.Step (Move.IsBy k) j') ∧
      ((∀ r, j.course.stage ≠ .judging r) → ∃ j', j.Step Move.IsDrain j')) ∧
    (j.course.pool.workers.length = c.workers → j.course.pool.isDrained = true →
      (∃ outcome : Nat → SubAgentResult,
        (∀ k, k < tasks.length → .delegated (q.nextId + k) (outcome k) ∈ j.deedsOf j.round) ∧
        j.course.pool.results.Perm (tasks.mapIdx fun k t => .ofSubAgent t.id (outcome k))) ∧
      j.course.pool.report = ⟨j.course.pool.results, List.replicate c.workers 1, 0⟩ ∧
      (j.queue.topicOf j.topic).IsClear) ∧
    (∀ r, j.course.stage = .judging r →
      j.course.pool.workers.length = c.workers ∧ j.course.pool.isDrained = true ∧
      r.results = j.course.pool.results ∧ j.course.state.error = c.state.error) := by
  have h := hj.inRound hq.sound hclear hw hworkers hresults
  refine ⟨fun k t hk hpub => h.accounts hk hpub,
    ⟨fun k w hk hg => h.canMove hk hg, fun hs => h.exists_step hs⟩, fun hn hd => ?_, fun r hr => ?_⟩
  · have hwork := h.atWork_of_length hw hn
    refine ⟨hwork.exists_outcome hw h.round hd, ?_, ?_⟩
    · obtain ⟨i, -, hledger⟩ := hwork
      rw [hledger.report_eq hd, hn]
    · have ht : j.topic = c.run.topic := congrArg RunId.topic h.run
      exact ht ▸ hwork.drained hw hd
  · have hstage := h.stage
    rw [AtStage, hr] at hstage
    exact ⟨hstage.2.1, hstage.2.2.1, hstage.2.2.2, h.error⟩

/-! ### Two workers whose ways cross -/

/-- A task for a scout. -/
def scoutTask : Task := ⟨⟨"ridge"⟩, "Look over the ridge", "scout", .null⟩

/-- A task for a guide. -/
def guideTask : Task := ⟨⟨"path"⟩, "Find the way down", "guide", .null⟩

/-- The scout succeeds, in a session of the default run that ends in `fresh`. -/
def scoutResult (fresh : String) : SubAgentResult :=
  { status := .success, output := "a valley", error := none
    session := (default : RunId).rootSession.derive "scout" none fresh
    duration := (default : Instant).since default }

/-- The guide fails. -/
def guideResult (fresh : String) : SubAgentResult :=
  { status := .failure, output := "", error := some "fog"
    session := (default : RunId).rootSession.derive "guide" none fresh
    duration := (default : Instant).since default }

/-- How the two tasks are dispatched and drained. One worker has the scout's task before the other
is hired, and the other has the guide's result in the collection before it. -/
def crossedMoves (scout guide : String) : List Move :=
  List.replicate 7 (.own default) ++
    [.work 0 default, .own default, .work 1 default, .delegated 1 (guideResult guide),
      .own default, .delegated 0 (scoutResult scout), .work 1 default, .work 0 default,
      .work 1 default, .work 1 default, .work 0 default, .work 1 default, .work 0 default,
      .work 1 default, .work 0 default, .work 0 default, .work 1 default, .work 0 default]

theorem isDrain_crossedMoves (scout guide : String) :
    ∀ m ∈ crossedMoves scout guide, m.IsDrain := by
  simp [crossedMoves, Move.IsDrain]

/-- A course in its first round, with two workers. -/
def crossedCourse : Course :=
  { state := default, workers := 2, limit := 1, delegation := default
    pool := .empty default 1 default, stage := .recalling }

theorem drain_exact_crossed : ∃ (j : Journey) (outcome : Nat → SubAgentResult),
    (outset (crossedCourse.dispatch [scoutTask, guideTask]) .empty []).Reaches Move.IsDrain j ∧
    j.course.pool.results.map (·.task) = [guideTask.id, scoutTask.id] ∧
    j.course.pool.results.Perm
      [.ofSubAgent scoutTask.id (outcome 0), .ofSubAgent guideTask.id (outcome 1)] ∧
    j.course.pool.report = ⟨j.course.pool.results, [1, 1], 0⟩ ∧
    (j.queue.topicOf j.topic).IsClear := by
  have hsome : ((outset (crossedCourse.dispatch [scoutTask, guideTask]) .empty []).moves?
      (crossedMoves "1" "2")).any (fun j => j.course.pool.workers.length == 2 &&
        j.course.pool.isDrained &&
        j.course.pool.results.map (·.task) == [guideTask.id, scoutTask.id]) = true := by
    decide +kernel
  obtain ⟨j, hj, hend⟩ := (Option.any_eq_true _ _).mp hsome
  have hreach := Reaches.of_moves? (isDrain_crossedMoves "1" "2") hj
  obtain ⟨hend, horder⟩ := (Bool.and_eq_true _ _).mp hend
  obtain ⟨hn, hd⟩ := (Bool.and_eq_true _ _).mp hend
  obtain ⟨-, -, hdrained, -⟩ := drain_exact Relation.ReflTransGen.refl ⟨rfl, rfl⟩ Nat.two_pos rfl
    rfl hreach
  obtain ⟨⟨outcome, -, hperm⟩, hreport, hclear⟩ := hdrained (beq_iff_eq.mp hn) hd
  exact ⟨j, outcome, hreach, beq_iff_eq.mp horder, hperm, hreport, hclear⟩

end Journey

end Roundtable

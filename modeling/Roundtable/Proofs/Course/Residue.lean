import Roundtable.Proofs.Course.Outcome

/-!
# What lost workers leave behind

A worker whose delegation breaks off is gone with a message in its hands and with a sentinel
ahead of it. Nobody takes either back, not when the round is found unbalanced and not when
the next one begins. So **for every worker lost so far one message stays in flight and one
sentinel waits that nobody needs** (`Roundtable.Pool.Leaves`), and a round finds its topic
clear exactly if no worker was lost before it (`Roundtable.Journey.left_behind`).

Sentinels left behind stand ahead of the tasks of the next round. Its workers leave with
them, the tasks stay where they are, and the judge is given less than was planned, though
the round itself lost nobody (`Roundtable.Journey.left_behind_astray`).

The account is kept along a whole run: a turn of a worker keeps it
(`Roundtable.Pool.Leaves.turn`), a loss adds the delivery that was held
(`Roundtable.Pool.Leaves.lose`), and a new pool takes it over from the old one.
-/

namespace Roundtable

/-! ### Losses -/

namespace Move

/-- The move loses a worker. -/
def isLoss : Move → Bool
  | lost _ => true
  | own _ | work .. | delegated .. | answered .. => false

theorem isLoss_eq_false_iff {m : Move} : m.isLoss = false ↔ m.IsSafe := by
  cases m <;> simp [isLoss, IsSafe]

end Move

/-! ### The account of a pool -/

/-- A worker that left has had its sentinel; one that was lost or has a task at hand has
not. -/
def PoolWorker.Settled (w : PoolWorker) : Prop :=
  match w.stage with
  | .left => w.isServed = true
  | .delegating .. | .announcing .. | .collecting .. | .lost => w.isServed = false
  | .seeking | .acknowledging _ => True

namespace Pool

/-- **What is left behind on a topic**: the deliveries `stale`, held by workers that were
lost, and as many sentinels. `owed` sentinels wait for workers that are still to be hired. -/
structure Leaves (p : Pool) (t : Topic Task) (stale : List Nat) (owed : Nat) : Prop where
  /-- What is in flight is left behind or in the hands of a worker. -/
  hands : ∀ d, t.flying d = stale.count d + p.workers.countP (PoolWorker.holds d)
  /-- Beside those left behind, a sentinel waits for each worker that has had none and is
  not lost. -/
  sentinels : t.ready.countP (·.payload.isSentinel) + p.workers.countP (·.stage.isLost) +
    p.workers.countP PoolWorker.isServed = stale.length + p.workers.length + owed
  settled : ∀ w ∈ p.workers, w.Settled

namespace Leaves

variable {p p' : Pool} {t t' : Topic Task} {stale gone : List Nat} {owed i n : Nat}
  {q q' : Queue Task} {now : Instant} {ns : List Notice} {deed : Option Deed} {topic : String}
  {w w' : PoolWorker}

/-- **What one worker may change.** At most one message moves with it, and `gone` is what it
leaves behind. -/
theorem change (h : p.Leaves t stale owed) (hw : p.workers[i]? = some w)
    (hset : p'.workers = p.workers.set i w') (hsettled : w'.Settled)
    (hhands : ∀ d, t'.flying d + (if w.holds d then 1 else 0) =
      t.flying d + (if w'.holds d then 1 else 0) + gone.count d)
    (hsentinels : t'.ready.countP (·.payload.isSentinel) + (if w'.stage.isLost then 1 else 0) +
        (if w'.isServed then 1 else 0) =
      t.ready.countP (·.payload.isSentinel) + (if w.stage.isLost then 1 else 0) +
        (if w.isServed then 1 else 0) + gone.length) :
    p'.Leaves t' (gone ++ stale) owed := by
  refine ⟨fun d => ?_, ?_, ?_⟩
  · have := h.hands d
    have := hhands d
    have := countP_set_add (P := PoolWorker.holds d) (b := w') hw
    rw [hset, List.count_append]
    omega
  · have := h.sentinels
    have := countP_set_add (P := fun x : PoolWorker => x.stage.isLost) (b := w') hw
    have := countP_set_add (P := PoolWorker.isServed) (b := w') hw
    rw [hset, List.length_set, List.length_append]
    omega
  · rw [hset]
    exact forall_mem_set hsettled h.settled

/-- A worker goes on, and no message moves. -/
theorem goOn {stage : PoolStage} (h : p.Leaves t stale owed) (hw : p.workers[i]? = some w)
    (hset : p'.workers = p.workers.set i { w with stage })
    (hsettled : PoolWorker.Settled { w with stage }) (hheld : stage.held? = w.stage.held?)
    (hlost : stage.isLost = w.stage.isLost) : p'.Leaves t stale owed := by
  change p'.Leaves t ([] ++ stale) owed
  refine h.change hw hset hsettled (fun d => ?_) ?_
  · simp [PoolWorker.holds, hheld]
  · change _ + (if stage.isLost then 1 else 0) + (if w.isServed then 1 else 0) = _
    rw [hlost]
    rfl

/-- What a worker holds is in flight. -/
theorem exists_inFlight {d : Nat} (h : p.Leaves t stale owed) (hw : p.workers[i]? = some w)
    (hd : w.stage.held? = some d) : ∃ e, e ∈ t.inFlight ∧ e.id = d := by
  have hpos : 0 < p.workers.countP (PoolWorker.holds d) :=
    List.countP_pos_iff.mpr ⟨w, List.mem_of_getElem? hw, by simp [PoolWorker.holds, hd]⟩
  have := h.hands d
  exact Topic.exists_inFlight_of_flying (by omega)

/-- **A message is taken.** -/
theorem take {e : Envelope Task} (h : p.Leaves t stale owed) (hw : p.workers[i]? = some w)
    (hs : w.stage = .seeking) (hf : w.isServed = false) (ht : t.take = some (e, t'))
    (hset : p'.workers = p.workers.set i w') (hheld : w'.stage.held? = some e.id)
    (hserved : w'.isServed = e.payload.isSentinel) (hsettled : w'.Settled) :
    p'.Leaves t' stale owed := by
  have hlost : w'.stage.isLost = false := by
    cases hw' : w'.stage <;> simp [hw', PoolStage.held?] at hheld <;> rfl
  have hnone : w.stage.held? = none ∧ w.stage.isLost = false := by rw [hs]; exact ⟨rfl, rfl⟩
  obtain ⟨r, hr, ht'⟩ := Topic.take_eq_some_iff.mp ht
  change p'.Leaves t' ([] ++ stale) owed
  refine h.change hw hset hsettled (fun d => ?_) ?_
  · simp [PoolWorker.holds, hnone.1, hheld, Topic.flying_take ht d]
  · rw [hr, ht', hlost, hnone.2, hf, hserved, List.countP_cons]
    simp

/-- **A delivery in a worker's hands is acknowledged there.** -/
theorem ack {d : Nat} (h : p.Leaves t stale owed) (hn : t.ids.Nodup)
    (hw : p.workers[i]? = some w) (hs : w.stage = .acknowledging d)
    (hset : p'.workers = p.workers.set i { w with stage := .seeking }) :
    p'.Leaves (t.ack d) stale owed := by
  obtain ⟨e, he, rfl⟩ := h.exists_inFlight hw (by rw [hs]; rfl)
  change p'.Leaves _ ([] ++ stale) owed
  refine h.change hw hset trivial (fun d => ?_) ?_
  · simpa [PoolWorker.holds, hs, PoolStage.held?] using Topic.flying_ack hn he d
  · rw [hs]
    rfl

/-- **A turn leaves nothing behind.** -/
theorem turn (h : p.Leaves (q.topicOf topic) stale owed) (hq : q.Sound)
    (hn : q.current? topic = some n) (hin : ∀ w ∈ p.workers, w.subscription.incarnation = n)
    (ht : p.Turn i q now p' q' ns deed) : p'.Leaves (q'.topicOf topic) stale owed := by
  have htopic : q.topicOf topic = q.topicAt n := Queue.topicOf_of_some hn
  have htopic' : q'.topicOf topic = q'.topicAt n :=
    Queue.topicOf_of_some ((ht.current? topic).trans hn)
  -- What a worker holds is in flight under the name, so its acknowledgement is taken there.
  have howner : ∀ {w d}, p.workers[i]? = some w → w.stage = .acknowledging d →
      ∃ e, q.owner? d = some n ∧ (q.topicAt n).held? d = some e := by
    intro w d hw hs
    obtain ⟨e, he, hid⟩ := h.exists_inFlight hw (by rw [hs]; rfl)
    rw [htopic] at he
    have hheld : (q.topicAt n).held? d ≠ none := by
      rw [ne_eq, Topic.held?_eq_none_iff, not_not]
      exact List.mem_map.mpr ⟨e, he, hid⟩
    obtain ⟨e', he'⟩ := Option.ne_none_iff_exists'.mp hheld
    have hmem : d ∈ (q.topicAt n).ids := List.mem_map.mpr ⟨e, List.mem_append_right _ he, hid⟩
    exact ⟨e', hq.owner?_of_mem hn hmem, he'⟩
  rw [htopic] at h
  rw [htopic']
  cases ht with
  | @task w e t a hw hs hf ht he =>
    obtain rfl := hin w (List.mem_of_getElem? hw)
    rw [Queue.topicAt_setTopic_self (Queue.lt_length_of_take ht)]
    exact h.take hw hs hf ht rfl rfl (by rw [he]; exact hf) hf
  | @sentinel w e t hw hs hf ht he =>
    obtain rfl := hin w (List.mem_of_getElem? hw)
    rw [Queue.topicAt_setTopic_self (Queue.lt_length_of_take ht)]
    exact h.take hw hs hf ht rfl rfl (by rw [he]; rfl) trivial
  | leave hw hs hf => exact h.goOn hw rfl hf (by rw [hs]; rfl) (by rw [hs]; rfl)
  | @announce w d r hw hs =>
    have hsettled := h.settled w (List.mem_of_getElem? hw)
    rw [PoolWorker.Settled, hs] at hsettled
    exact h.goOn hw rfl hsettled (by rw [hs]; rfl) (by rw [hs]; rfl)
  | collect hw hs => exact h.goOn hw rfl trivial (by rw [hs]; rfl) (by rw [hs]; rfl)
  | @ack w d q' hw hs ha =>
    obtain ⟨e, ho, -⟩ := howner hw hs
    obtain ⟨m, e', ho', -, rfl⟩ := Queue.ack_eq_ok_iff.mp ha
    obtain rfl : n = m := Option.some.inj (ho.symm.trans ho')
    have hself : ((q.setTopic n ((q.topicAt n).ack d)).forget d).topicAt n =
        (q.topicAt n).ack d := Queue.topicAt_setTopic_self (hq.lt_length hn) _
    rw [hself]
    exact h.ack (Queue.nodup_ids_topicAt hq.ids n) hw hs rfl
  | @refused w d e hw hs ha =>
    obtain ⟨e, ho, hheld⟩ := howner hw hs
    rw [Queue.ack_eq_ok_iff.mpr ⟨n, e, ho, hheld, rfl⟩] at ha
    cases ha

/-- A delegation that comes back leaves nothing behind. -/
theorem delegated {d : Nat} (h : p.Leaves t stale owed) (hd : p.delegating? i = some d)
    (r : SubAgentResult) : (p.delegated i r).Leaves t stale owed := by
  obtain ⟨w, a, hw, hs⟩ := delegating?_eq_some hd
  have hsettled := h.settled w (List.mem_of_getElem? hw)
  rw [PoolWorker.Settled, hs] at hsettled
  rw [delegated_eq hw hs]
  exact h.goOn hw rfl hsettled (by rw [hs]; rfl) (by rw [hs]; rfl)

/-- **A worker that is lost leaves behind what it held**, and its sentinel. -/
theorem lose {d : Nat} (h : p.Leaves t stale owed) (hd : p.delegating? i = some d) :
    (p.lose i).Leaves t ([d] ++ stale) owed := by
  obtain ⟨w, a, hw, hs⟩ := delegating?_eq_some hd
  have hsettled := h.settled w (List.mem_of_getElem? hw)
  rw [PoolWorker.Settled, hs] at hsettled
  rw [lose_eq hw]
  refine h.change hw rfl hsettled (fun d' => ?_) ?_
  · simp [PoolWorker.holds, hs, PoolStage.held?, List.count_singleton]
  · have hthere : w.stage.isLost = false := by rw [hs]; rfl
    change _ + 1 + (if w.isServed then 1 else 0) = _ + _ + _ + 1
    rw [hthere, if_neg Bool.false_ne_true]
    omega

/-- A worker is hired. -/
theorem hire {s : Subscription} (h : p.Leaves t stale (owed + 1)) (hs : s.finished = false) :
    (p.hire s).Leaves t stale owed := by
  refine ⟨fun d => ?_, ?_, fun w hw => ?_⟩
  · simpa [Pool.hire, List.countP_append, PoolWorker.holds, PoolStage.held?] using h.hands d
  · have := h.sentinels
    have hnew : PoolStage.seeking.isLost = false ∧
        PoolWorker.isServed ⟨s, 0, .seeking⟩ = false := ⟨rfl, hs⟩
    simp only [Pool.hire, List.countP_append, List.countP_singleton, hnew, List.length_append,
      List.length_singleton, Bool.false_eq_true, if_false]
    omega
  · rcases List.mem_append.mp hw with hw | hw
    · exact h.settled w hw
    · obtain rfl := List.mem_singleton.mp hw
      trivial

/-- **Once all workers are gone** only what was left behind is in flight, and only sentinels
that nobody needs wait. -/
theorem of_isDrained (h : p.Leaves t stale owed) (hd : p.isDrained = true) :
    (t.inFlight.map (·.id)).Perm stale ∧
      t.ready.countP (·.payload.isSentinel) = stale.length + owed := by
  have hgone : ∀ w ∈ p.workers, w.stage = .left ∨ w.stage = .lost := by
    intro w hw
    have := List.all_eq_true.mp hd w hw
    cases hs : w.stage <;> simp [hs, PoolStage.isGone] at this ⊢
  have hholds : ∀ d, p.workers.countP (PoolWorker.holds d) = 0 := by
    intro d
    refine List.countP_eq_zero.mpr fun w hw => ?_
    rcases hgone w hw with hs | hs <;> simp [PoolWorker.holds, hs, PoolStage.held?]
  -- A worker that is gone is lost or has had its sentinel, and not both.
  have hserved : p.workers.countP PoolWorker.isServed =
      p.workers.countP fun w => ¬w.stage.isLost = true := by
    refine List.countP_congr fun w hw => ?_
    have hsettled := h.settled w hw
    rcases hgone w hw with hs | hs <;> rw [PoolWorker.Settled, hs] at hsettled <;>
      simp [hsettled, hs, PoolStage.isLost]
  constructor
  · refine List.perm_iff_count.mpr fun d => ?_
    have := h.hands d
    rw [hholds d, Nat.add_zero] at this
    rw [← this, List.count, List.countP_map]
    rfl
  · have := h.sentinels
    have := p.workers.length_eq_countP_add_countP (fun w => w.stage.isLost)
    omega

/-- A pool that nobody works in yet takes over what is left behind. -/
theorem renewed (h : p.Leaves t stale owed) (hd : p.isDrained = true) (hp : p'.workers = []) :
    p'.Leaves t stale owed := by
  obtain ⟨hperm, hsent⟩ := h.of_isDrained hd
  refine ⟨fun d => ?_, ?_, by simp [hp]⟩
  · rw [hp, List.countP_nil, Nat.add_zero, ← hperm.count_eq d, List.count, List.countP_map]
    rfl
  · rw [hp, hsent]
    simp

end Leaves

end Pool

/-! ### The account of a run -/

namespace Journey

variable {j j' : Journey} {stale : List Nat}

/-- **The deliveries `stale` are left behind** on the topic of a run. -/
def Residue (j : Journey) (stale : List Nat) : Prop :=
  match j.course.stage with
  | .dismissing left => ∃ sent, sent + left = j.course.workers ∧
      j.course.pool.Leaves (j.queue.topicOf j.topic) stale sent
  | .hiring left => j.course.pool.Leaves (j.queue.topicOf j.topic) stale left
  | .over => True
  | _ => j.course.pool.Leaves (j.queue.topicOf j.topic) stale 0

/-- Where a course asks, no sentinel is owed. -/
theorem residue_iff {r : CourseRequest} (hr : j.course.request? = some r) :
    j.Residue stale ↔ j.course.pool.Leaves (j.queue.topicOf j.topic) stale 0 := by
  unfold Residue
  unfold Course.request? at hr
  cases hs : j.course.stage <;> simp [hs] at hr ⊢

/-- A worker that is there has an account to keep. -/
theorem Residue.working (h : j.Residue stale) (hm : j.Manned) {k : Nat} {w : PoolWorker}
    (hw : j.course.pool.workers[k]? = some w) (hg : w.stage.isGone = false) :
    ∃ owed, j.course.pool.Leaves (j.queue.topicOf j.topic) stale owed ∧
      ∀ (j' : Journey) (stale' : List Nat), j'.course.stage = j.course.stage →
        j'.course.pool.Leaves (j'.queue.topicOf j'.topic) stale' owed → j'.Residue stale' := by
  unfold Residue at h
  rcases hm.working hw hg with ⟨left, hs⟩ | hs
  all_goals
    rw [hs] at h
    refine ⟨_, h, fun j' stale' hs' hleaves => ?_⟩
    rw [Residue, hs', hs]
    exact hleaves

/-- **A turn** leaves nothing behind. -/
theorem Residue.work {k : Nat} {now : Instant} (h : j.Residue stale) (ht : j.OnTrack)
    (hm : j.move? (.work k now) = some j') : j'.Residue stale := by
  obtain ⟨p, q', ns, hstep, rfl⟩ := move?_work.mp hm
  have hturn := Pool.turn_of_step? hstep
  obtain ⟨w, w', hw, hg, -⟩ := hturn.worker
  obtain ⟨owed, hleaves, hstage⟩ := h.working ht.manned hw hg
  obtain ⟨left, hstaff, -⟩ := ht.manned.staffed hw hg
  have hn := hstaff.incarnation w (List.mem_of_getElem? hw)
  exact hstage _ _ rfl (hleaves.turn ht.sound hn
    (fun x hx => Option.some.inj ((hstaff.incarnation x hx).symm.trans hn)) hturn)

/-- **A delegation that comes back** leaves nothing behind. -/
theorem Residue.delegated {k : Nat} {r : SubAgentResult} (h : j.Residue stale) (ht : j.OnTrack)
    (hm : j.move? (.delegated k r) = some j') : j'.Residue stale := by
  obtain ⟨d, hd, rfl⟩ := move?_delegated.mp hm
  obtain ⟨w, a, hw, hs⟩ := Pool.delegating?_eq_some hd
  obtain ⟨owed, hleaves, hstage⟩ := h.working ht.manned hw (by rw [hs]; rfl)
  exact hstage _ _ rfl (hleaves.delegated hd r)

/-- **A worker that is lost** leaves one delivery behind. -/
theorem Residue.lost {k : Nat} (h : j.Residue stale) (ht : j.OnTrack)
    (hm : j.move? (.lost k) = some j') : ∃ d, j'.Residue ([d] ++ stale) := by
  obtain ⟨d, hd, rfl⟩ := move?_lost.mp hm
  obtain ⟨w, a, hw, hs⟩ := Pool.delegating?_eq_some hd
  obtain ⟨owed, hleaves, hstage⟩ := h.working ht.manned hw (by rw [hs]; rfl)
  exact ⟨d, hstage _ _ rfl (hleaves.lose hd)⟩

/-- A payload more is published: what was left behind is still there. -/
theorem leaves_enqueue {p : Pool} {q : Queue Task} {topic : String} {owed : Nat}
    (h : p.Leaves (q.topicOf topic) stale owed) (hq : q.Sound) (payload : Payload Task) :
    p.Leaves ((q.enqueue topic payload).2.topicOf topic) stale
      (owed + if payload.isSentinel then 1 else 0) := by
  refine ⟨fun d => ?_, ?_, h.settled⟩
  · rw [Queue.topicOf_enqueue hq]
    exact h.hands d
  · rw [countP_isSentinel_enqueue hq]
    have := h.sentinels
    omega

/-- **A stride** leaves nothing behind. -/
theorem Residue.own {m : Moment} (h : j.Residue stale) (ht : j.OnTrack)
    (hm : j.move? (.own m) = some j') : j'.Residue stale := by
  unfold Residue at h
  obtain ⟨c', q', ns, hstride, rfl⟩ := move?_own.mp hm
  -- The sentinels of a round are owed from when they are published until their workers come.
  cases hstride with
  | @publish t rest hs =>
    rw [hs] at h
    exact leaves_enqueue h ht.sound (.item t)
  | published hs =>
    rw [hs] at h
    exact ⟨0, Nat.zero_add _, h⟩
  | dismiss hs =>
    rw [hs] at h
    obtain ⟨sent, hsent, hleaves⟩ := h
    exact ⟨sent + 1, (Nat.succ_add_eq_add_succ _ _).trans hsent,
      leaves_enqueue hleaves ht.sound .sentinel⟩
  | dismissed hs =>
    rw [hs] at h
    obtain ⟨sent, rfl, hleaves⟩ := h
    exact hleaves
  | hire hs =>
    rw [hs] at h
    have hhired := h.hire (s := (j.queue.subscribe j.topic).1) rfl
    rw [← Queue.topicOf_enter_self] at hhired
    exact hhired
  | hired hs | drained hs =>
    rw [hs] at h
    exact h
  | leave hs => trivial

/-- **A reply** leaves nothing behind; a new round takes over what was left. -/
theorem Residue.answered {a : CourseAnswer} {m : Moment} (h : j.Residue stale) (ht : j.OnTrack)
    (hm : j.move? (.answered a m) = some j') : j'.Residue stale := by
  obtain ⟨r, hr, -, -⟩ := move?_answered.mp hm
  have hleaves := (residue_iff hr).mp h
  obtain ⟨r, c, ns, hreply, rfl⟩ := reply_of_move? hm
  cases hreply with
  | recorded | continued =>
    have hnew : (j.course.beginRound m).1.pool.workers = [] :=
      congrArg Pool.workers Course.pool_beginRound
    have hrun : (j.course.beginRound m).1.run = j.course.run := by
      rw [Course.run, Course.state_beginRound]
      rfl
    have hnext := hleaves.renewed (ht.manned.isDrained hr) hnew
    rw [topic, ← hrun] at hnext
    rcases j.course.stage_beginRound m with ⟨-, hst⟩ | ⟨-, hst⟩
    · exact (residue_iff (Course.request?_eq_plan.mpr hst)).mpr hnext
    · exact (residue_iff (Course.request?_eq_load.mpr hst)).mpr hnext
  | recalled | planned | proceeds | stops | completed | refused | failed => exact hleaves

/-- **Every move** leaves one delivery behind if it is a loss, and nothing otherwise. -/
theorem Residue.move {m : Move} (h : j.Residue stale) (ht : j.OnTrack)
    (hm : j.move? m = some j') :
    ∃ gone, gone.length = [m].countP Move.isLoss ∧ j'.Residue (gone ++ stale) := by
  cases m with
  | own m => exact ⟨[], rfl, h.own ht hm⟩
  | work i now => exact ⟨[], rfl, h.work ht hm⟩
  | delegated i r => exact ⟨[], rfl, h.delegated ht hm⟩
  | lost i =>
    obtain ⟨d, hd⟩ := h.lost ht hm
    exact ⟨[d], rfl, hd⟩
  | answered a m => exact ⟨[], rfl, h.answered ht hm⟩

/-- **As many deliveries are left behind as workers were lost.** -/
theorem Residue.moves {ms : List Move} (h : j.Residue stale) (ht : j.OnTrack)
    (hm : j.moves? ms = some j') :
    ∃ gone, gone.length = ms.countP Move.isLoss ∧ j'.Residue (gone ++ stale) := by
  induction ms generalizing j stale with
  | nil =>
    obtain rfl := Option.some.inj hm
    exact ⟨[], rfl, h⟩
  | cons m ms ih =>
    obtain ⟨a, ha, hrest⟩ := Option.bind_eq_some_iff.mp hm
    obtain ⟨gone, hgone, hnext⟩ := h.move ht ha
    obtain ⟨more, hmore, hlast⟩ := ih hnext (ht.move ha).1 hrest
    refine ⟨more ++ gone, ?_, by rw [List.append_assoc]; exact hlast⟩
    rw [List.length_append, hgone, hmore, ← List.countP_append, List.countP_append, Nat.add_comm,
      ← List.countP_append, List.singleton_append]

/-- A run at its outset on a topic that is clear has nothing left behind. -/
theorem residue_of_embark {run : RunId} {mission : String} {workers limit : Nat}
    {delegation : Delegation} {now : Instant} {q : Queue Task} {j₀ : Journey}
    (hclear : (q.topicOf run.topic).IsClear)
    (h : embark run mission workers limit delegation now q = .ok j₀) : j₀.Residue [] := by
  obtain ⟨-, -, ns, rfl⟩ := embark_eq_ok h
  refine ⟨fun d => ?_, ?_, fun w hw => (List.not_mem_nil hw).elim⟩
  · exact congrArg (List.countP _) hclear.2
  · exact congrArg (List.countP _) hclear.1

/-- Moves follow moves. -/
theorem moves?_append (j : Journey) (ms ms' : List Move) :
    j.moves? (ms ++ ms') = (j.moves? ms).bind (·.moves? ms') := by
  induction ms generalizing j with
  | nil => rfl
  | cons m ms ih =>
    rw [List.cons_append, moves?, moves?, Option.bind_assoc]
    exact congrArg _ (funext ih)

/-! ### What a round finds -/

variable {run : RunId} {mission : String} {workers limit : Nat} {delegation : Delegation}
  {now : Instant} {q : Queue Task}

/-- No worker was lost where no loss is counted. -/
theorem countP_isLoss_eq_zero {ms : List Move} :
    ms.countP Move.isLoss = 0 ↔ ∀ m ∈ ms, m.IsSafe := by
  simp only [List.countP_eq_zero, Bool.not_eq_true, Move.isLoss_eq_false_iff]

/-- The tasks of a round are about to be dispatched after its plan has come. -/
theorem exists_planning {ms : List Move} {tasks : List Task} {m : Moment}
    (h : j.moves? (ms ++ [.answered (.planned (.ok tasks)) m]) = some j') :
    ∃ jp r, j.moves? ms = some jp ∧ jp.course.stage = .planning r ∧
      j' = jp.heard (jp.course.dispatch tasks) [] ⟨.plan r, .planned (.ok tasks)⟩ := by
  rw [moves?_append] at h
  obtain ⟨jp, hjp, hlast⟩ := Option.bind_eq_some_iff.mp h
  obtain ⟨j₁, hm, hend⟩ := Option.bind_eq_some_iff.mp hlast
  obtain rfl : j₁ = j' := Option.some.inj hend
  obtain ⟨r, c, ns, hreply, rfl⟩ := reply_of_move? hm
  cases hreply with
  | planned hs => exact ⟨jp, _, hjp, hs, rfl⟩
  | refused hr => cases hr

/-- **A new round that finds its topic clear** gives its judge one result for each task. -/
theorem New.results_perm {tasks : List Task} {call : Call} {r : JudgeRequest} (h : j.New)
    (hclear : (j.queue.topicOf j.topic).IsClear) (hs : j.queue.Sound)
    (hw : 0 < j.course.workers)
    (hj : (j.heard (j.course.dispatch tasks) [] call).Reaches Move.IsDrain j')
    (hr : j'.course.stage = .judging r) : ∃ outcome : Nat → SubAgentResult,
      r.results.Perm (tasks.mapIdx fun k t => .ofSubAgent t.id (outcome k)) := by
  have hround : j'.InRound j.course tasks j.queue :=
    hj.keeps (fun hkind hm h => h.move hw hkind hm) (h.inRound hclear hs tasks _)
  have hstage := hround.stage
  rw [AtStage, hr] at hstage
  obtain ⟨hwork, -, hdrained, hresults⟩ := hstage
  obtain ⟨outcome, -, houtcome⟩ := hwork.exists_outcome hw hround.round hdrained
  exact ⟨outcome, hresults ▸ houtcome⟩

/-- **A round finds its topic clear exactly if no worker was lost before it.** On a topic that
is clear at first, when the tasks of a round are about to be dispatched, as many messages
are in flight there as workers were lost in the rounds before, and as many sentinels wait.
If none was lost and none is lost in the round itself, the judge is given one result for
each task of the round. -/
theorem left_behind (hq : q.Reachable) (hclear : (q.topicOf run.topic).IsClear)
    (hl : limit < 2 ^ 32) (hw : 0 < workers) (hpos : 0 < limit) :
    ∃ j₀, embark run mission workers limit delegation now q = .ok j₀ ∧
      ∀ ms tasks m j, j₀.moves? (ms ++ [.answered (.planned (.ok tasks)) m]) = some j →
        (j.queue.topicOf run.topic).inFlight.length = ms.countP Move.isLoss ∧
        (j.queue.topicOf run.topic).ready.countP (·.payload.isSentinel) =
          ms.countP Move.isLoss ∧
        ((j.queue.topicOf run.topic).IsClear ↔ ∀ m ∈ ms, m.IsSafe) ∧
        ((∀ m ∈ ms, m.IsSafe) → ∀ j' r, j.Reaches Move.IsDrain j' →
          j'.course.stage = .judging r → ∃ outcome : Nat → SubAgentResult,
            r.results.Perm (tasks.mapIdx fun k t => .ofSubAgent t.id (outcome k))) := by
  obtain ⟨ns, hj₀⟩ := embark_of_pos run mission delegation now q hw hpos
  refine ⟨_, hj₀, fun ms tasks m j hj => ?_⟩
  have hon := OnTrack.embark hq.sound hl hj₀
  obtain ⟨htidy, -, hrun₀, -⟩ := tidy_of_embark hclear hj₀
  obtain ⟨jp, p, hjp, hs, rfl⟩ := exists_planning hj
  have hany : Reaches Move.IsAny _ jp := Reaches.of_moves? (fun _ _ => trivial) hjp
  have honp := hon.reaches hany
  have hrun : jp.topic = run.topic := congrArg RunId.topic (hany.sameRun.runId.trans hrun₀)
  -- The answer of the planner finds a pool without workers and does nothing to the queue.
  obtain ⟨stale, hlen, hresidue⟩ := (residue_of_embark hclear hj₀).moves hon hjp
  have hreq := Course.request?_eq_plan.mpr hs
  obtain ⟨hperm, hsent⟩ :=
    ((residue_iff hreq).mp hresidue).of_isDrained (honp.manned.isDrained hreq)
  rw [List.append_nil, hrun] at hperm hsent
  have hflight : (jp.queue.topicOf run.topic).inFlight.length = ms.countP Move.isLoss := by
    rw [← hlen, ← hperm.length_eq, List.length_map]
  have hblank : (∀ m ∈ ms, m.IsSafe) → jp.Blank ∧ jp.New := by
    intro hsafe
    have hstage := (htidy.reaches hon (Reaches.of_moves? hsafe hjp)).stage
    rwa [TidyStage, hs] at hstage
  refine ⟨hflight, hlen ▸ hsent, ⟨fun h => ?_, fun h => hrun ▸ (hblank h).1.clear⟩,
    fun hsafe j' r hreach hr => ?_⟩
  · exact countP_isLoss_eq_zero.mp (hflight.symm.trans (congrArg List.length h.2))
  · obtain ⟨hblank, hnew⟩ := hblank hsafe
    have hworkers : 0 < jp.course.workers := Nat.lt_of_lt_of_eq hw hany.sameRun.workers.symm
    exact hnew.results_perm hblank.clear honp.sound hworkers hreach hr

/-- How a run goes whose only worker is lost with the only task of the first round, until the
second round has its plan. -/
def astray : List Move :=
  [.answered (.persisted (.ok ())) default, .answered (.planned (.ok [default])) default] ++
    List.replicate 6 (.own default) ++ [.work 0 default, .lost 0, .own default,
      .answered (.judged (.ok ⟨"", true⟩)) default, .answered (.persisted (.ok ())) default,
      .answered (.loaded (.ok (some default))) default]

theorem left_behind_solo : ∃ j₀ j, embark default "" 1 2 default default .empty = .ok j₀ ∧
    j₀.moves? (astray ++ [.answered (.planned (.ok [default])) default]) = some j ∧
    (j.queue.topicOf (default : RunId).topic).inFlight.length = 1 ∧
    (j.queue.topicOf (default : RunId).topic).ready.countP (·.payload.isSentinel) = 1 ∧
    ¬(j.queue.topicOf (default : RunId).topic).IsClear := by
  obtain ⟨j₀, hj₀, hround⟩ : ∃ j₀, embark default "" 1 2 default default .empty = .ok j₀ ∧ _ :=
    left_behind Relation.ReflTransGen.refl ⟨rfl, rfl⟩ (by decide) Nat.one_pos Nat.two_pos
  have hsome : ((embark default "" 1 2 default default .empty).toOption.bind
      (·.moves? (astray ++ [.answered (.planned (.ok [default])) default]))).isSome = true := by
    decide +kernel
  rw [hj₀, Except.toOption, Option.bind_some] at hsome
  obtain ⟨j, hj⟩ := Option.isSome_iff_exists.mp hsome
  obtain ⟨hflight, hsent, hclear, -⟩ := hround astray [default] default j hj
  have hone : astray.countP Move.isLoss = 1 := rfl
  rw [hone] at hflight hsent
  refine ⟨j₀, j, hj₀, hj, hflight, hsent, fun h => ?_⟩
  have := congrArg List.length h.2
  rw [hflight] at this
  cases this

/-- **One lost worker spoils the round after it**: the second round of this run loses nobody,
and its judge is given nothing though a task was planned. -/
theorem left_behind_astray : ∃ j₀ j j' r,
    embark default "" 1 2 default default .empty = .ok j₀ ∧
    j₀.moves? (astray ++ [.answered (.planned (.ok [default])) default]) = some j ∧
    ¬(j.queue.topicOf j.topic).IsClear ∧ j.Reaches Move.IsDrain j' ∧
    j'.course.stage = .judging r ∧ r.results = [] := by
  have hsome : ((embark default "" 1 2 default default .empty).toOption.bind
      (·.moves? (astray ++ [.answered (.planned (.ok [default])) default]))).any (fun j =>
        !(j.queue.topicOf j.topic).inFlight.isEmpty &&
        (j.moves? (List.replicate 6 (.own default) ++ List.replicate 3 (.work 0 default) ++
          [.own default])).any fun j' =>
          match j'.course.stage with
          | .judging r => r.results.isEmpty
          | _ => false) = true := by
    decide +kernel
  obtain ⟨ns, hj₀⟩ := embark_of_pos default "" default default .empty Nat.one_pos Nat.two_pos
  rw [hj₀, Except.toOption, Option.bind_some] at hsome
  obtain ⟨j, hj, hend⟩ := (Option.any_eq_true _ _).mp hsome
  obtain ⟨hflight, hend⟩ := (Bool.and_eq_true _ _).mp hend
  obtain ⟨j', hj', hend⟩ := (Option.any_eq_true _ _).mp hend
  have hreach : j.Reaches Move.IsDrain j' :=
    Reaches.of_moves? (by simp [Move.IsDrain]) hj'
  split at hend
  · next r hr =>
    refine ⟨_, j, j', r, hj₀, hj, fun h => ?_, hreach, hr, List.isEmpty_iff.mp hend⟩
    simp [h.2] at hflight
  · cases hend

end Journey

end Roundtable

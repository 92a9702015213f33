import Roundtable.Proofs.Course.Residue
import Roundtable.Proofs.Pool.Likeness

/-!
# Runs that differ in numbers

A run whose deliveries have other numbers than those of another run is told apart from it by
nothing that is asked, told or decided (`Roundtable.Journey.Like`). **Every move of the one
can be made by the other and leaves them alike** (`Roundtable.Journey.Like.move`): the
numbers are chosen by the queues, and all that is made of a number is to give it back.

So what a run does on a queue that it shares is what it does on a queue of its own, once the
others are known to leave its topic alone.
-/

namespace Roundtable

variable {f : Nat → Nat} {n : Nat}

namespace Course

variable {c : Course} {q q₁ : Queue Task}

/-- The course with the deliveries of its workers under other numbers. -/
def rename (f : Nat → Nat) (n : Nat) (c : Course) : Course :=
  { c with pool := c.pool.rename f n }

theorem rename_of_nil (h : c.pool.workers = []) : c.rename f n = c := by
  rw [rename, Pool.rename_of_nil h]

theorem request?_rename : (c.rename f n).request? = c.request? := rfl

theorem beginRound_rename (m : Moment) : (c.rename f n).beginRound m =
    ((c.beginRound m).1.rename f n, (c.beginRound m).2) := by
  have hpool : (c.beginRound m).1.pool.workers = [] := by
    rw [pool_beginRound]
    rfl
  have hsame : (c.rename f n).beginRound m = c.beginRound m := rfl
  rw [hsame, rename, Pool.rename_of_nil hpool]

/-- **An answer is taken alike.** -/
theorem resume_rename (a : CourseAnswer) (m : Moment) : (c.rename f n).resume a m =
    ((c.resume a m).1.rename f n, (c.resume a m).2) := by
  have hstage : (c.rename f n).stage = c.stage := rfl
  unfold resume
  rw [hstage]
  dsimp only
  split <;> first | rfl | exact beginRound_rename m

theorem checkDrained_rename (n : Nat) (now : Instant)
    (h : q.topicOf c.run.topic = (q₁.topicOf c.run.topic).rename f) :
    (c.rename f n).checkDrained q now =
      ((c.checkDrained q₁ now).1.rename f n, (c.checkDrained q₁ now).2) := by
  have hstats : (q.topicOf (c.rename f n).run.topic).stats = (q₁.topicOf c.run.topic).stats :=
    (congrArg Topic.stats h).trans Topic.stats_rename
  have hreport : (c.rename f n).pool.report = c.pool.report := Pool.report_rename
  have hworkers : (c.rename f n).workers = c.workers := rfl
  unfold checkDrained
  simp only [Queue.stats?_getD, hstats, hreport, hworkers]
  by_cases hb : c.pool.report.isBalanced c.workers (q₁.topicOf c.run.topic).stats = true
  · simp only [if_pos hb]
  · simp only [if_neg hb]
    rfl

end Course

namespace Journey

variable {j j' j₁ : Journey} {stale : List Nat}

/-- **The journeys are alike** but for the numbers of the deliveries, `f` of the one being
those of the other, and for the incarnation `n` of the topic. -/
structure Like (f : Nat → Nat) (n : Nat) (j j₁ : Journey) : Prop where
  course : j.course = j₁.course.rename f n
  messages : j.queue.topicOf j₁.topic = (j₁.queue.topicOf j₁.topic).rename f
  notices : j.notices = j₁.notices
  calls : j.calls = j₁.calls

namespace Like

theorem topic (h : Like f n j j₁) : j.topic = j₁.topic := by
  rw [Journey.topic, h.course]
  rfl

theorem stage (h : Like f n j j₁) : j.course.stage = j₁.course.stage := by
  rw [h.course]
  rfl

theorem pool (h : Like f n j j₁) : j.course.pool = j₁.course.pool.rename f n := by
  rw [h.course]
  rfl

theorem request? (h : Like f n j j₁) : j.course.request? = j₁.course.request? := by
  rw [h.course, Course.request?_rename]

/-- **The delegation of a worker comes back alike.** -/
theorem delegated {i : Nat} {r : SubAgentResult} (h : Like f n j j₁)
    (hm : j.move? (.delegated i r) = some j') :
    ∃ j₁', j₁.move? (.delegated i r) = some j₁' ∧ Like f n j' j₁' := by
  obtain ⟨d, hd, rfl⟩ := move?_delegated.mp hm
  rw [h.pool, Pool.delegating?_rename, Option.map_eq_some_iff] at hd
  obtain ⟨d₁, hd₁, -⟩ := hd
  refine ⟨_, move?_delegated.mpr ⟨d₁, hd₁, rfl⟩, ?_, h.messages, ?_, h.calls⟩
  · simp only [advance, did, h.pool, Pool.delegated_rename]
    rw [h.course]
    rfl
  · exact congrArg (· ++ []) h.notices

/-- **The delegation of a worker breaks off alike.** -/
theorem lost {i : Nat} (h : Like f n j j₁) (hm : j.move? (.lost i) = some j') :
    ∃ j₁', j₁.move? (.lost i) = some j₁' ∧ Like f n j' j₁' := by
  obtain ⟨d, hd, rfl⟩ := move?_lost.mp hm
  rw [h.pool, Pool.delegating?_rename, Option.map_eq_some_iff] at hd
  obtain ⟨d₁, hd₁, -⟩ := hd
  refine ⟨_, move?_lost.mpr ⟨d₁, hd₁, rfl⟩, ?_, h.messages, ?_, h.calls⟩
  · simp only [advance, h.pool, Pool.lose_rename]
    rw [h.course]
    rfl
  · exact congrArg (· ++ []) h.notices

/-- **An answer is taken alike.** -/
theorem answered {a : CourseAnswer} {m : Moment} (h : Like f n j j₁)
    (hm : j.move? (.answered a m) = some j') :
    ∃ j₁', j₁.move? (.answered a m) = some j₁' ∧ Like f n j' j₁' := by
  obtain ⟨r, hr, ha, rfl⟩ := move?_answered.mp hm
  rw [h.request?] at hr
  have hresume := j₁.course.resume_rename (f := f) (n := n) a m
  rw [← h.course] at hresume
  have hm₁ := (move?_answered (m := m)).mpr ⟨r, hr, ha, rfl⟩
  refine ⟨_, hm₁, congrArg Prod.fst hresume, ?_, ?_, ?_⟩
  · rw [topic_of_move? hm₁]
    exact h.messages
  · simp only [heard, advance, h.notices, hresume]
  · simp only [heard, advance, h.calls]

/-- Where a worker is at work, its pool works on one queue as on the other. -/
theorem alike {i : Nat} {w : PoolWorker} (h : Like f n j j₁) (ht : j.OnTrack) (ht₁ : j₁.OnTrack)
    (hr : j₁.Residue stale) (hw : j.course.pool.workers[i]? = some w)
    (hg : w.stage.isGone = false) :
    j₁.course.pool.Alike f n j.queue j₁.queue j₁.topic := by
  obtain ⟨left, hstaff, -⟩ := ht.manned.staffed hw hg
  have hcurrent := hstaff.incarnation w (List.mem_of_getElem? hw)
  rw [h.pool, Pool.getElem?_rename, Option.map_eq_some_iff] at hw
  obtain ⟨w₁, hw₁, rfl⟩ := hw
  have hg₁ : w₁.stage.isGone = false := (PoolStage.isGone_rename w₁.stage).symm.trans hg
  obtain ⟨left₁, hstaff₁, -⟩ := ht₁.manned.staffed hw₁ hg₁
  obtain ⟨owed, hleaves, -⟩ := hr.working ht₁.manned hw₁ hg₁
  rw [h.topic] at hcurrent
  refine ⟨ht.sound, ht₁.sound, hcurrent, hstaff₁.incarnation, h.messages, fun x hx d hd => ?_⟩
  obtain ⟨k, hk⟩ := List.mem_iff_getElem?.mp hx
  obtain ⟨e, he, rfl⟩ := hleaves.exists_inFlight hk hd
  exact List.mem_map_of_mem he

/-- **A worker's turn is made alike.** -/
theorem work {i : Nat} {now : Instant} (h : Like f n j j₁) (ht : j.OnTrack) (ht₁ : j₁.OnTrack)
    (hr : j₁.Residue stale) (hm : j.move? (.work i now) = some j') :
    ∃ j₁', j₁.move? (.work i now) = some j₁' ∧ Like f n j' j₁' := by
  obtain ⟨p, q', ns, hstep, rfl⟩ := move?_work.mp hm
  have hturn := Pool.turn_of_step? hstep
  obtain ⟨w, -, hw, hg, -⟩ := hturn.worker
  have halike := h.alike ht ht₁ hr hw hg
  rw [h.pool] at hturn
  obtain ⟨p₁, q₁', deed₁, hturn₁, rfl, hafter⟩ := halike.turn hturn
  refine ⟨_, move?_work.mpr ⟨p₁, q₁', ns, hturn₁.step?_eq, rfl⟩, ?_, hafter, ?_, h.calls⟩
  · simp only [advance]
    rw [h.course]
    rfl
  · exact congrArg (· ++ ns) h.notices

/-! ### Strides -/

/-- A message that is published gets a number on each queue, and the numbers go together
from then on. -/
theorem enqueue (h : Like f n j j₁) (hs : j.queue.Sound) (hs₁ : j₁.queue.Sound)
    (p : Payload Task) :
    ∃ f' : Nat → Nat, (j.queue.enqueue j₁.topic p).2.topicOf j₁.topic =
      ((j₁.queue.enqueue j₁.topic p).2.topicOf j₁.topic).rename f' := by
  refine ⟨Function.update f j₁.queue.nextId j.queue.nextId, ?_⟩
  rw [Queue.topicOf_enqueue hs, Queue.topicOf_enqueue hs₁, h.messages, Topic.rename_push]
  -- The number is new, so those before keep theirs.
  have hkeep : ((j₁.queue.topicOf j₁.topic).rename f) = (j₁.queue.topicOf j₁.topic).rename
      (Function.update f j₁.queue.nextId j.queue.nextId) := by
    refine Topic.rename_congr fun d hd => (Function.update_of_ne ?_ _ _).symm
    exact Nat.ne_of_lt (hs₁.issued d (Queue.mem_ids_of_topicOf hd))
  rw [hkeep]
  simp [Envelope.rename]

/-- **A worker is hired alike**: the name is in use on both queues, since a sentinel waits
there for each worker. -/
theorem hire {left : Nat} (h : Like f n j j₁)
    (hs : j.course.pool.Staffed j.queue j₁.topic (left + 1))
    (hs₁ : j₁.course.pool.Staffed j₁.queue j₁.topic (left + 1)) :
    ∃ i i₁, j.queue.subscribe j₁.topic = (⟨i, false⟩, j.queue) ∧
      j₁.queue.subscribe j₁.topic = (⟨i₁, false⟩, j₁.queue) ∧
      j.course.pool.hire ⟨i, false⟩ = (j₁.course.pool.hire ⟨i₁, false⟩).rename f i := by
  obtain ⟨i, hi, hsub⟩ := subscribe_of_staffed hs
  obtain ⟨i₁, -, hsub₁⟩ := subscribe_of_staffed hs₁
  refine ⟨i, i₁, hsub, hsub₁, ?_⟩
  -- Those who work already are at the incarnation that the name stands for.
  have hkeep : j₁.course.pool.workers.map (PoolWorker.rename f n) =
      j₁.course.pool.workers.map (PoolWorker.rename f i) := by
    refine List.map_congr_left fun w hw => ?_
    have hmem : w.rename f n ∈ j.course.pool.workers := by
      rw [h.pool]
      exact List.mem_map_of_mem hw
    obtain rfl : i = n := Option.some.inj (hi.symm.trans (hs.incarnation _ hmem))
    rfl
  rw [h.pool]
  simp [Pool.hire, Pool.rename, PoolWorker.rename, PoolStage.rename, hkeep]

/-- **A stride is made alike.** -/
theorem own {m : Moment} (h : Like f n j j₁) (ht : j.OnTrack) (ht₁ : j₁.OnTrack)
    (hm : j.move? (.own m) = some j') :
    ∃ f' n' j₁', j₁.move? (.own m) = some j₁' ∧ Like f' n' j' j₁' := by
  obtain ⟨c, q, told, calls, deeds⟩ := j
  obtain ⟨c', q', ns, hstride, rfl⟩ := move?_own.mp hm
  have hmade {c₁ : Course} {q₁ : Queue Task} {g : Nat → Nat} {k : Nat}
      (hstride₁ : j₁.course.Stride j₁.queue m c₁ q₁ ns) (hc : c' = c₁.rename g k)
      (hq : q'.topicOf j₁.topic = (q₁.topicOf j₁.topic).rename g) :
      ∃ f' n' j₁', j₁.move? (.own m) = some j₁' ∧
        Like f' n' (advance ⟨c, q, told, calls, deeds⟩ c' q' ns) j₁' := by
    have hm₁ := move?_own.mpr ⟨c₁, q₁, ns, hstride₁, rfl⟩
    refine ⟨g, k, _, hm₁, hc, ?_, congrArg (· ++ ns) h.notices, h.calls⟩
    rw [topic_of_move? hm₁]
    exact hq
  have hmanned := ht.manned
  have hmanned₁ := ht₁.manned
  unfold Manned at hmanned hmanned₁
  obtain rfl : c = j₁.course.rename f n := h.course
  -- Nobody works while messages are published, so no worker holds one under its old number.
  have hnobody (hw : j₁.course.pool.workers = []) (f' : Nat → Nat) :
      j₁.course.rename f n = j₁.course.rename f' n := by
    rw [Course.rename_of_nil hw, Course.rename_of_nil hw]
  cases hstride with
  | @publish t rest hs =>
    rw [show j₁.course.stage = _ from hs] at hmanned₁
    obtain ⟨f', hf'⟩ := h.enqueue ht.sound ht₁.sound (.item t)
    exact hmade (.publish hs)
      (congrArg (fun c : Course => c.goOn (.dispatching rest)) (hnobody hmanned₁ f')) hf'
  | published hs => exact hmade (.published hs) rfl h.messages
  | @dismiss left hs =>
    rw [show j₁.course.stage = _ from hs] at hmanned₁
    obtain ⟨f', hf'⟩ := h.enqueue ht.sound ht₁.sound .sentinel
    exact hmade (.dismiss hs)
      (congrArg (fun c : Course => c.goOn (.dismissing left)) (hnobody hmanned₁.1 f')) hf'
  | dismissed hs => exact hmade (.dismissed hs) rfl h.messages
  | @hire left hs =>
    rw [hs] at hmanned
    rw [show j₁.course.stage = _ from hs] at hmanned₁
    obtain ⟨i, i₁, hsub, hsub₁, hhire⟩ := h.hire hmanned hmanned₁
    have hstride₁ := Course.Stride.hire (q := j₁.queue) (m := m) (n := left)
      (show j₁.course.stage = _ from hs)
    rw [show j₁.queue.subscribe j₁.course.run.topic = _ from hsub₁] at hstride₁
    refine hmade (g := f) (k := i) hstride₁ ?_ ?_
    · change { j₁.course with
        pool := (j₁.course.rename f n).pool.hire (q.subscribe j₁.topic).1
        stage := .hiring left } = _
      rw [hsub, hhire]
      rfl
    · change (q.subscribe j₁.topic).2.topicOf j₁.topic = _
      rw [hsub]
      exact h.messages
  | hired hs => exact hmade (.hired hs) rfl h.messages
  | drained hs hd =>
    have hd₁ : j₁.course.pool.isDrained = true := Pool.isDrained_rename.symm.trans hd
    have hcheck := Course.checkDrained_rename n m.now h.messages
    rw [hcheck] at hmade ⊢
    exact hmade (.drained hs hd₁) rfl h.messages
  | leave hs =>
    refine hmade (.leave hs) rfl ?_
    change (q.remove j₁.topic).2.topicOf j₁.topic =
      ((j₁.queue.remove j₁.topic).2.topicOf j₁.topic).rename f
    rw [Queue.topicOf_of_none Queue.current?_remove_self,
      Queue.topicOf_of_none Queue.current?_remove_self, Topic.rename_empty]

/-- **Every move is made alike.** -/
theorem move {m : Move} (h : Like f n j j₁) (ht : j.OnTrack) (ht₁ : j₁.OnTrack)
    (hr : j₁.Residue stale) (hm : j.move? m = some j') :
    ∃ f' n' j₁', j₁.move? m = some j₁' ∧ Like f' n' j' j₁' := by
  cases m with
  | own m => exact h.own ht ht₁ hm
  | work i now =>
    obtain ⟨j₁', hm₁, h'⟩ := h.work ht ht₁ hr hm
    exact ⟨f, n, j₁', hm₁, h'⟩
  | delegated i r =>
    obtain ⟨j₁', hm₁, h'⟩ := h.delegated hm
    exact ⟨f, n, j₁', hm₁, h'⟩
  | lost i =>
    obtain ⟨j₁', hm₁, h'⟩ := h.lost hm
    exact ⟨f, n, j₁', hm₁, h'⟩
  | answered a m =>
    obtain ⟨j₁', hm₁, h'⟩ := h.answered hm
    exact ⟨f, n, j₁', hm₁, h'⟩

/-- **A move spares the topics of the others.** -/
theorem spares {m : Move} {other : String} (h : Like f n j j₁) (ht : j.OnTrack)
    (ht₁ : j₁.OnTrack) (hr : j₁.Residue stale) (hm : j.move? m = some j')
    (hne : other ≠ j.topic) : j.queue.Spares j'.queue other := by
  cases m with
  | own m =>
    obtain ⟨c, q, ns, hstride, rfl⟩ := move?_own.mp hm
    cases hstride with
    | publish => exact Queue.spares_enqueue ht.sound hne _
    | dismiss => exact Queue.spares_enqueue ht.sound hne _
    | hire => exact Queue.spares_enter hne
    | leave => exact Queue.spares_remove hne
    | published | dismissed | hired | drained => exact .refl _ other
  | work i now =>
    obtain ⟨p, q, ns, hstep, rfl⟩ := move?_work.mp hm
    have hturn := Pool.turn_of_step? hstep
    obtain ⟨w, -, hw, hg, -⟩ := hturn.worker
    rw [h.pool] at hturn
    exact (h.alike ht ht₁ hr hw hg).spares (h.topic ▸ hne) hturn
  | delegated i r =>
    obtain ⟨d, -, rfl⟩ := move?_delegated.mp hm
    exact .refl _ other
  | lost i =>
    obtain ⟨d, -, rfl⟩ := move?_lost.mp hm
    exact .refl _ other
  | answered a m =>
    obtain ⟨r, -, -, rfl⟩ := move?_answered.mp hm
    exact .refl _ other

end Like

/-! ### What others do meanwhile -/

/-- The journey on a queue that others have gone on with. -/
def onto (j : Journey) (q : Queue Task) : Journey := { j with queue := q }

variable {q : Queue Task}

/-- **What others do keeps a run on its track**, if they spare its topic. -/
theorem OnTrack.onto (h : j.OnTrack) (hq : q.Sound) (hs : j.queue.Spares q j.topic) :
    (j.onto q).OnTrack := by
  refine ⟨hq, h.paced, ?_⟩
  have hstaffed {left : Nat} (hstaff : j.course.pool.Staffed j.queue j.topic left) :
      j.course.pool.Staffed q j.topic left :=
    ⟨fun w hw => hs.current.trans (hstaff.incarnation w hw), by
      rw [hs.topic]
      exact hstaff.sentinels⟩
  have hmanned := h.manned
  have hsame : (j.onto q).course.stage = j.course.stage := rfl
  unfold Manned at hmanned ⊢
  rw [hsame]
  cases hstage : j.course.stage with
  | hiring | draining =>
    rw [hstage] at hmanned
    exact hstaffed hmanned
  | dismissing =>
    rw [hstage, ← hs.topic] at hmanned
    exact hmanned
  | recording | recalling | planning | dispatching | judging | storing | failing | leaving
  | «over» =>
    rw [hstage] at hmanned
    exact hmanned

theorem Like.onto (h : Like f n j j₁) (hs : j.queue.Spares q j.topic) :
    Like f n (j.onto q) j₁ := by
  refine ⟨h.course, ?_, h.notices, h.calls⟩
  rw [← h.messages, ← h.topic]
  exact hs.topic

end Journey

end Roundtable

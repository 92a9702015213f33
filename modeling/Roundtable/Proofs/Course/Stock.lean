import Roundtable.Proofs.Course.Ending
import Roundtable.Proofs.Queue.Neighbours

/-!
# What waits on the topic of a run

On a topic that nobody else publishes to, **a run finds nothing but its own**: every message
that waits there bears the name of the topic, and is a sentinel or carries a task that the
planner of the run has planned (`Roundtable.Journey.Stocked`). So that is what its workers
receive (`Roundtable.Journey.Stocked.receives`).
-/

namespace Roundtable

namespace Journey

variable {j j' : Journey} {kind : Move → Prop}

/-- The planner of the run has planned the task, in one round or another. -/
def Planned (j : Journey) (a : Task) : Prop :=
  ∃ c ∈ j.calls, ∃ tasks, c.answer = .planned (.ok tasks) ∧ a ∈ tasks

/-- **The worker `i` receives a message** if it makes its turn now. -/
def Receives (j : Journey) (i : Nat) (e : Envelope Task) : Prop :=
  ∃ w s q, j.course.pool.workers[i]? = some w ∧ w.stage = .seeking ∧
    j.queue.next w.subscription = (.message e, s, q)

/-- The message was published by the run: under the name of its topic, and with a task it
has planned or none. -/
def Owns (j : Journey) (e : Envelope Task) : Prop :=
  e.topic = j.topic ∧ ∀ a, e.payload = .item a → j.Planned a

/-- **Nothing but its own waits for a run**, and nothing else is about to be published. -/
structure Stocked (j : Journey) : Prop where
  messages : ∀ e ∈ (j.queue.topicOf j.topic).ready, j.Owns e
  tasks : ∀ rest, j.course.stage = .dispatching rest → ∀ a ∈ rest, j.Planned a

/-- What was planned stays planned. -/
theorem Planned.mono {a : Task} (h : j.Planned a) (hc : j.calls <+: j'.calls) : j'.Planned a := by
  obtain ⟨c, hcall, htasks⟩ := h
  exact ⟨c, hc.subset hcall, htasks⟩

theorem Owns.mono {e : Envelope Task} (h : j.Owns e) (ht : j'.topic = j.topic)
    (hc : j.calls <+: j'.calls) : j'.Owns e :=
  ⟨h.1.trans ht.symm, fun a ha => (h.2 a ha).mono hc⟩

/-- Nothing new waits, and nothing new is about to be published. -/
theorem Stocked.of_subset (h : j.Stocked) (ht : j'.topic = j.topic) (hc : j.calls <+: j'.calls)
    (hready : ∀ e ∈ (j'.queue.topicOf j'.topic).ready, e ∈ (j.queue.topicOf j.topic).ready)
    (hstage : ∀ rest, j'.course.stage = .dispatching rest → j.course.stage = .dispatching rest) :
    j'.Stocked :=
  ⟨fun e he => (h.messages e (hready e he)).mono ht hc,
    fun rest hs a ha => (h.tasks rest (hstage rest hs) a ha).mono hc⟩

/-- **A stride** publishes nothing else. -/
theorem Stocked.own {m : Moment} (h : j.Stocked) (hs : j.queue.Sound)
    (hm : j.move? (.own m) = some j') : j'.Stocked := by
  obtain ⟨c, q, ns, hstride, rfl⟩ := move?_own.mp hm
  have hpublish {p : Payload Task} {stage : CourseStage}
      (hp : ∀ a, p = .item a → j.Planned a)
      (hstage : ∀ rest, stage = .dispatching rest → ∀ a ∈ rest, j.Planned a) :
      (j.advance (j.course.goOn stage) (j.queue.enqueue j.topic p).2 []).Stocked := by
    refine ⟨fun e he => ?_, hstage⟩
    change e ∈ ((j.queue.enqueue j.topic p).2.topicOf j.topic).ready at he
    rw [Queue.topicOf_enqueue hs] at he
    rcases List.mem_append.mp he with he | he
    · exact h.messages e he
    · obtain rfl := List.mem_singleton.mp he
      exact ⟨rfl, hp⟩
  cases hstride with
  | @publish t rest hstage =>
    have htasks := h.tasks _ hstage
    refine hpublish (p := .item t) (fun a ha => ?_) fun rest' hrest => ?_
    · obtain rfl := Payload.item.inj ha
      exact htasks t List.mem_cons_self
    · obtain rfl := CourseStage.dispatching.inj hrest
      exact fun a ha => htasks a (List.mem_cons_of_mem _ ha)
  | dismiss =>
    exact hpublish (p := .sentinel) (fun a ha => by cases ha) fun rest hrest => by cases hrest
  | published | dismissed | hired | drained =>
    exact h.of_subset rfl List.prefix_rfl (fun e he => he) fun rest hrest => by cases hrest
  | hire =>
    refine h.of_subset rfl List.prefix_rfl (fun e he => ?_) fun rest hrest => by cases hrest
    change e ∈ ((j.queue.enter j.topic).2.topicOf j.topic).ready at he
    rwa [Queue.topicOf_enter_self] at he
  | leave =>
    refine h.of_subset rfl List.prefix_rfl (fun e he => ?_) fun rest hrest => by cases hrest
    change e ∈ ((j.queue.remove j.topic).2.topicOf j.topic).ready at he
    rw [Queue.topicOf_of_none Queue.current?_remove_self] at he
    exact (List.not_mem_nil he).elim

/-- **A turn of a worker** takes the first message that waits, or none. -/
theorem Stocked.work {i : Nat} {now : Instant} (h : j.Stocked) (ht : j.OnTrack)
    (hm : j.move? (.work i now) = some j') : j'.Stocked := by
  obtain ⟨p, q, ns, hstep, rfl⟩ := move?_work.mp hm
  have hturn := Pool.turn_of_step? hstep
  obtain ⟨w, -, hw, hg, -⟩ := hturn.worker
  obtain ⟨left, hstaff, -⟩ := ht.manned.staffed hw hg
  have hn := hstaff.incarnation w (List.mem_of_getElem? hw)
  refine h.of_subset rfl List.prefix_rfl (fun e he => ?_) fun rest hrest => hrest
  change e ∈ (q.topicOf j.topic).ready at he
  obtain ⟨x, -, -, -, -, -, -, hready, -⟩ | ⟨-, -, -, -, -, hready⟩ :=
    hturn.ready hn fun x hx => Option.some.inj ((hstaff.incarnation x hx).symm.trans hn)
  · rw [hready]
    exact List.mem_cons_of_mem x he
  · rwa [← hready]

/-- **An answer** brings at most the plan of a round. -/
theorem Stocked.answered {a : CourseAnswer} {m : Moment} (h : j.Stocked)
    (hm : j.move? (.answered a m) = some j') : j'.Stocked := by
  obtain ⟨r, c, ns, hreply, rfl⟩ := reply_of_move? hm
  have hcalls : j.calls <+: (j.heard c ns ⟨r, a⟩).calls := List.prefix_append _ _
  have htopic : (j.heard c ns ⟨r, a⟩).topic = j.topic := topic_of_move? hm
  have hready : ∀ e ∈ ((j.heard c ns ⟨r, a⟩).queue.topicOf (j.heard c ns ⟨r, a⟩).topic).ready,
      e ∈ (j.queue.topicOf j.topic).ready := by
    rw [htopic]
    exact fun e he => he
  cases hreply with
  | @planned r tasks hs =>
    refine ⟨fun e he => (h.messages e (hready e he)).mono htopic hcalls, fun rest hrest b hb => ?_⟩
    obtain rfl := CourseStage.dispatching.inj hrest
    exact ⟨_, List.mem_append_right _ (List.mem_singleton.mpr rfl), tasks, rfl, hb⟩
  | recorded | continued =>
    refine h.of_subset htopic hcalls hready fun rest hrest => ?_
    obtain ⟨-, hst⟩ | ⟨-, hst⟩ := j.course.stage_beginRound m <;>
      exact absurd (hst.symm.trans hrest) (by simp)
  | recalled | proceeds | stops | completed | refused | failed =>
    exact h.of_subset htopic hcalls hready fun rest hrest => by cases hrest

/-- **Every move** leaves a run with nothing but its own. -/
theorem Stocked.move {m : Move} (h : j.Stocked) (ht : j.OnTrack) (hm : j.move? m = some j') :
    j'.Stocked := by
  cases m with
  | own m => exact h.own ht.sound hm
  | work i now => exact h.work ht hm
  | delegated i r =>
    obtain ⟨d, -, rfl⟩ := move?_delegated.mp hm
    exact h.of_subset rfl List.prefix_rfl (fun e he => he) fun rest hrest => hrest
  | lost i =>
    obtain ⟨d, -, rfl⟩ := move?_lost.mp hm
    exact h.of_subset rfl List.prefix_rfl (fun e he => he) fun rest hrest => hrest
  | answered a m => exact h.answered hm

theorem Stocked.reaches (h : j.Stocked) (ht : j.OnTrack) (hj : j.Reaches kind j') : j'.Stocked :=
  ht.keeps hj (fun ha _ hm h => h.move ha hm) h

/-- A run at its outset finds nothing on a topic where nothing waits. -/
theorem stocked_of_embark {run : RunId} {mission : String} {workers limit : Nat}
    {delegation : Delegation} {now : Instant} {q : Queue Task} {j₀ : Journey}
    (hready : (q.topicOf run.topic).ready = [])
    (h : embark run mission workers limit delegation now q = .ok j₀) : j₀.Stocked := by
  obtain ⟨-, -, ns, rfl⟩ := embark_eq_ok h
  refine ⟨fun e he => ?_, fun rest hrest => by cases hrest⟩
  change e ∈ (q.topicOf run.topic).ready at he
  rw [hready] at he
  exact (List.not_mem_nil he).elim

/-- **A worker receives nothing but what was published by its run.** -/
theorem Stocked.receives {i : Nat} {e : Envelope Task} (h : j.Stocked) (ht : j.OnTrack)
    (hr : j.Receives i e) : j.Owns e := by
  obtain ⟨w, s, q, hw, hs, hnext⟩ := hr
  obtain ⟨left, hstaff, -⟩ := ht.manned.staffed hw (by rw [hs]; rfl)
  have hn := hstaff.incarnation w (List.mem_of_getElem? hw)
  refine h.messages e ?_
  rw [Queue.topicOf_of_some hn]
  obtain ⟨hq, -⟩ | ⟨hq, -⟩ | ⟨e', t, hq, -, htake⟩ := j.queue.next_cases w.subscription
  · cases hq.symm.trans hnext
  · cases hq.symm.trans hnext
  · obtain ⟨r, hready, -⟩ := Topic.take_eq_some_iff.mp htake
    obtain rfl : e' = e := Queue.Attempt.message.inj (congrArg Prod.fst (hq.symm.trans hnext))
    rw [hready]
    exact List.mem_cons_self

end Journey

end Roundtable

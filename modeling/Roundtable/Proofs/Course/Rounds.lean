import Roundtable.Proofs.Course.Drain
import Roundtable.Proofs.Course.Ending

/-!
# Rounds in a row

A run that loses no worker and finds its topic clear leaves it clear after every round: the
drain of a round is exact (`Roundtable.Journey.drain_exact`), so the next one starts where
the first did. **No round of such a run is ever found unbalanced**, and until a call fails
nothing stands on the run as a failure (`Roundtable.Journey.Tidy.error_eq_none`).
-/

namespace Roundtable

namespace Journey

variable {j j' : Journey}

/-- The topic of the run holds nothing, and no failure stands on the run. -/
structure Blank (j : Journey) : Prop where
  clear : (j.queue.topicOf j.topic).IsClear
  error : j.course.state.error = none

/-- The round is new: nobody works in it, and nothing was done or collected. -/
structure New (j : Journey) : Prop where
  workers : j.course.pool.workers = []
  results : j.course.pool.results = []
  deeds : j.deedsOf j.round = []

/-- The journey is in a round that found the topic clear, and without a failure. -/
def InTidyRound (j : Journey) : Prop :=
  ∃ c tasks q, 0 < c.workers ∧ c.state.error = none ∧ j.InRound c tasks q

/-- What is left of the rounds so far at each stage of a run. -/
def TidyStage (j : Journey) : Prop :=
  match j.course.stage with
  | .recording | .storing _ => j.Blank
  | .recalling | .planning _ => j.Blank ∧ j.New
  | .dispatching _ | .dismissing _ | .hiring _ | .draining | .judging _ => j.InTidyRound
  | .failing | .leaving | .over => True

/-- **Nothing is left of the rounds so far.** -/
structure Tidy (j : Journey) : Prop where
  workers : 0 < j.course.workers
  deeds : ∀ x ∈ j.deeds, x.1 ≤ j.round
  stage : j.TidyStage

theorem InTidyRound.error_eq_none (h : j.InTidyRound) : j.course.state.error = none := by
  obtain ⟨c, tasks, q, -, herror, hround⟩ := h
  exact hround.error.trans herror

/-- **Until a call fails nothing stands on the run as a failure.** -/
theorem Tidy.error_eq_none (h : j.Tidy) (hs : 2 < j.course.stage.rank) :
    j.course.state.error = none := by
  have hstage := h.stage
  unfold TidyStage at hstage
  cases hc : j.course.stage with
  | recording | storing => rw [hc] at hstage; exact hstage.error
  | recalling | planning => rw [hc] at hstage; exact hstage.1.error
  | dispatching | dismissing | hiring | draining | judging =>
    rw [hc] at hstage
    exact hstage.error_eq_none
  | failing | leaving | «over» => simp [hc, CourseStage.rank] at hs

/-- A round that was drained leaves the topic clear for the next. -/
theorem InTidyRound.blank {r : JudgeRequest} (h : j.InTidyRound)
    (hs : j.course.stage = .judging r) : j.Blank := by
  have herror := h.error_eq_none
  obtain ⟨c, tasks, q, hw, -, hround⟩ := h
  have hstage := hround.stage
  rw [AtStage, hs] at hstage
  have ht : j.topic = c.run.topic := congrArg RunId.topic hround.run
  exact ⟨ht ▸ hstage.1.drained hw hstage.2.2.1, herror⟩

/-- Workers are at work in a round only. -/
theorem TidyStage.inTidyRound (h : j.TidyStage) (hm : j.Manned) {k : Nat} {w : PoolWorker}
    (hw : j.course.pool.workers[k]? = some w) (hg : w.stage.isGone = false) :
    j.InTidyRound ∧ ∀ j' : Journey, j'.course.stage = j.course.stage → j'.InTidyRound →
      j'.TidyStage := by
  unfold TidyStage at h
  rcases hm.working hw hg with ⟨left, hs⟩ | hs
  all_goals
    rw [hs] at h
    refine ⟨h, fun j' hs' hround => ?_⟩
    rw [TidyStage, hs', hs]
    exact hround

/-- What the workers did so far belongs to the rounds so far. -/
theorem le_round_did (h : ∀ x ∈ j.deeds, x.1 ≤ j.round) (d : Option Deed) :
    ∀ x ∈ (j.did d).deeds, x.1 ≤ j.round := by
  intro x hx
  rcases List.mem_append.mp hx with hx | hx
  · exact h x hx
  · obtain ⟨e, -, rfl⟩ := List.mem_map.mp hx
    exact Nat.le_refl _

/-- **A turn** leaves nothing behind. -/
theorem Tidy.work {k : Nat} {now : Instant} (h : j.Tidy) (ht : j.OnTrack)
    (hm : j.move? (.work k now) = some j') : j'.Tidy := by
  obtain ⟨p, q', ns, hstep, rfl⟩ := move?_work.mp hm
  obtain ⟨w, w', hw, hg, -⟩ := (Pool.turn_of_step? hstep).worker
  obtain ⟨⟨c, tasks, q, hpos, herror, hround⟩, hstage⟩ := h.stage.inTidyRound ht.manned hw hg
  exact ⟨h.workers, le_round_did h.deeds _,
    hstage _ rfl ⟨c, tasks, q, hpos, herror, hround.work hm⟩⟩

/-- **A delegation that comes back** leaves nothing behind. -/
theorem Tidy.delegated {k : Nat} {r : SubAgentResult} (h : j.Tidy) (ht : j.OnTrack)
    (hm : j.move? (.delegated k r) = some j') : j'.Tidy := by
  obtain ⟨d, hd, rfl⟩ := move?_delegated.mp hm
  obtain ⟨w, a, hw, hs⟩ := Pool.delegating?_eq_some hd
  obtain ⟨⟨c, tasks, q, hpos, herror, hround⟩, hstage⟩ :=
    h.stage.inTidyRound ht.manned hw (by rw [hs]; rfl)
  exact ⟨h.workers, le_round_did h.deeds _,
    hstage _ rfl ⟨c, tasks, q, hpos, herror, hround.delegated hm⟩⟩

/-- **A stride** leaves nothing behind. -/
theorem Tidy.own {m : Moment} (h : j.Tidy) (hm : j.move? (.own m) = some j') : j'.Tidy := by
  have hstage := h.stage
  unfold TidyStage at hstage
  obtain ⟨c', q', ns, hstride, rfl⟩ := move?_own.mp hm
  cases hstride with
  | publish hs | published hs | dismiss hs | dismissed hs | hire hs | hired hs | drained hs =>
    rw [hs] at hstage
    obtain ⟨c, tasks, q, hpos, herror, hround⟩ := hstage
    exact ⟨h.workers, h.deeds, c, tasks, q, hpos, herror, hround.own hpos hm⟩
  | leave hs => exact ⟨h.workers, h.deeds, trivial⟩

/-- **A new round** finds a topic that is blank. -/
theorem Tidy.beginRound {m : Moment} {ns : List Notice} {call : Call} (h : j.Tidy)
    (hblank : j.Blank) (hp : j.course.Paced) (hlt : j.round < j.course.limit) :
    (j.heard (j.course.beginRound m).1 ns call).Tidy := by
  have hround : j.course.state.beginRound.round = j.round + 1 :=
    Course.round_beginRound hlt hp.2.1
  set j' := j.heard (j.course.beginRound m).1 ns call with hj'
  have hstate : j'.course.state = j.course.state.beginRound := Course.state_beginRound
  have hr : j'.round = j.round + 1 := (congrArg RunState.round hstate).trans hround
  have htopic : j'.topic = j.topic := by
    rw [topic, Course.run, hstate]
    rfl
  have hdeeds : j'.deedsOf j'.round = [] :=
    deedsOf_eq_nil fun x hx => hr ▸ Nat.lt_succ_of_le (h.deeds x hx)
  have hnew : j'.Blank ∧ j'.New := by
    refine ⟨⟨?_, ?_⟩, ?_, ?_, hdeeds⟩
    · rw [htopic]
      exact hblank.clear
    · exact (congrArg RunState.error hstate).trans hblank.error
    · exact congrArg Pool.workers Course.pool_beginRound
    · exact congrArg Pool.results Course.pool_beginRound
  refine ⟨?_, fun x hx => ?_, ?_⟩
  · exact Nat.lt_of_lt_of_eq h.workers Course.workers_beginRound.symm
  · have := h.deeds x hx
    omega
  · unfold TidyStage
    rcases j.course.stage_beginRound m with ⟨-, hst⟩ | ⟨-, hst⟩
    · rw [show j'.course.stage = _ from hst]
      exact hnew
    · rw [show j'.course.stage = _ from hst]
      exact hnew

/-- **A new round is dispatched** on a topic that is clear. -/
theorem New.inRound (h : j.New) (hclear : (j.queue.topicOf j.topic).IsClear)
    (hs : j.queue.Sound) (tasks : List Task) (call : Call) :
    (j.heard (j.course.dispatch tasks) [] call).InRound j.course tasks j.queue :=
  ⟨hs, rfl, rfl, rfl, rfl, [], rfl, hclear.1, hclear.2, rfl, h.workers, h.results, h.deeds⟩

/-- **A reply** leaves nothing behind. -/
theorem Tidy.answered {a : CourseAnswer} {m : Moment} (h : j.Tidy) (ht : j.OnTrack)
    (hm : j.move? (.answered a m) = some j') : j'.Tidy := by
  have hstage := h.stage
  unfold TidyStage at hstage
  have hpaced := ht.paced.2.2.2
  obtain ⟨r, c, ns, hreply, rfl⟩ := reply_of_move? hm
  cases hreply with
  | recorded hs =>
    rw [hs] at hstage hpaced
    have hpos := ht.paced.1
    exact h.beginRound hstage ht.paced (by rw [round, hpaced]; exact hpos)
  | continued hs =>
    rw [hs] at hstage hpaced
    exact h.beginRound hstage ht.paced hpaced.2
  | recalled hs =>
    rw [hs] at hstage
    exact ⟨h.workers, h.deeds, ⟨hstage.1.clear, hstage.1.error⟩,
      hstage.2.workers, hstage.2.results, hstage.2.deeds⟩
  | @planned r tasks hs =>
    rw [hs] at hstage
    obtain ⟨hblank, hnew⟩ := hstage
    exact ⟨h.workers, h.deeds, j.course, tasks, j.queue, h.workers, hblank.error,
      hnew.inRound hblank.clear ht.sound tasks _⟩
  | proceeds hs hd | stops hs hd =>
    rw [hs] at hstage
    have hblank := InTidyRound.blank hstage hs
    exact ⟨h.workers, h.deeds, hblank.clear, hblank.error⟩
  | completed hs | refused hr | failed hs => exact ⟨h.workers, h.deeds, trivial⟩

/-- **Every safe move** leaves nothing behind. -/
theorem Tidy.move {m : Move} (h : j.Tidy) (ht : j.OnTrack) (hsafe : m.IsSafe)
    (hm : j.move? m = some j') : j'.Tidy := by
  cases m with
  | own m => exact h.own hm
  | work i now => exact h.work ht hm
  | delegated i r => exact h.delegated ht hm
  | lost i => exact hsafe.elim
  | answered a m => exact h.answered ht hm

/-- **A run that begins where its topic is clear** leaves nothing behind, wherever safe
moves lead. -/
theorem Tidy.reaches (h : j.Tidy) (ht : j.OnTrack) (hr : j.Reaches Move.IsSafe j') : j'.Tidy :=
  ht.keeps hr (fun ht hsafe hm h => h.move ht hsafe hm) h

end Journey

end Roundtable

import Roundtable.Course

/-!
# The strides of a course

What a course does of itself, and what it makes of an answer, listed once: a
`Roundtable.Course.Stride` is a step on the queue, a `Roundtable.Course.Reply` an answer
that is taken, and a `Roundtable.Course.Refusal` an answer that ends the run. Everything
that holds along a run is seen stride by stride and reply by reply.

**All refusals lead to the same stage**: the state has failed and is about to be recorded
(`Roundtable.Course.Reply.refused`).
-/

namespace Roundtable

/-- The answer is one to the question. -/
def CourseAnswer.Fits : CourseRequest → CourseAnswer → Prop
  | .persist _ _, .persisted _ => True
  | .load, .loaded _ => True
  | .plan _, .planned _ => True
  | .judge _, .judged _ => True
  | _, _ => False

instance (r : CourseRequest) (a : CourseAnswer) : Decidable (a.Fits r) := by
  cases r <;> cases a <;> simp only [CourseAnswer.Fits] <;> infer_instance

namespace Course

/-! ### Strides -/

/-- **A step of a course on the queue.** -/
inductive Stride (c : Course) (q : Queue Task) (m : Moment) :
    Course → Queue Task → List Notice → Prop
  | publish {t : Task} {rest : List Task} (hs : c.stage = .dispatching (t :: rest)) :
      Stride c q m (c.goOn (.dispatching rest)) (q.publish c.run.topic t).2 []
  | published (hs : c.stage = .dispatching []) :
      Stride c q m (c.goOn (.dismissing c.workers)) q []
  | dismiss {n : Nat} (hs : c.stage = .dismissing (n + 1)) :
      Stride c q m (c.goOn (.dismissing n)) (q.publishSentinel c.run.topic).2 []
  | dismissed (hs : c.stage = .dismissing 0) :
      Stride c q m
        { c with state := { c.state with phase := .executing }, stage := .hiring c.workers } q
        [.event (c.dispatched m.now)]
  | hire {n : Nat} (hs : c.stage = .hiring (n + 1)) :
      Stride c q m { c with pool := c.pool.hire (q.subscribe c.run.topic).1, stage := .hiring n }
        (q.subscribe c.run.topic).2 []
  | hired (hs : c.stage = .hiring 0) : Stride c q m (c.goOn .draining) q []
  | drained (hs : c.stage = .draining) (hd : c.pool.isDrained = true) :
      Stride c q m
        { c with
          state := { c.state with
            results := c.pool.results, phase := .consolidating, status := .awaitingConsolidation
            error := (c.checkDrained q m.now).1.state.error }
          stage := .judging
            { run := c.run, round := c.state.round, results := c.pool.results
              session := c.run.rootSession.derive "judge" none m.fresh } }
        q (c.checkDrained q m.now).2
  | leave (hs : c.stage = .leaving) :
      Stride c q m (c.goOn .over) (q.remove c.run.topic).2 [.measure (.runEnded c.state.status)]

variable {c c' : Course} {q q' : Queue Task} {m : Moment} {ns : List Notice}

/-- Whether a round was drained is seen in the failure that stands on the run, and nowhere
else. -/
theorem checkDrained_fst (c : Course) (q : Queue Task) (now : Instant) :
    (c.checkDrained q now).1 =
      { c with state := { c.state with error := (c.checkDrained q now).1.state.error } } := by
  unfold checkDrained
  dsimp only
  split
  · rfl
  · simp [RunState.recordFailure, FailureKind.isFatal]

theorem consolidate_eq (c : Course) (q : Queue Task) (m : Moment) : c.consolidate q m =
    ({ c with
        state := { c.state with
          results := c.pool.results, phase := .consolidating, status := .awaitingConsolidation
          error := (c.checkDrained q m.now).1.state.error }
        stage := .judging
          { run := c.run, round := c.state.round, results := c.pool.results
            session := c.run.rootSession.derive "judge" none m.fresh } },
      (c.checkDrained q m.now).2) := by
  unfold consolidate
  dsimp only
  rw [checkDrained_fst]
  rfl

/-- **A course steps exactly as its strides tell.** -/
theorem step?_eq_some_iff : c.step? q m = some (c', q', ns) ↔ c.Stride q m c' q' ns := by
  constructor
  · intro h
    unfold step? at h
    split at h <;> simp only [Option.some.injEq, Prod.mk.injEq, reduceCtorEq] at h
    · next hs =>
      obtain ⟨rfl, rfl, rfl⟩ := h
      exact .publish hs
    · next hs =>
      obtain ⟨rfl, rfl, rfl⟩ := h
      exact .published hs
    · next hs =>
      obtain ⟨rfl, rfl, rfl⟩ := h
      exact .dismiss hs
    · next hs =>
      obtain ⟨rfl, rfl, rfl⟩ := h
      exact .dismissed hs
    · next hs =>
      obtain ⟨rfl, rfl, rfl⟩ := h
      exact .hire hs
    · next hs =>
      obtain ⟨rfl, rfl, rfl⟩ := h
      exact .hired hs
    · next hs =>
      split at h <;> simp only [Option.some.injEq, Prod.mk.injEq, reduceCtorEq] at h
      next hd =>
      rw [consolidate_eq] at h
      obtain ⟨rfl, rfl, rfl⟩ := h
      exact .drained hs hd
    · next hs =>
      obtain ⟨rfl, rfl, rfl⟩ := h
      exact .leave hs
  · intro h
    cases h with
    | publish hs | published hs | dismiss hs | dismissed hs | hire hs | hired hs | leave hs =>
      simp [step?, hs]
    | drained hs hd => simp [step?, hs, hd, consolidate_eq]

/-! ### Replies -/

/-- **An answer that ends the run**, with the kind of the failure and what is said of it. -/
inductive Refusal (c : Course) : CourseRequest → CourseAnswer → FailureKind → String → Prop
  | mission {e : StoreError} (hs : c.stage = .recording) :
      Refusal c (.persist 0 c.state) (.persisted (.error e)) .persistence
        ("Failed to record mission: " ++ e.message)
  | nothing (hs : c.stage = .recalling) :
      Refusal c .load (.loaded (.ok none)) .persistence
        ("No persisted rounds found for run " ++ c.run.text)
  | memory {e : StoreError} (hs : c.stage = .recalling) :
      Refusal c .load (.loaded (.error e)) .persistence
        ("Failed to reload cross-round memory: " ++ e.message)
  | plan {r : PlanRequest} {e : CapabilityError} (hs : c.stage = .planning r) :
      Refusal c (.plan r) (.planned (.error e)) .planning
        ("Planner failed in round " ++ decimal c.state.round ++ ": " ++ e.message)
  | judge {r : JudgeRequest} {e : CapabilityError} (hs : c.stage = .judging r) :
      Refusal c (.judge r) (.judged (.error e)) .consolidation
        ("Judge failed in round " ++ decimal c.state.round ++ ": " ++ e.message)
  | round {d : RoundDecision} {e : StoreError} (hs : c.stage = .storing d) :
      Refusal c (.persist c.state.round c.state) (.persisted (.error e)) .persistence
        ("Failed to record round " ++ decimal c.state.round ++ ": " ++ e.message)

/-- **An answer that a course takes**, to the question it asks at its stage. -/
inductive Reply (c : Course) (m : Moment) :
    CourseRequest → CourseAnswer → Course → List Notice → Prop
  | recorded (hs : c.stage = .recording) :
      Reply c m (.persist 0 c.state) (.persisted (.ok ())) (c.beginRound m).1 (c.beginRound m).2
  | recalled {s : RunState} (hs : c.stage = .recalling) :
      Reply c m .load (.loaded (.ok (some s))) (c.plan s.memory m.fresh) []
  | planned {r : PlanRequest} {tasks : List Task} (hs : c.stage = .planning r) :
      Reply c m (.plan r) (.planned (.ok tasks)) (c.dispatch tasks) []
  | proceeds {r : JudgeRequest} {v : Verdict} (hs : c.stage = .judging r)
      (hd : v.continueRun = true ∧ c.state.round < c.limit) :
      Reply c m (.judge r) (.judged (.ok v))
        { c with
          state := { c.state.recordSummary v.summary with status := .continuing }
          stage := .storing .continue }
        [.event (.roundConsolidated c.run c.state.round v.summary v.continueRun m.now)]
  | stops {r : JudgeRequest} {v : Verdict} (hs : c.stage = .judging r)
      (hd : ¬(v.continueRun = true ∧ c.state.round < c.limit)) :
      Reply c m (.judge r) (.judged (.ok v))
        { c with
          state := (c.state.recordSummary v.summary).complete m.now
          stage := .storing .complete }
        [.event (.roundConsolidated c.run c.state.round v.summary v.continueRun m.now)]
  | continued (hs : c.stage = .storing .continue) :
      Reply c m (.persist c.state.round c.state) (.persisted (.ok ())) (c.beginRound m).1
        (c.beginRound m).2
  | completed (hs : c.stage = .storing .complete) :
      Reply c m (.persist c.state.round c.state) (.persisted (.ok ())) (c.goOn .leaving)
        [.event (c.completion m.now)]
  | refused {r : CourseRequest} {a : CourseAnswer} {kind : FailureKind} {message : String}
      (h : c.Refusal r a kind message) : Reply c m r a (c.fail kind message m.now) []
  | failed {answer : Except StoreError Unit} (hs : c.stage = .failing) :
      Reply c m (.persist c.state.round c.state) (.persisted answer) (c.goOn .leaving)
        (c.failureNotices m.now)

/-! ### Stages seen from outside -/

theorem request?_eq_load : c.request? = some .load ↔ c.stage = .recalling := by
  unfold request?
  cases c.stage <;> simp

theorem request?_eq_plan {r : PlanRequest} :
    c.request? = some (.plan r) ↔ c.stage = .planning r := by
  unfold request?
  cases c.stage <;> simp

theorem request?_eq_judge {r : JudgeRequest} :
    c.request? = some (.judge r) ↔ c.stage = .judging r := by
  unfold request?
  cases c.stage <;> simp

theorem isOver_iff : c.isOver = true ↔ c.stage = .over := by
  unfold isOver
  cases c.stage <;> simp

/-! ### A round begins -/

@[simp] theorem state_beginRound : (c.beginRound m).1.state = c.state.beginRound := by
  unfold beginRound
  dsimp only
  split <;> rfl

@[simp] theorem workers_beginRound : (c.beginRound m).1.workers = c.workers := by
  unfold beginRound
  dsimp only
  split <;> rfl

@[simp] theorem limit_beginRound : (c.beginRound m).1.limit = c.limit := by
  unfold beginRound
  dsimp only
  split <;> rfl

@[simp] theorem pool_beginRound :
    (c.beginRound m).1.pool = .empty c.run c.state.beginRound.round c.delegation := by
  unfold beginRound
  dsimp only
  split <;> rfl

/-- **The first round begins with the question for its plan**, any other with the question
for the memory. -/
theorem stage_beginRound (c : Course) (m : Moment) :
    c.state.beginRound.round ≤ 1 ∧ (c.beginRound m).1.stage = .planning
      { run := c.run, round := c.state.beginRound.round, mission := c.state.mission, memory := []
        session := c.run.rootSession.derive "planner" none m.fresh } ∨
    1 < c.state.beginRound.round ∧ (c.beginRound m).1.stage = .recalling := by
  unfold beginRound
  dsimp only
  split
  · next h => exact .inl ⟨h, rfl⟩
  · next h => exact .inr ⟨Nat.lt_of_not_le h, rfl⟩

/-! ### Answers are taken -/

/-- **The limit has the last word** on another round. -/
theorem reply_of_verdict {r : JudgeRequest} (hs : c.stage = .judging r) (v : Verdict) :
    c.Reply m (.judge r) (.judged (.ok v)) (c.follow v m.now).1 (c.follow v m.now).2 := by
  by_cases hd : v.continueRun = true ∧ c.state.round < c.limit
  · have hafter : RoundDecision.after v c.state.round c.limit = .continue := by
      simp [RoundDecision.after, hd]
    have hfollow : c.follow v m.now =
        ({ c with
            state := { c.state.recordSummary v.summary with status := .continuing }
            stage := .storing .continue },
          [.event (.roundConsolidated c.run c.state.round v.summary v.continueRun m.now)]) := by
      rw [follow, show (c.state.recordSummary v.summary).round = c.state.round from rfl, hafter]
      rfl
    rw [hfollow]
    exact .proceeds hs hd
  · have hafter : RoundDecision.after v c.state.round c.limit = .complete := by
      simpa [RoundDecision.after] using hd
    have hfollow : c.follow v m.now =
        ({ c with
            state := (c.state.recordSummary v.summary).complete m.now
            stage := .storing .complete },
          [.event (.roundConsolidated c.run c.state.round v.summary v.continueRun m.now)]) := by
      rw [follow, show (c.state.recordSummary v.summary).round = c.state.round from rfl, hafter]
      rfl
    rw [hfollow]
    exact .stops hs hd

/-- **An answer to its question is taken as one of the replies tells.** -/
theorem reply_of_fits {r : CourseRequest} {a : CourseAnswer} (hr : c.request? = some r)
    (ha : a.Fits r) : c.Reply m r a (c.resume a m).1 (c.resume a m).2 := by
  unfold request? at hr
  cases hs : c.stage <;> simp only [hs, Option.some.injEq, reduceCtorEq] at hr <;> subst hr <;>
    cases a <;> simp only [CourseAnswer.Fits] at ha
  case recording.persisted r =>
    cases r with
    | ok => simpa [resume, hs] using Reply.recorded hs
    | error e => simpa [resume, hs] using Reply.refused (.mission hs)
  case recalling.loaded r =>
    rcases r with e | s | s
    · simpa [resume, hs] using Reply.refused (.memory hs)
    · simpa [resume, hs] using Reply.refused (.nothing hs)
    · simpa [resume, hs] using Reply.recalled hs
  case planning.planned r =>
    cases r with
    | ok tasks => simpa [resume, hs] using Reply.planned hs
    | error e => simpa [resume, hs] using Reply.refused (.plan hs)
  case judging.judged r =>
    cases r with
    | ok v => simpa [resume, hs] using reply_of_verdict hs v
    | error e => simpa [resume, hs] using Reply.refused (.judge hs)
  case storing.persisted d r =>
    cases r with
    | error e => cases d <;> simpa [resume, hs] using Reply.refused (.round hs)
    | ok =>
      cases d with
      | «continue» => simpa [resume, hs] using Reply.continued hs
      | complete => simpa [resume, hs] using Reply.completed hs
  case failing.persisted r =>
    cases r <;> simpa [resume, hs] using Reply.failed hs

end Course

end Roundtable

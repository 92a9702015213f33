import Mathlib.Order.Bounds.Defs
import Roundtable.Proofs.Course.Rounds

/-!
# The outcome of a run

What a run asks of the store, the planner and the judge is laid down beforehand
(`Roundtable.Errand.ofRun`): its mission is recorded, and then each round recalls the
memory, except for the first, plans, judges and is recorded. **The answers alone decide how
far a run gets** (`Roundtable.Journey.outcome`): it is complete in the first round that is
the last one allowed or whose judge asks for no other, and the first call that fails ends
it, whatever the state said by then.
-/

namespace Roundtable

/-! ### Errands -/

/-- What a question of a course is about. -/
inductive Errand
  | record (round : Nat)
  | recall
  | plan (round : Nat)
  | judge (round : Nat)
deriving DecidableEq, Repr

/-- The errand of a question. -/
def CourseRequest.errand : CourseRequest → Errand
  | .persist round _ => .record round
  | .load => .recall
  | .plan r => .plan r.round
  | .judge r => .judge r.round

namespace Errand

/-- What a round asks before its plan. -/
def opening (round : Nat) : List Errand := if round ≤ 1 then [] else [.recall]

/-- What a round asks. -/
def ofRound (round : Nat) : List Errand :=
  opening round ++ [plan round, judge round, record round]

/-- **What a run of `n` rounds asks.** -/
def ofRun : Nat → List Errand
  | 0 => [record 0]
  | n + 1 => ofRun n ++ ofRound (n + 1)

/-- A longer run asks the same at first. -/
theorem ofRun_prefix {m n : Nat} (h : m ≤ n) : ofRun m <+: ofRun n := by
  induction h with
  | refl => exact List.prefix_rfl
  | step _ ih => exact ih.trans (List.prefix_append _ _)

end Errand

/-! ### Calls -/

namespace Call

/-- The errand of a call. -/
def errand (c : Call) : Errand := c.request.errand

/-- **The failure that a call brings on a run**, if it fails. Finding no record where there
should be one is a failure. -/
def failure? (run : RunId) : Call → Option RunFailure
  | ⟨.persist 0 _, .persisted (.error e)⟩ =>
    some ⟨.persistence, "Failed to record mission: " ++ e.message⟩
  | ⟨.persist (n + 1) _, .persisted (.error e)⟩ =>
    some ⟨.persistence, "Failed to record round " ++ decimal (n + 1) ++ ": " ++ e.message⟩
  | ⟨.load, .loaded (.error e)⟩ =>
    some ⟨.persistence, "Failed to reload cross-round memory: " ++ e.message⟩
  | ⟨.load, .loaded (.ok none)⟩ =>
    some ⟨.persistence, "No persisted rounds found for run " ++ run.text⟩
  | ⟨.plan r, .planned (.error e)⟩ =>
    some ⟨.planning, "Planner failed in round " ++ decimal r.round ++ ": " ++ e.message⟩
  | ⟨.judge r, .judged (.error e)⟩ =>
    some ⟨.consolidation, "Judge failed in round " ++ decimal r.round ++ ": " ++ e.message⟩
  | _ => none

/-- The verdict that a call brings, and the round it is on. -/
def verdict? : Call → Option (Nat × Verdict)
  | ⟨.judge r, .judged (.ok v)⟩ => some (r.round, v)
  | _ => none

/-- The round a call belongs to after so many rounds that were judged. -/
def roundAfter (judged : Nat) (c : Call) : Nat :=
  match c.request with
  | .persist round _ => round
  | .load => judged + 1
  | .plan r => r.round
  | .judge r => r.round

end Call

namespace Journey

/-- The verdicts so far. -/
def verdicts (j : Journey) : List (Nat × Verdict) := j.calls.filterMap Call.verdict?

/-- **So far every call was answered without a failure**: `n` rounds are through, and
`extra` was asked after them. -/
structure Asked (j : Journey) (n : Nat) (extra : List Errand) : Prop where
  round : j.round = n + 1
  errands : j.calls.map Call.errand = Errand.ofRun n ++ extra
  sound : ∀ c ∈ j.calls, c.failure? j.course.run = none

/-- `n` rounds were judged, and each verdict asked for another. -/
structure Proceeding (vs : List (Nat × Verdict)) (n : Nat) : Prop where
  rounds : vs.map (·.1) = List.range' 1 n
  proceeds : ∀ x ∈ vs, x.2.continueRun = true

/-- The round under way was judged with `v`. -/
def JudgedWith (j : Journey) (v : Verdict) : Prop :=
  ∃ vs n, j.round = n + 1 ∧ j.verdicts = vs ++ [(n + 1, v)] ∧ Proceeding vs n

/-- **The run is complete**: no call failed, and the last verdict or the limit ended it. -/
structure Completed (j : Journey) : Prop where
  errands : j.calls.map Call.errand = Errand.ofRun j.round
  sound : ∀ c ∈ j.calls, c.failure? j.course.run = none
  verdict : ∃ v, j.JudgedWith v ∧ ¬(v.continueRun = true ∧ j.round < j.course.limit)
  status : j.course.state.status = .completed
  error : j.course.state.error = none

/-- **A call has failed the run**: none failed before it. -/
structure FailedBy (j : Journey) (before : List Call) (c : Call) (f : RunFailure) : Prop where
  sound : ∀ b ∈ before, b.failure? j.course.run = none
  failure : c.failure? j.course.run = some f
  errands : (before ++ [c]).map Call.errand <+: Errand.ofRun j.course.limit
  round : j.round = c.roundAfter (before.filterMap Call.verdict?).length
  status : j.course.state.status = .failed
  error : j.course.state.error = some f

/-- How far a run has got at each stage. -/
def ReportStage (j : Journey) : Prop :=
  match j.course.stage with
  | .recording => j.calls = []
  | .recalling => ∃ n, 0 < n ∧ j.Asked n [] ∧ Proceeding j.verdicts n
  | .planning r => r.round = j.round ∧
    ∃ n, j.Asked n (Errand.opening (n + 1)) ∧ Proceeding j.verdicts n
  | .dispatching _ | .dismissing _ | .hiring _ | .draining =>
    ∃ n, j.Asked n (Errand.opening (n + 1) ++ [.plan (n + 1)]) ∧ Proceeding j.verdicts n
  | .judging r => r.round = j.round ∧
    ∃ n, j.Asked n (Errand.opening (n + 1) ++ [.plan (n + 1)]) ∧ Proceeding j.verdicts n
  | .storing .continue => ∃ n v,
    j.Asked n (Errand.opening (n + 1) ++ [.plan (n + 1), .judge (n + 1)]) ∧ j.JudgedWith v ∧
      v.continueRun = true
  | .storing .complete => ∃ n v,
    j.Asked n (Errand.opening (n + 1) ++ [.plan (n + 1), .judge (n + 1)]) ∧ j.JudgedWith v ∧
      ¬(v.continueRun = true ∧ j.round < j.course.limit) ∧ j.course.state.status = .completed
  | .failing => ∃ before c f, j.calls = before ++ [c] ∧ j.FailedBy before c f
  | .leaving | .over => j.Completed ∨ ∃ before c f answer,
    j.calls = before ++ [c, ⟨.persist j.round j.course.state, .persisted answer⟩] ∧
      j.FailedBy before c f

variable {j j' : Journey}

/-- Nothing is said of the report but by the state, the stage and the calls. -/
theorem ReportStage.own {m : Moment} (h : j.ReportStage) (hm : j.move? (.own m) = some j') :
    j'.ReportStage := by
  obtain ⟨c', q', ns, hstride, rfl⟩ := move?_own.mp hm
  unfold ReportStage at h
  cases hstride with
  | publish hs | published hs | dismiss hs | dismissed hs | hire hs | hired hs =>
    rw [hs] at h
    obtain ⟨n, hasked, hproceeding⟩ := h
    exact ⟨n, ⟨hasked.round, hasked.errands, hasked.sound⟩, hproceeding⟩
  | drained hs hd =>
    rw [hs] at h
    obtain ⟨n, hasked, hproceeding⟩ := h
    exact ⟨rfl, n, ⟨hasked.round, hasked.errands, hasked.sound⟩, hproceeding⟩
  | leave hs =>
    rw [hs] at h
    rcases h with h | ⟨before, c, f, answer, hcalls, h⟩
    · exact .inl ⟨h.errands, h.sound, h.verdict, h.status, h.error⟩
    · exact .inr ⟨before, c, f, answer, hcalls, h.sound, h.failure, h.errands, h.round, h.status,
        h.error⟩

/-! ### Answers -/

variable {c : Course} {ns : List Notice} {call : Call} {n : Nat} {extra : List Errand}
  {v : Verdict}

theorem verdicts_heard : (j.heard c ns call).verdicts = j.verdicts ++ call.verdict?.toList :=
  filterMap_heard Call.verdict? j c ns call

/-- A call more was answered without a failure. -/
theorem Asked.heard {extra' : List Errand} (h : j.Asked n extra) (hrun : c.run = j.course.run)
    (hround : c.state.round = j.round) (hf : call.failure? j.course.run = none)
    (he : extra ++ [call.errand] = extra') : (j.heard c ns call).Asked n extra' := by
  refine ⟨hround.trans h.round, ?_, fun b hb => ?_⟩
  · rw [← he, ← List.append_assoc, ← h.errands]
    exact List.map_append
  · change b.failure? c.run = none
    rw [hrun]
    rcases List.mem_append.mp hb with hb | hb
    · exact h.sound b hb
    · exact List.mem_singleton.mp hb ▸ hf

/-- The round under way is judged. -/
theorem Asked.judged {r : JudgeRequest}
    (h : j.Asked n (Errand.opening (n + 1) ++ [.plan (n + 1)])) (hround : r.round = j.round)
    (hrun : c.run = j.course.run) (hr : c.state.round = j.round) :
    (j.heard c ns ⟨.judge r, .judged (.ok v)⟩).Asked n
      (Errand.opening (n + 1) ++ [.plan (n + 1), .judge (n + 1)]) := by
  refine h.heard hrun hr rfl ?_
  rw [Call.errand, CourseRequest.errand, hround, h.round, List.append_assoc]
  rfl

theorem Asked.judgedWith {r : JudgeRequest} (h : j.Asked n extra) (hround : r.round = j.round)
    (hr : c.state.round = j.round) (hproceeding : Proceeding j.verdicts n) :
    (j.heard c ns ⟨.judge r, .judged (.ok v)⟩).JudgedWith v := by
  refine ⟨j.verdicts, n, hr.trans h.round, ?_, hproceeding⟩
  rw [verdicts_heard, Call.verdict?, hround, h.round]
  rfl

/-- A verdict more that asks for another round. -/
theorem Proceeding.concat {vs : List (Nat × Verdict)} (h : Proceeding vs n)
    (hv : v.continueRun = true) : Proceeding (vs ++ [(n + 1, v)]) (n + 1) := by
  refine ⟨?_, fun x hx => ?_⟩
  · rw [List.map_append, h.rounds, List.range'_concat]
    simp [Nat.add_comm]
  · rcases List.mem_append.mp hx with hx | hx
    · exact h.proceeds x hx
    · exact List.mem_singleton.mp hx ▸ hv

theorem Proceeding.length {vs : List (Nat × Verdict)} (h : Proceeding vs n) : vs.length = n := by
  simpa using congrArg List.length h.rounds

/-- **A round that is recorded** after its verdict is asked through, without a failure. -/
theorem Asked.closed
    (h : j.Asked n (Errand.opening (n + 1) ++ [.plan (n + 1), .judge (n + 1)]))
    (hcall : call = ⟨.persist j.course.state.round j.course.state, .persisted (.ok ())⟩) :
    (j.calls ++ [call]).map Call.errand = Errand.ofRun j.round ∧
      ∀ b ∈ j.calls ++ [call], b.failure? j.course.run = none := by
  subst hcall
  have hround : j.course.state.round = n + 1 := h.round
  constructor
  · rw [List.map_append, h.errands, h.round, hround, List.append_assoc, Errand.ofRun,
      Errand.ofRound, List.append_assoc]
    rfl
  · intro b hb
    rcases List.mem_append.mp hb with hb | hb
    · exact h.sound b hb
    · obtain rfl := List.mem_singleton.mp hb
      rw [hround]
      rfl

/-- The errands of the rounds so far and the beginning of another one. -/
theorem prefix_ofRun {limit : Nat} (hle : n < limit)
    (h : extra <+: Errand.ofRound (n + 1)) : Errand.ofRun n ++ extra <+: Errand.ofRun limit := by
  refine List.IsPrefix.trans ?_ (Errand.ofRun_prefix hle)
  exact (List.prefix_append_right_inj _).mpr h

/-- **A new round** has its report. -/
theorem reportStage_beginRound {m : Moment} (hp : j.course.Paced)
    (hlt : j.round < j.course.limit) (hv : call.verdict? = none)
    (hsound : ∀ b ∈ j.calls ++ [call], b.failure? j.course.run = none)
    (herrands : (j.calls ++ [call]).map Call.errand = Errand.ofRun j.round)
    (hproceeding : Proceeding j.verdicts j.round) :
    (j.heard (j.course.beginRound m).1 ns call).ReportStage := by
  have hround : j.course.state.beginRound.round = j.round + 1 :=
    Course.round_beginRound hlt hp.2.1
  set j' := j.heard (j.course.beginRound m).1 ns call with hj'
  have hstate : j'.course.state = j.course.state.beginRound := Course.state_beginRound
  have hr : j'.round = j.round + 1 := (congrArg RunState.round hstate).trans hround
  have hrun : j'.course.run = j.course.run := by
    rw [Course.run, hstate]
    rfl
  have hverdicts : j'.verdicts = j.verdicts := by
    rw [hj', verdicts_heard, hv]
    exact List.append_nil _
  have hasked : j'.Asked j.round [] :=
    ⟨hr, by rw [List.append_nil]; exact herrands, by rw [hrun]; exact hsound⟩
  unfold ReportStage
  rcases j.course.stage_beginRound m with ⟨hle, hst⟩ | ⟨hgt, hst⟩
  · have hzero : j.round = 0 := by omega
    rw [show j'.course.stage = _ from hst]
    refine ⟨hround.trans hr.symm, j.round, ?_, hverdicts ▸ hproceeding⟩
    rw [Errand.opening, if_pos (by omega)]
    exact hasked
  · rw [show j'.course.stage = _ from hst]
    exact ⟨j.round, by omega, hasked, hverdicts ▸ hproceeding⟩

/-- **A call that fails** fails the run in the round it belongs to. -/
theorem Asked.failedBy {kind : FailureKind} {message : String} {m : Moment} (h : j.Asked n extra)
    (hf : call.failure? j.course.run = some ⟨kind, message⟩)
    (he : extra ++ [call.errand] <+: Errand.ofRound (n + 1)) (hle : j.round ≤ j.course.limit)
    (hr : call.roundAfter j.verdicts.length = j.round) :
    (j.heard (j.course.fail kind message m.now) ns call).FailedBy j.calls call
      ⟨kind, message⟩ := by
  refine ⟨h.sound, hf, ?_, hr.symm, rfl, rfl⟩
  have hlt : n < j.course.limit := by
    have := h.round
    omega
  rw [List.map_append, h.errands, List.append_assoc]
  exact prefix_ofRun hlt he

/-- **An answer that fails** has its report. -/
theorem ReportStage.refused {r : CourseRequest} {a : CourseAnswer} {kind : FailureKind}
    {message : String} {m : Moment} (h : j.ReportStage) (hp : j.course.Paced)
    (hr : j.course.Refusal r a kind message) :
    (j.heard (j.course.fail kind message m.now) ns ⟨r, a⟩).ReportStage := by
  unfold ReportStage at h
  have hpaced := hp.2.2.2
  have hle : j.round ≤ j.course.limit := hp.2.2.1
  refine ⟨j.calls, ⟨r, a⟩, ⟨kind, message⟩, rfl, ?_⟩
  -- The call belongs to the round under way, except the first, which comes before all rounds.
  cases hr with
  | mission hs =>
    rw [hs] at h hpaced
    refine ⟨by simp [h], rfl, ?_, hpaced, rfl, rfl⟩
    rw [h]
    exact Errand.ofRun_prefix (Nat.zero_le _)
  | nothing hs | memory hs =>
    rw [hs] at h
    obtain ⟨n, hpos, hasked, hproceeding⟩ := h
    refine hasked.failedBy rfl ?_ hle (by rw [hproceeding.length, hasked.round]; rfl)
    rw [Errand.ofRound, Errand.opening, if_neg (by omega)]
    exact List.prefix_append [Errand.recall] _
  | plan hs =>
    rw [hs] at h
    obtain ⟨hround, n, hasked, -⟩ := h
    refine hasked.failedBy ?_ ?_ hle hround
    · rw [Call.failure?, hround]
      rfl
    · rw [Call.errand, CourseRequest.errand, hround, hasked.round]
      exact (List.prefix_append_right_inj _).mpr (List.prefix_append [Errand.plan (n + 1)] _)
  | judge hs =>
    rw [hs] at h
    obtain ⟨hround, n, hasked, -⟩ := h
    refine hasked.failedBy ?_ ?_ hle hround
    · rw [Call.failure?, hround]
      rfl
    · rw [Call.errand, CourseRequest.errand, hround, hasked.round, List.append_assoc]
      exact (List.prefix_append_right_inj _).mpr
        (List.prefix_append [Errand.plan (n + 1), Errand.judge (n + 1)] _)
  | @round d e hs =>
    rw [hs] at h
    obtain ⟨n, hasked⟩ : ∃ n,
        j.Asked n (Errand.opening (n + 1) ++ [.plan (n + 1), .judge (n + 1)]) := by
      cases d with
      | «continue» => exact ⟨_, h.choose_spec.choose_spec.1⟩
      | complete => exact ⟨_, h.choose_spec.choose_spec.1⟩
    have hround : j.course.state.round = n + 1 := hasked.round
    refine hasked.failedBy ?_ ?_ hle rfl
    · rw [hround]
      rfl
    · rw [Call.errand, CourseRequest.errand, hround, List.append_assoc]
      exact List.prefix_rfl

/-- **Every answer** has its report. -/
theorem ReportStage.answered {a : CourseAnswer} {m : Moment} (h : j.ReportStage) (ht : j.Tidy)
    (hp : j.course.Paced) (hm : j.move? (.answered a m) = some j') : j'.ReportStage := by
  have hreport := h
  unfold ReportStage at h
  have hpaced := hp.2.2.2
  obtain ⟨r, c, ns, hreply, rfl⟩ := reply_of_move? hm
  cases hreply with
  | recorded hs =>
    rw [hs] at h hpaced
    have hround : j.round = 0 := hpaced
    refine reportStage_beginRound hp (hround ▸ hp.1) rfl ?_ ?_ ?_
    · simp [h, Call.failure?]
    · rw [h, hround]
      rfl
    · rw [hround, verdicts, h]
      exact ⟨rfl, by simp⟩
  | @recalled s hs =>
    rw [hs] at h
    obtain ⟨n, hpos, hasked, hproceeding⟩ := h
    refine ⟨rfl, n, hasked.heard rfl rfl rfl ?_, ?_⟩
    · rw [Errand.opening, if_neg (by omega)]
      rfl
    · rw [verdicts_heard]
      simpa [Call.verdict?] using hproceeding
  | @planned r tasks hs =>
    rw [hs] at h
    obtain ⟨hround, n, hasked, hproceeding⟩ := h
    refine ⟨n, hasked.heard rfl rfl rfl ?_, ?_⟩
    · rw [Call.errand, CourseRequest.errand, hround, hasked.round]
    · rw [verdicts_heard]
      simpa [Call.verdict?] using hproceeding
  | @proceeds r v hs hd =>
    rw [hs] at h
    obtain ⟨hround, n, hasked, hproceeding⟩ := h
    exact ⟨n, v, hasked.judged hround rfl rfl, hasked.judgedWith hround rfl hproceeding, hd.1⟩
  | @stops r v hs hd =>
    rw [hs] at h
    obtain ⟨hround, n, hasked, hproceeding⟩ := h
    exact ⟨n, v, hasked.judged hround rfl rfl, hasked.judgedWith hround rfl hproceeding, hd,
      rfl⟩
  | continued hs =>
    rw [hs] at h hpaced
    -- The verdict of the round that ends asked for another, like all before it.
    obtain ⟨n, v, hasked, ⟨vs, k, hk, hvs, hproceeding⟩, hv⟩ := h
    obtain ⟨herrands, hsound⟩ := hasked.closed rfl
    refine reportStage_beginRound hp hpaced.2 rfl hsound herrands ?_
    rw [hvs, hk]
    exact hproceeding.concat hv
  | completed hs =>
    rw [hs] at h
    obtain ⟨n, v, hasked, hjudged, hend, hstatus⟩ := h
    obtain ⟨herrands, hsound⟩ := hasked.closed rfl
    refine .inl ⟨herrands, hsound, ⟨v, ?_, hend⟩, hstatus, ?_⟩
    · obtain ⟨vs, k, hk, hvs, hproceeding⟩ := hjudged
      refine ⟨vs, k, hk, ?_, hproceeding⟩
      rw [verdicts_heard, hvs]
      exact List.append_nil _
    · exact ht.error_eq_none (by rw [hs]; simp [CourseStage.rank])
  | refused hr => exact hreport.refused hp hr
  | @failed answer hs =>
    -- Whatever the store answers to the state of failure, the failure stands.
    rw [hs] at h
    obtain ⟨before, b, f, hcalls, hfailed⟩ := h
    refine .inr ⟨before, b, f, answer, ?_, hfailed.sound, hfailed.failure, hfailed.errands,
      hfailed.round, hfailed.status, hfailed.error⟩
    simp [heard, advance, hcalls, round, Course.goOn]

/-! ### Whole runs -/

/-- Workers at work leave the report alone. -/
theorem ReportStage.working {p : Pool} {q : Queue Task} {d : Option Deed} (h : j.ReportStage)
    (hs : (∃ left, j.course.stage = .hiring left) ∨ j.course.stage = .draining) :
    ((j.did d).advance { j.course with pool := p } q ns).ReportStage := by
  rcases hs with ⟨left, hs⟩ | hs
  all_goals
    rw [ReportStage, hs] at h
    obtain ⟨n, hasked, hproceeding⟩ := h
    rw [ReportStage, show ((j.did d).advance { j.course with pool := p } q ns).course.stage = _
      from hs]
    exact ⟨n, ⟨hasked.round, hasked.errands, hasked.sound⟩, hproceeding⟩

/-- **Every safe move** has its report. -/
theorem ReportStage.move {m : Move} (h : j.ReportStage) (ht : j.Tidy) (hon : j.OnTrack)
    (hsafe : m.IsSafe) (hm : j.move? m = some j') : j'.ReportStage := by
  cases m with
  | own m => exact h.own hm
  | work i now =>
    obtain ⟨p, q', ns, hstep, rfl⟩ := move?_work.mp hm
    obtain ⟨w, w', hw, hg, -⟩ := (Pool.turn_of_step? hstep).worker
    exact h.working (hon.manned.working hw hg)
  | delegated i r =>
    obtain ⟨d, hd, rfl⟩ := move?_delegated.mp hm
    obtain ⟨w, a, hw, hs⟩ := Pool.delegating?_eq_some hd
    exact h.working (hon.manned.working hw (by rw [hs]; rfl))
  | lost i => exact hsafe.elim
  | answered a m => exact h.answered ht hon.paced hm

variable {run : RunId} {mission : String} {workers limit : Nat} {delegation : Delegation}
  {now : Instant} {q : Queue Task}

/-- A run at its outset leaves nothing behind and has its report. -/
theorem tidy_of_embark {j₀ : Journey} (hclear : (q.topicOf run.topic).IsClear)
    (h : embark run mission workers limit delegation now q = .ok j₀) :
    j₀.Tidy ∧ j₀.ReportStage ∧ j₀.course.run = run ∧ j₀.course.limit = limit := by
  obtain ⟨hw, -, ns, rfl⟩ := embark_eq_ok h
  refine ⟨⟨hw, ?_, hclear, rfl⟩, rfl, rfl, rfl⟩
  intro x hx
  exact (List.not_mem_nil hx).elim

/-- Wherever safe moves lead, the run has its report. -/
theorem reportStage_of_reaches (h : j.ReportStage) (ht : j.Tidy) (hon : j.OnTrack)
    (hr : j.Reaches Move.IsSafe j') : j'.ReportStage := by
  have hboth : j'.ReportStage ∧ j'.Tidy := by
    refine hon.keeps (P := fun a => a.ReportStage ∧ a.Tidy) hr (fun hon hsafe hm h => ?_) ⟨h, ht⟩
    exact ⟨h.1.move h.2 hon hsafe hm, h.2.move hon hsafe hm⟩
  exact hboth.1

/-- Each round up to the one that is judged was judged once. -/
theorem JudgedWith.rounds (h : j.JudgedWith v) :
    j.verdicts.map (·.1) = List.range' 1 j.round := by
  obtain ⟨vs, n, hround, hverdicts, hproceeding⟩ := h
  rw [hverdicts, hround, List.map_append, hproceeding.rounds, List.range'_concat]
  simp [Nat.add_comm]

/-- A round is the least one that is the last allowed or whose verdict asks for no other. -/
theorem JudgedWith.isLeast (h : j.JudgedWith v) (hle : j.round ≤ j.course.limit)
    (hend : ¬(v.continueRun = true ∧ j.round < j.course.limit)) :
    IsLeast {r | r = j.course.limit ∨ ∃ u, (r, u) ∈ j.verdicts ∧ u.continueRun = false}
      j.round := by
  obtain ⟨vs, n, hround, hverdicts, hproceeding⟩ := h
  rw [hverdicts]
  rw [hround] at hle hend ⊢
  refine ⟨?_, ?_⟩
  · cases hv : v.continueRun with
    | true => exact .inl (Nat.le_antisymm hle (Nat.le_of_not_lt fun hlt => hend ⟨hv, hlt⟩))
    | false => exact .inr ⟨v, by simp, hv⟩
  · rintro r (rfl | ⟨u, hu, hstop⟩)
    · exact hle
    · rcases List.mem_append.mp hu with hu | hu
      · rw [hproceeding.proceeds _ hu] at hstop
        cases hstop
      · exact Nat.le_of_eq (congrArg Prod.fst (List.mem_singleton.mp hu)).symm

/-- **The answers alone decide the outcome of a run.** Without workers or rounds it is
refused before anything is asked, told or done with the queue, and the workers are looked
at first. Otherwise, on a queue that does not have its topic yet, it comes to its end, and
a run that loses no worker ends as its calls tell:

- if none failed, it is complete, in the least round that is the last one allowed or whose
  verdict asks for no other, and each round up to it was judged once;
- if one failed, the first of them ended the run: it alone stands on the run as its failure,
  in the round it belongs to, and nothing was asked after it but to record just that. -/
theorem outcome (hq : q.Reachable) (habsent : q.current? run.topic = none)
    (hl : limit < 2 ^ 32) :
    (workers = 0 →
      embark run mission workers limit delegation now q = .error .noWorkers) ∧
    (0 < workers → limit = 0 →
      embark run mission workers limit delegation now q = .error .noRounds) ∧
    (0 < workers → 0 < limit →
      ∃ j₀, embark run mission workers limit delegation now q = .ok j₀ ∧ j₀.Ends ∧
        ∀ j, j₀.Reaches Move.IsSafe j → j.course.isOver = true →
          j.course.state.status.isTerminal = true ∧ j.round ≤ limit ∧
          (((∀ c ∈ j.calls, c.failure? run = none) ∧
              j.calls.map Call.errand = Errand.ofRun j.round ∧
              j.course.state.status = .completed ∧ j.course.state.error = none ∧
              j.verdicts.map (·.1) = List.range' 1 j.round ∧
              IsLeast {r | r = limit ∨ ∃ v, (r, v) ∈ j.verdicts ∧ v.continueRun = false}
                j.round) ∨
            ∃ before c f answer,
              j.calls = before ++ [c, ⟨.persist j.round j.course.state, .persisted answer⟩] ∧
              (before ++ [c]).map Call.errand <+: Errand.ofRun limit ∧
              (∀ b ∈ before, b.failure? run = none) ∧ c.failure? run = some f ∧
              j.course.state.status = .failed ∧ j.course.state.error = some f ∧
              j.round = c.roundAfter (before.filterMap Call.verdict?).length)) := by
  refine ⟨fun hw => hw ▸ embark_of_noWorkers, fun hw hl => hl ▸ embark_of_noRounds hw,
    fun hw hpos => ?_⟩
  obtain ⟨ns, hj₀⟩ := embark_of_pos run mission delegation now q hw hpos
  have hon := OnTrack.embark hq.sound hl hj₀
  refine ⟨_, hj₀, hon.ends, fun j hj hover => ?_⟩
  obtain ⟨htidy, hreport, hrun₀, hlimit₀⟩ :=
    tidy_of_embark (by rw [Queue.topicOf_of_none habsent]; exact ⟨rfl, rfl⟩) hj₀
  have hrun : j.course.run = run := hj.sameRun.runId.trans hrun₀
  have hlimit : j.course.limit = limit := hj.sameRun.limit.trans hlimit₀
  have hle : j.round ≤ limit := hlimit ▸ (hon.reaches hj).paced.2.2.1
  have hend := reportStage_of_reaches hreport htidy hon hj
  unfold ReportStage at hend
  rw [Course.isOver_iff.mp hover] at hend
  rcases hend with hend | ⟨before, c, f, answer, hcalls, hend⟩
  · obtain ⟨v, hjudged, hlast⟩ := hend.verdict
    refine ⟨by rw [hend.status]; rfl, hle, .inl ⟨hrun ▸ hend.sound, hend.errands, hend.status,
      hend.error, hjudged.rounds, ?_⟩⟩
    exact hlimit ▸ hjudged.isLeast (hlimit ▸ hle) hlast
  · exact ⟨by rw [hend.status]; rfl, hle, .inr ⟨before, c, f, answer, hcalls,
      hlimit ▸ hend.errands, hrun ▸ hend.sound, hrun ▸ hend.failure, hend.status, hend.error,
      hend.round⟩⟩

/-- The store has recorded what it was given. -/
def stored : Move := .answered (.persisted (.ok ())) default

/-- How a round with two workers goes from its plan to its verdict. -/
def crossedRound (v : Verdict) (scout guide : String) : List Move :=
  [.answered (.planned (.ok [scoutTask, guideTask])) default] ++ crossedMoves scout guide ++
    [.own default, .answered (.judged (.ok v)) default]

/-- How a run begins whose first round is not the last, until its memory has been read back. -/
def crossedRecall : List Move :=
  [stored] ++ crossedRound ⟨"once more", true⟩ "1" "2" ++
    [stored, .answered (.loaded (.ok (some default))) default]

/-- How a run of two such rounds goes. -/
def crossedRun : List Move :=
  crossedRecall ++ crossedRound (.stop "enough") "3" "4" ++ [stored, .own default]

theorem isSafe_crossedRun : ∀ m ∈ crossedRun, m.IsSafe := by
  simp [crossedRun, crossedRecall, crossedRound, crossedMoves, stored, Move.IsSafe]

/-- The second round is the last, though a third one would be allowed. -/
theorem outcome_crossed : ∃ j₀ j, embark default "" 2 3 default default .empty = .ok j₀ ∧
    j₀.Ends ∧ j₀.Reaches Move.IsSafe j ∧ j.course.isOver = true ∧
    j.course.state.status = .completed ∧ j.course.state.error = none ∧
    j.verdicts.map (·.1) = [1, 2] ∧
    IsLeast {r | r = 3 ∨ ∃ v, (r, v) ∈ j.verdicts ∧ v.continueRun = false} 2 := by
  obtain ⟨-, -, hrun⟩ : _ ∧ _ ∧ (0 < 2 → 0 < 3 → ∃ j₀,
      embark default "" 2 3 default default .empty = .ok j₀ ∧ _) :=
    outcome Relation.ReflTransGen.refl rfl (by decide)
  obtain ⟨j₀, hj₀, hends, hover⟩ := hrun Nat.two_pos (Nat.succ_pos 2)
  have hsome : ((embark default "" 2 3 default default .empty).toOption.bind
      (·.moves? crossedRun)).any (fun j => j.course.isOver &&
        j.course.state.status == .completed && j.round == 2) = true := by
    decide +kernel
  rw [hj₀, Except.toOption, Option.bind_some] at hsome
  obtain ⟨j, hj, hend⟩ := (Option.any_eq_true _ _).mp hsome
  obtain ⟨hend, hround⟩ := (Bool.and_eq_true _ _).mp hend
  obtain ⟨hend, hstatus⟩ := (Bool.and_eq_true _ _).mp hend
  have hreach := Reaches.of_moves? isSafe_crossedRun hj
  obtain ⟨-, -, hcomplete | hfail⟩ := hover j hreach hend
  · obtain ⟨-, -, -, herror, hverdicts, hleast⟩ := hcomplete
    rw [beq_iff_eq.mp hround] at hverdicts hleast
    exact ⟨j₀, j, hj₀, hends, hreach, hend, beq_iff_eq.mp hstatus, herror, hverdicts, hleast⟩
  · obtain ⟨-, -, -, -, -, -, -, -, hfailed, -⟩ := hfail
    cases hfailed.symm.trans (beq_iff_eq.mp hstatus)

end Journey

end Roundtable

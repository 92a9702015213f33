import Roundtable.Proofs.Spawn.Engagement
import Roundtable.Rehearsal.Strand

/-!
# The race against a budget, rehearsed

In a rehearsal the work of a worker and the timer of its budget are two alarms on one clock.
**Before the first of both nothing happens, and at the first of both a strand takes the
answer of an engagement** (`Roundtable.Rehearsal.stepStrand_race`): one with the scripted
worker, and with a timer that counts whole milliseconds and rounds a budget up.
-/

namespace Roundtable.Rehearsal

/-- How the work of a scripted worker with this output ends. -/
def Script.workEnd (s : Script) (output : String) : WorkEnd :=
  match s.ending with
  | .returned success error => .returned ⟨output, success, error⟩
  | .raised e => .raised e
  | .brokeOff m => .brokeOff m

theorem Script.executionEnd_workEnd (s : Script) (output : String) :
    (s.workEnd output).executionEnd = s.executionEnd output := by
  cases h : s.ending <;> simp [workEnd, executionEnd, WorkEnd.executionEnd, h]

/-- What a scripted worker with this output makes of any assignment. -/
def Script.labour (s : Script) (output : String) : Labour :=
  ⟨.ofMillis s.delay, s.workEnd output⟩

/-- The timer of a rehearsal goes off at the first whole millisecond at which a budget is
over. -/
def rings (budget : Span) : Span := .ofMillis (World.budgetMillis budget)

variable {w : World} {i : Nat} {s : Spawn} {p : Part}

/-- A worker that begins to execute has both alarms set, counted from the same time. -/
theorem alarms_of_execute (hp : w.parts[i]? = some p) :
    ∃ p', (w.execute i s).parts[i]? = some p' ∧ p'.wait.time = w.clock + p.script.delay ∧
      p'.deadline.time = w.clock + World.budgetMillis s.budget := by
  simp [World.execute, hp, World.alarm, World.changePart, Array.getElem?_modify]

/-- When its delay is over, a worker starts with the output of its script. -/
theorem startWork_at (hp : w.parts[i]? = some p) :
    (w.startWork i p s).parts[i]? =
        some { p with started := true, output := Script.fill p.script.output s } ∧
      (w.startWork i p s).grove = w.grove ∧ (w.startWork i p s).clock = w.clock := by
  unfold World.startWork
  cases p.script.removes <;> simp [World.changePart, Array.getElem?_modify, hp]

/-- **A worker whose delay is over comes to its end**, if it delegates nothing. -/
theorem stepStrand_of_due (hs : w.grove.spawn? i = some s) (hp : w.parts[i]? = some p)
    (hstage : s.stage = .executing) (hstarted : p.started = false) (herrands : p.errands = [])
    (hdue : w.isDue p.wait = true) :
    ∃ w₁ w' : World, w.stepStrand [i] = .goes [i] w₁ ∧ w'.grove = w.grove ∧
      w₁.stepStrand [i] = .goes [i]
        (w'.tell i (.ended (p.script.executionEnd (Script.fill p.script.output s)))) := by
  obtain ⟨hpart, hgrove, hclock⟩ := startWork_at (s := s) hp
  have hspawn : (w.startWork i p s).grove.spawn? i = some s := hgrove ▸ hs
  have hstill : (w.startWork i p s).isDue p.wait = true := by
    rw [World.isDue, hclock]
    exact hdue
  refine ⟨w.startWork i p s,
    (w.startWork i p s).changePart i fun p => { p with finished := true }, ?_, hgrove, ?_⟩
  · simp [World.stepStrand, hs, hp, hstage, hdue, World.proceed, World.work, hstarted]
  · simp [World.stepStrand, hspawn, hpart, hstage, hstill, World.proceed, World.work, herrands]

/-- One whose delay is not over waits, or is overtaken by its budget. -/
theorem stepStrand_of_not_due (hs : w.grove.spawn? i = some s) (hp : w.parts[i]? = some p)
    (hstage : s.stage = .executing) (hdue : w.isDue p.wait = false) :
    w.stepStrand [i] =
      if w.isDue p.deadline then .goes [i] (w.tell i (.ended .outOfTime)) else .waits := by
  have htime : w.isOutOfTime i = w.isDue p.deadline := by
    simp [World.isOutOfTime, hs, hp, hstage]
  cases hd : w.isDue p.deadline <;>
    simp [World.stepStrand, hs, hp, hstage, hdue, World.giveUp, htime, hd]

/-- **A rehearsal decides the race as an engagement does.** Before both alarms the strand
waits, and at the first of them it takes the answer of the engagement, at once or with the
step that starts the work in front. -/
theorem stepStrand_race {q : Parties} {worker : Worker} {start : Nat}
    (hs : w.grove.spawn? i = some s) (hp : w.parts[i]? = some p)
    (hstage : s.stage = .executing) (hstarted : p.started = false) (herrands : p.errands = [])
    (hwait : p.wait.time = start + p.script.delay)
    (hdeadline : p.deadline.time = start + World.budgetMillis s.budget)
    (hrings : q.rings = rings)
    (hwork : worker.work s.assignment =
      some (p.script.labour (Script.fill p.script.output s))) :
    (w.clock < min p.wait.time p.deadline.time → w.stepStrand [i] = .waits) ∧
    (w.clock = min p.wait.time p.deadline.time → ∃ w₁ w' : World,
      (w₁ = w ∨ w.stepStrand [i] = .goes [i] w₁) ∧ w'.grove = w.grove ∧
      w₁.stepStrand [i] = .goes [i]
        (w'.tell i (.ended (q.executionEnd worker s.assignment)))) := by
  have hend : q.executionEnd worker s.assignment =
      if p.wait.time ≤ p.deadline.time then
        p.script.executionEnd (Script.fill p.script.output s)
      else .outOfTime := by
    have hiff : (Span.ofMillis p.script.delay).nanoseconds ≤
        (rings s.assignment.budget).nanoseconds ↔ p.wait.time ≤ p.deadline.time := by
      simp only [rings, Span.ofMillis, Span.perMilli, Spawn.assignment]
      omega
    simp only [Parties.executionEnd, hwork, hrings, Script.labour, Script.executionEnd_workEnd,
      hiff]
  rw [hend]
  refine ⟨fun hbefore => ?_, fun hfirst => ?_⟩
  · have hdue : w.isDue p.wait = false := decide_eq_false (by omega)
    have hdead : w.isDue p.deadline = false := decide_eq_false (by omega)
    rw [stepStrand_of_not_due hs hp hstage hdue, hdead]
    rfl
  · by_cases hle : p.wait.time ≤ p.deadline.time
    · have hdue : w.isDue p.wait = true := decide_eq_true (by omega)
      obtain ⟨w₁, w', hstart, hgrove, hstep⟩ :=
        stepStrand_of_due hs hp hstage hstarted herrands hdue
      rw [if_pos hle]
      exact ⟨w₁, w', .inr hstart, hgrove, hstep⟩
    · have hdue : w.isDue p.wait = false := decide_eq_false (by omega)
      have hdead : w.isDue p.deadline = true := decide_eq_true (by omega)
      rw [if_neg hle]
      refine ⟨w, w, .inl rfl, rfl, ?_⟩
      rw [stepStrand_of_not_due hs hp hstage hdue, hdead, if_pos rfl]

end Roundtable.Rehearsal

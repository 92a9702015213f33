import Roundtable.Proofs.Course.Journey
import Roundtable.Proofs.Queue.Soundness

/-!
# The turns of a worker

A worker of a pool has seven kinds of turns, and `Roundtable.Pool.Turn` lists them: what
the worker must be about to do, what becomes of the pool and the queue, and what is done
with a delivery.
`Roundtable.Pool.turn_of_step?` says that a step is one of them; whatever a step keeps is
then seen turn by turn.

A turn replaces one worker, so a count over the workers changes by that one worker
(`Roundtable.countP_set_add`). Three counts place a delivery: the workers that hold it,
those that carry its result and have not put it down, and those that are about to
acknowledge it.
-/

namespace Roundtable

/-! ### Deliveries in a worker's hands -/

namespace PoolStage

/-- The delivery a worker holds. -/
def held? : PoolStage → Option Nat
  | delegating d _ | announcing d _ | collecting d _ | acknowledging d => some d
  | seeking | left | lost => none

/-- The delivery whose result a worker carries to the collection. -/
def carried? : PoolStage → Option Nat
  | announcing d _ | collecting d _ => some d
  | seeking | delegating .. | acknowledging _ | left | lost => none

/-- The delivery a worker is about to acknowledge. -/
def settled? : PoolStage → Option Nat
  | acknowledging d => some d
  | seeking | delegating .. | announcing .. | collecting .. | left | lost => none

end PoolStage

namespace PoolWorker

/-- The worker holds a delivery. -/
def holds (d : Nat) (w : PoolWorker) : Bool := w.stage.held? == some d

/-- The worker carries the result of a delivery. -/
def carries (d : Nat) (w : PoolWorker) : Bool := w.stage.carried? == some d

/-- The worker is about to acknowledge a delivery. -/
def settles (d : Nat) (w : PoolWorker) : Bool := w.stage.settled? == some d

/-- The worker has had its sentinel. -/
def isServed (w : PoolWorker) : Bool := w.subscription.finished

end PoolWorker

/-! ### Turns -/

namespace Pool

/-- **A turn of the worker `i`**: the pool and the queue after it, what is told, and what
is done with a delivery. -/
inductive Turn (p : Pool) (i : Nat) (q : Queue Task) (now : Instant) :
    Pool → Queue Task → List Notice → Option Deed → Prop
  /-- It takes a task. -/
  | task {w : PoolWorker} {e : Envelope Task} {t : Topic Task} {a : Task}
      (hw : p.workers[i]? = some w) (hs : w.stage = .seeking)
      (hf : w.subscription.finished = false)
      (ht : (q.topicAt w.subscription.incarnation).take = some (e, t))
      (he : e.payload = .item a) :
      Turn p i q now (p.setWorker i { w with stage := .delegating e.id a })
        (q.setTopic w.subscription.incarnation t) [] none
  /-- It takes a sentinel. -/
  | sentinel {w : PoolWorker} {e : Envelope Task} {t : Topic Task}
      (hw : p.workers[i]? = some w) (hs : w.stage = .seeking)
      (hf : w.subscription.finished = false)
      (ht : (q.topicAt w.subscription.incarnation).take = some (e, t))
      (he : e.payload = .sentinel) :
      Turn p i q now
        (p.setWorker i ⟨⟨w.subscription.incarnation, true⟩, w.sentinels + 1, .acknowledging e.id⟩)
        (q.setTopic w.subscription.incarnation t) [] none
  /-- It leaves. -/
  | leave {w : PoolWorker} (hw : p.workers[i]? = some w) (hs : w.stage = .seeking)
      (hf : w.subscription.finished = true) : Turn p i q now (p.goOn i w .left) q [] none
  /-- It tells that a task is completed. -/
  | announce {w : PoolWorker} {d : Nat} {r : TaskResult} (hw : p.workers[i]? = some w)
      (hs : w.stage = .announcing d r) :
      Turn p i q now (p.goOn i w (.collecting d r)) q [.event (p.completion r now)] none
  /-- It puts a result into the collection. -/
  | collect {w : PoolWorker} {d : Nat} {r : TaskResult} (hw : p.workers[i]? = some w)
      (hs : w.stage = .collecting d r) :
      Turn p i q now { p.goOn i w (.acknowledging d) with results := p.results ++ [r] } q []
        (some (.collected d r))
  /-- It acknowledges a delivery. -/
  | ack {w : PoolWorker} {d : Nat} {q' : Queue Task} (hw : p.workers[i]? = some w)
      (hs : w.stage = .acknowledging d) (hq : q.ack d = .ok q') :
      Turn p i q now (p.goOn i w .seeking) q' [] (some (.acked d))
  /-- Its acknowledgement is refused. -/
  | refused {w : PoolWorker} {d : Nat} {e : QueueError} (hw : p.workers[i]? = some w)
      (hs : w.stage = .acknowledging d) (hq : q.ack d = .error e) :
      Turn p i q now (p.goOn i w .seeking) q [] none

variable {p p' : Pool} {i : Nat} {q q' : Queue Task} {now : Instant} {ns : List Notice}
  {deed : Option Deed}

/-- **A step of a worker is one of its turns.** -/
theorem turn_of_step? (h : p.step? i q now = some (p', q', ns)) :
    Turn p i q now p' q' ns (p.deed? i q) := by
  unfold step? at h
  unfold deed?
  cases hw : p.workers[i]? with
  | none => simp [hw] at h
  | some w =>
    simp only [hw] at h ⊢
    cases hs : w.stage with
    | seeking =>
      simp only [hs] at h ⊢
      -- The subscription has ended, or nothing waits, or the first message is taken.
      obtain ⟨hq, hf⟩ | ⟨hq, -⟩ | ⟨e, t, hq, hf, ht⟩ := q.next_cases w.subscription
      · simp only [hq, Option.some.injEq, Prod.mk.injEq] at h
        obtain ⟨rfl, rfl, rfl⟩ := h
        exact .leave hw hs hf
      · simp [hq] at h
      · simp only [hq, Option.some.injEq, Prod.mk.injEq] at h
        obtain ⟨rfl, rfl, rfl⟩ := h
        cases he : e.payload with
        | item a =>
          have hsub : ({ w.subscription with finished := false } : Subscription)
              = w.subscription := by rw [← hf]
          simp only [taken, he, Payload.isSentinel, hsub]
          exact .task hw hs hf ht he
        | sentinel =>
          simp only [taken, he, Payload.isSentinel]
          exact .sentinel hw hs hf ht he
    | announcing d r =>
      simp only [hs, Option.some.injEq, Prod.mk.injEq] at h ⊢
      obtain ⟨rfl, rfl, rfl⟩ := h
      exact .announce hw hs
    | collecting d r =>
      simp only [hs, Option.some.injEq, Prod.mk.injEq] at h ⊢
      obtain ⟨rfl, rfl, rfl⟩ := h
      exact .collect hw hs
    | acknowledging d =>
      cases hq : q.ack d with
      | ok r =>
        simp only [hs, hq, Option.some.injEq, Prod.mk.injEq] at h ⊢
        obtain ⟨rfl, rfl, rfl⟩ := h
        exact .ack hw hs hq
      | error e =>
        simp only [hs, hq, Option.some.injEq, Prod.mk.injEq] at h ⊢
        obtain ⟨rfl, rfl, rfl⟩ := h
        exact .refused hw hs hq
    | delegating d t => simp [hs] at h
    | left => simp [hs] at h
    | lost => simp [hs] at h

/-- A turn is one of a worker that is not gone, and replaces it. -/
theorem Turn.worker (h : Turn p i q now p' q' ns deed) :
    ∃ w w', p.workers[i]? = some w ∧ w.stage.isGone = false ∧ p'.workers = p.workers.set i w' := by
  cases h with
  | task hw hs | sentinel hw hs | leave hw hs | announce hw hs | collect hw hs | ack hw hs
  | refused hw hs => exact ⟨_, _, hw, by rw [hs]; rfl, rfl⟩

/-- **A worker is never without a step** unless it is gone, waits for a delegation, or
seeks a message where none waits. -/
theorem exists_step? {w : PoolWorker} (hw : p.workers[i]? = some w)
    (hg : w.stage.isGone = false) (hd : p.delegating? i = none)
    (hready : w.isServed = false → (q.topicAt w.subscription.incarnation).ready ≠ [])
    (now : Instant) : ∃ p' q' ns, p.step? i q now = some (p', q', ns) := by
  unfold step?
  unfold delegating? at hd
  cases hs : w.stage with
  | seeking =>
    obtain ⟨hq, -⟩ | ⟨hq, hf, hnil⟩ | ⟨e, t, hq, -, -⟩ := q.next_cases w.subscription
    · simp [hw, hs, hq]
    · exact absurd hnil (hready hf)
    · simp [hw, hs, hq]
  | delegating d t => simp [hw, hs] at hd
  | announcing d r | collecting d r => simp [hw, hs]
  | acknowledging d => cases hq : q.ack d <;> simp [hw, hs, hq]
  | left | lost => simp [hs, PoolStage.isGone] at hg

/-- A turn keeps the queue sound. -/
theorem Turn.sound (h : Turn p i q now p' q' ns deed) (hq : q.Sound) : q'.Sound := by
  cases h with
  | task _ _ _ ht _ => exact hq.setTopic (Queue.lt_length_of_take ht) (Topic.ids_take ht)
  | sentinel _ _ _ ht _ => exact hq.setTopic (Queue.lt_length_of_take ht) (Topic.ids_take ht)
  | ack _ _ ha => exact hq.ack ha
  | leave | announce | collect | refused => exact hq

/-- **A turn adds what it collects** to the collection, and nothing else. -/
theorem Turn.results (h : Turn p i q now p' q' ns deed) :
    p'.results = p.results ++ deed.toList.filterMap Deed.result? := by
  cases h with
  | collect hw hs => rfl
  | task | sentinel | leave | announce | ack | refused => exact (List.append_nil _).symm

/-- A turn leaves the names of the topics alone. -/
theorem Turn.names (h : Turn p i q now p' q' ns deed) : q'.names = q.names := by
  cases h with
  | ack _ _ ha =>
    obtain ⟨j, e, -, -, rfl⟩ := Queue.ack_eq_ok_iff.mp ha
    rfl
  | task | sentinel | leave | announce | collect | refused => rfl

theorem Turn.current? (h : Turn p i q now p' q' ns deed) (topic : String) :
    q'.current? topic = q.current? topic := by
  rw [Queue.current?, h.names, Queue.current?]

/-- A worker waits for a delegation exactly where it is delegating. -/
theorem delegating?_eq_some {d : Nat} (h : p.delegating? i = some d) :
    ∃ w t, p.workers[i]? = some w ∧ w.stage = .delegating d t := by
  unfold delegating? at h
  cases hw : p.workers[i]? with
  | none => simp [hw] at h
  | some w =>
    cases hs : w.stage <;> simp [hw, hs] at h
    exact ⟨w, _, rfl, h ▸ hs⟩

/-- What the result of a delegation does to a pool. -/
theorem delegated_eq {w : PoolWorker} {d : Nat} {t : Task} (hw : p.workers[i]? = some w)
    (hs : w.stage = .delegating d t) (r : SubAgentResult) :
    p.delegated i r = p.goOn i w (.announcing d (.ofSubAgent t.id r)) := by
  simp [delegated, hw, hs]

theorem lose_eq {w : PoolWorker} (hw : p.workers[i]? = some w) :
    p.lose i = p.goOn i w .lost := by
  simp [lose, hw]

end Pool

end Roundtable

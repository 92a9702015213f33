import Roundtable.Proofs.Pool.Turn
import Roundtable.Proofs.Queue.Neighbours
import Roundtable.Proofs.Queue.Renaming

/-!
# Pools that differ in numbers

Two pools whose workers hold the same messages under different numbers are alike in all
that is told and collected. **Where one of them makes a turn, the other makes the same**
(`Roundtable.Pool.Alike.turn`), as long as the topics they work on hold the same
messages under these numbers and a worker holds nothing but what is in flight there.
-/

namespace Roundtable

variable {f g : Nat → Nat} {n : Nat}

namespace PoolStage

/-- The stage with its delivery under another number. -/
def rename (f : Nat → Nat) : PoolStage → PoolStage
  | seeking => seeking
  | delegating d t => delegating (f d) t
  | announcing d r => announcing (f d) r
  | collecting d r => collecting (f d) r
  | acknowledging d => acknowledging (f d)
  | left => left
  | lost => lost

@[simp] theorem isGone_rename (s : PoolStage) : (s.rename f).isGone = s.isGone := by
  cases s <;> rfl

@[simp] theorem isLost_rename (s : PoolStage) : (s.rename f).isLost = s.isLost := by
  cases s <;> rfl

variable {s : PoolStage} {d : Nat} {r : TaskResult}

theorem rename_eq_seeking (h : s.rename f = .seeking) : s = .seeking := by
  cases s <;> simp [rename] at h ⊢

theorem rename_eq_announcing (h : s.rename f = .announcing d r) :
    ∃ d₁, s = .announcing d₁ r ∧ d = f d₁ := by
  cases s <;> simp [rename] at h
  exact ⟨_, by rw [h.2], h.1.symm⟩

theorem rename_eq_collecting (h : s.rename f = .collecting d r) :
    ∃ d₁, s = .collecting d₁ r ∧ d = f d₁ := by
  cases s <;> simp [rename] at h
  exact ⟨_, by rw [h.2], h.1.symm⟩

theorem rename_eq_acknowledging (h : s.rename f = .acknowledging d) :
    ∃ d₁, s = .acknowledging d₁ ∧ d = f d₁ := by
  cases s <;> simp [rename] at h
  exact ⟨_, rfl, h.symm⟩

theorem held?_rename (s : PoolStage) : (s.rename f).held? = s.held?.map f := by
  cases s <;> rfl

end PoolStage

/-- The worker with its delivery under another number, and its subscription at the
incarnation `n`. -/
def PoolWorker.rename (f : Nat → Nat) (n : Nat) (w : PoolWorker) : PoolWorker :=
  ⟨⟨n, w.subscription.finished⟩, w.sentinels, w.stage.rename f⟩

namespace Pool

variable {p : Pool} {i : Nat}

/-- The pool with all deliveries under other numbers. -/
def rename (f : Nat → Nat) (n : Nat) (p : Pool) : Pool :=
  { p with workers := p.workers.map (PoolWorker.rename f n) }

/-- A pool without workers holds nothing that could be renumbered. -/
theorem rename_of_nil (h : p.workers = []) : p.rename f n = p := by
  cases p
  simp only at h
  simp [rename, h]

@[simp] theorem isDrained_rename : (p.rename f n).isDrained = p.isDrained := by
  simp [isDrained, rename, List.all_map, Function.comp_def, PoolWorker.rename]

@[simp] theorem report_rename : (p.rename f n).report = p.report := by
  simp [report, rename, List.filter_map, Function.comp_def, PoolWorker.rename]

theorem getElem?_rename : (p.rename f n).workers[i]? = p.workers[i]?.map (.rename f n) := by
  simp [rename]

theorem goOn_rename (w : PoolWorker) (stage : PoolStage) :
    (p.goOn i w stage).rename f n = (p.rename f n).goOn i (w.rename f n) (stage.rename f) := by
  simp [goOn, setWorker, rename, List.map_set, PoolWorker.rename]

theorem delegating?_rename : (p.rename f n).delegating? i = (p.delegating? i).map f := by
  unfold delegating?
  rw [getElem?_rename]
  cases p.workers[i]? with
  | none => rfl
  | some w => cases hs : w.stage <;> simp [PoolWorker.rename, PoolStage.rename, hs]

theorem delegated_rename (r : SubAgentResult) :
    (p.rename f n).delegated i r = (p.delegated i r).rename f n := by
  unfold delegated
  rw [getElem?_rename]
  cases p.workers[i]? with
  | none => rfl
  | some w =>
    cases hs : w.stage <;>
      simp [PoolWorker.rename, PoolStage.rename, hs, goOn, setWorker, rename, List.map_set]

theorem lose_rename : (p.rename f n).lose i = (p.lose i).rename f n := by
  unfold lose
  rw [getElem?_rename]
  cases p.workers[i]? with
  | none => rfl
  | some w => simp [goOn_rename, PoolStage.rename]

/-! ### Turns -/

variable {p' : Pool} {q q' q₁ : Queue Task} {now : Instant} {ns : List Notice}
  {deed : Option Deed} {topic : String}

/-- **A turn is a step of the worker.** -/
theorem Turn.step?_eq (h : p.Turn i q now p' q' ns deed) :
    p.step? i q now = some (p', q', ns) := by
  unfold step?
  cases h with
  | @task w e t a hw hs hf ht he =>
    have hsub : ({ w.subscription with finished := false } : Subscription) = w.subscription := by
      rw [← hf]
    simp [hw, hs, Queue.next, hf, ht, taken, he, Payload.isSentinel, hsub]
  | sentinel hw hs hf ht he =>
    simp [hw, hs, Queue.next, hf, ht, taken, he, Payload.isSentinel]
  | leave hw hs hf => simp [hw, hs, Queue.next, hf]
  | announce hw hs => simp [hw, hs]
  | collect hw hs => simp [hw, hs]
  | ack hw hs hq => simp [hw, hs, hq]
  | refused hw hs hq => simp [hw, hs, hq]

/-- **The pool `p` works on one queue as it would on another**: its workers are subscribed to
the topic of the name, which holds the same messages there under other numbers, and they hold
what is in flight. -/
structure Alike (p : Pool) (f : Nat → Nat) (n : Nat) (q q₁ : Queue Task) (topic : String) :
    Prop where
  sound : q.Sound
  sound₁ : q₁.Sound
  current : q.current? topic = some n
  incarnation : ∀ w ∈ p.workers, q₁.current? topic = some w.subscription.incarnation
  messages : q.topicOf topic = (q₁.topicOf topic).rename f
  held : ∀ w ∈ p.workers, ∀ d, w.stage.held? = some d →
    d ∈ (q₁.topicOf topic).inFlight.map (·.id)

namespace Alike

variable {w : PoolWorker} {e : Envelope Task} {t : Topic Task} {d : Nat}

/-- **The same message is taken.** -/
theorem take (h : p.Alike f n q q₁ topic) (hw : w ∈ p.workers)
    (ht : (q.topicAt n).take = some (e, t)) :
    ∃ e₁ t₁, (q₁.topicAt w.subscription.incarnation).take = some (e₁, t₁) ∧ e = e₁.rename f ∧
      (q.setTopic n t).topicOf topic =
        ((q₁.setTopic w.subscription.incarnation t₁).topicOf topic).rename f := by
  have hn₁ := h.incarnation w hw
  rw [← Queue.topicOf_of_some h.current, h.messages, Queue.topicOf_of_some hn₁] at ht
  obtain ⟨e₁, t₁, ht₁, rfl, rfl⟩ := Topic.take_rename_eq_some ht
  refine ⟨e₁, t₁, ht₁, rfl, ?_⟩
  rw [Queue.topicOf_setTopic_self h.sound h.current, Queue.topicOf_setTopic_self h.sound₁ hn₁]

/-- **What a worker holds is acknowledged on both queues.** -/
theorem ack (h : p.Alike f n q q₁ topic) (hw : w ∈ p.workers) (hd : w.stage.held? = some d) :
    ∃ q' q₁', q.ack (f d) = .ok q' ∧ q₁.ack d = .ok q₁' ∧
      q'.topicOf topic = (q₁'.topicOf topic).rename f := by
  have hd₁ := h.held w hw d hd
  have hd : f d ∈ (q.topicOf topic).inFlight.map (·.id) := by
    rw [h.messages, Topic.inFlight_rename]
    exact List.mem_map_of_mem hd₁
  obtain ⟨q', hok, -, hafter⟩ := Queue.exists_ack h.sound hd
  obtain ⟨q₁', hok₁, -, hafter₁⟩ := Queue.exists_ack h.sound₁ hd₁
  have hids : ((q₁.topicOf topic).rename f).ids.Nodup := by
    rw [← h.messages, Queue.topicOf_of_some h.current]
    exact Queue.nodup_ids_topicAt h.sound.ids n
  exact ⟨q', q₁', hok, hok₁, by rw [hafter, hafter₁, h.messages, Topic.rename_ack hids hd₁]⟩

/-- What a worker holds is in flight. -/
theorem held_rename (h : p.Alike f n q q₁ topic) (hw : w ∈ (p.rename f n).workers)
    (hd : w.stage.held? = some d) : d ∈ (q.topicOf topic).inFlight.map (·.id) := by
  obtain ⟨w₁, hw₁, rfl⟩ := List.mem_map.mp hw
  rw [PoolWorker.rename, PoolStage.held?_rename, Option.map_eq_some_iff] at hd
  obtain ⟨d₁, hd₁, rfl⟩ := hd
  rw [h.messages, Topic.inFlight_rename]
  exact List.mem_map_of_mem (h.held w₁ hw₁ d₁ hd₁)

/-- **A turn spares all other names.** -/
theorem spares {other : String} (h : p.Alike f n q q₁ topic) (hne : other ≠ topic)
    (ht : (p.rename f n).Turn i q now p' q' ns deed) : q.Spares q' other := by
  have hincarnation {w : PoolWorker} (hw : (p.rename f n).workers[i]? = some w) :
      q.current? topic = some w.subscription.incarnation := by
    obtain ⟨w₁, -, rfl⟩ := List.mem_map.mp (List.mem_of_getElem? hw)
    exact h.current
  cases ht with
  | task hw | sentinel hw => exact Queue.spares_setTopic h.sound (hincarnation hw) hne _
  | ack hw hs ha =>
    have hd := h.held_rename (List.mem_of_getElem? hw) (by rw [hs]; rfl)
    rw [Queue.topicOf_of_some h.current] at hd
    have hmem := List.mem_append_right (((q.topicAt n).ready).map (·.id)) hd
    rw [← List.map_append] at hmem
    exact Queue.spares_ack h.sound h.current hmem ha hne
  | leave | announce | collect | refused => exact .refl q other

/-- **The same turn is made on the other queue.** -/
theorem turn (h : p.Alike f n q q₁ topic) (ht : (p.rename f n).Turn i q now p' q' ns deed) :
    ∃ p₁ q₁' deed₁, p.Turn i q₁ now p₁ q₁' ns deed₁ ∧ p' = p₁.rename f n ∧
      q'.topicOf topic = (q₁'.topicOf topic).rename f := by
  -- The worker that makes the turn is one of the other pool under its other number.
  have hworker {w : PoolWorker} (hw : (p.rename f n).workers[i]? = some w) :
      ∃ w₁, p.workers[i]? = some w₁ ∧ w = w₁.rename f n := by
    rw [getElem?_rename, Option.map_eq_some_iff] at hw
    obtain ⟨w₁, hw₁, rfl⟩ := hw
    exact ⟨w₁, hw₁, rfl⟩
  cases ht with
  | task hw hs hf ht he =>
    obtain ⟨w₁, hw₁, rfl⟩ := hworker hw
    obtain ⟨e₁, t₁, ht₁, rfl, hafter⟩ := h.take (List.mem_of_getElem? hw₁) ht
    refine ⟨_, _, _, .task hw₁ (PoolStage.rename_eq_seeking hs) hf ht₁ he, ?_, hafter⟩
    simp [setWorker, rename, List.map_set, PoolWorker.rename, PoolStage.rename, Envelope.rename]
  | sentinel hw hs hf ht he =>
    obtain ⟨w₁, hw₁, rfl⟩ := hworker hw
    obtain ⟨e₁, t₁, ht₁, rfl, hafter⟩ := h.take (List.mem_of_getElem? hw₁) ht
    refine ⟨_, _, _, .sentinel hw₁ (PoolStage.rename_eq_seeking hs) hf ht₁ he, ?_, hafter⟩
    simp [setWorker, rename, List.map_set, PoolWorker.rename, PoolStage.rename, Envelope.rename]
  | leave hw hs hf =>
    obtain ⟨w₁, hw₁, rfl⟩ := hworker hw
    exact ⟨_, _, _, .leave hw₁ (PoolStage.rename_eq_seeking hs) hf, (goOn_rename w₁ .left).symm,
      h.messages⟩
  | @announce _ d r hw hs =>
    obtain ⟨w₁, hw₁, rfl⟩ := hworker hw
    obtain ⟨d₁, hs₁, rfl⟩ := PoolStage.rename_eq_announcing hs
    exact ⟨_, _, _, .announce hw₁ hs₁, (goOn_rename w₁ (.collecting d₁ r)).symm, h.messages⟩
  | collect hw hs =>
    obtain ⟨w₁, hw₁, rfl⟩ := hworker hw
    obtain ⟨d₁, hs₁, rfl⟩ := PoolStage.rename_eq_collecting hs
    refine ⟨_, _, _, .collect hw₁ hs₁, ?_, h.messages⟩
    simp [goOn, setWorker, rename, List.map_set, PoolWorker.rename, PoolStage.rename]
  | ack hw hs ha =>
    obtain ⟨w₁, hw₁, rfl⟩ := hworker hw
    obtain ⟨d₁, hs₁, rfl⟩ := PoolStage.rename_eq_acknowledging hs
    obtain ⟨q'', q₁', hok, hok₁, hafter⟩ :=
      h.ack (List.mem_of_getElem? hw₁) (d := d₁) (by rw [hs₁]; rfl)
    obtain rfl := Except.ok.inj (ha.symm.trans hok)
    exact ⟨_, _, _, .ack hw₁ hs₁ hok₁, (goOn_rename w₁ .seeking).symm, hafter⟩
  | refused hw hs ha =>
    obtain ⟨w₁, hw₁, rfl⟩ := hworker hw
    obtain ⟨d₁, hs₁, rfl⟩ := PoolStage.rename_eq_acknowledging hs
    obtain ⟨q'', q₁', hok, -, -⟩ :=
      h.ack (List.mem_of_getElem? hw₁) (d := d₁) (by rw [hs₁]; rfl)
    rw [hok] at ha
    cases ha

end Alike

end Pool

end Roundtable

import Mathlib.Data.List.Induction
import Roundtable.Proofs.Queue.Eras

/-!
# A queue and those who call on it

Callers publish to a queue, subscribe to its topics, take messages, acknowledge and refuse
them, look at statistics and take topics away, in any order
(`Roundtable.Queue.Exchange.run`). A call that is answered with nothing or with a refusal
changes nothing; every other one is a dealing, and the dealings make up the log.

The one theorem here is `Roundtable.Queue.Exchange.told`: **each incarnation is the topic to
which the acts of its era lead**, also when the name was taken away long ago and only old
subscriptions still take from it. It rests on a look at each kind of dealing
(`Roundtable.Queue.Exchange.Told.deal`). A subscription takes from the incarnation of the era
in which it was made, and an acknowledgement or refusal that is taken concerns the incarnation
of the era in which its id was published, because the index lists no other.
-/

namespace Roundtable

namespace Queue

variable {α : Type}

/-! ### Calls and replies -/

/-- A call on a queue. Subscriptions are told by numbers, in the order in which they were
made. -/
inductive Call (α : Type)
  | publish (topic : String) (value : α)
  | publishSentinel (topic : String)
  | subscribe (topic : String)
  /-- One attempt to take a message; who waits for one calls again. -/
  | next (sub : Nat)
  | ack (id : Nat)
  | nack (id : Nat) (requeue : Bool)
  | stats (topic : String)
  | remove (topic : String)
deriving DecidableEq, Repr

/-- What a call is answered. -/
inductive Reply (α : Type)
  | published (id : Nat)
  | subscribed (sub : Nat)
  | attempt (a : Attempt α)
  /-- The acknowledgement or refusal is taken. -/
  | settled
  | refused (e : QueueError)
  | stats (s : Option TopicStats)
  /-- There is no such subscription. -/
  | stranger
deriving Repr

/-- A queue and all subscriptions that were made on it. -/
structure Exchange (α : Type) where
  queue : Queue α
  subscriptions : List Subscription
deriving Repr

/-- What was done by a call that got a reply. -/
def Dealing.of? : Call α → Reply α → Option (Dealing α)
  | .publish topic v, .published d => some (.act (.pushed ⟨topic, .item v, d, 1⟩))
  | .publishSentinel topic, .published d => some (.act (.pushed ⟨topic, .sentinel, d, 1⟩))
  | .subscribe topic, .subscribed n => some (.subscribed topic n)
  | .next n, .attempt (.message e) => some (.act (.taken n e))
  | .ack d, .settled => some (.act (.acked d))
  | .nack d true, .settled => some (.act (.requeued d))
  | .nack d false, .settled => some (.act (.discarded d))
  | .remove topic, .stats (some _) => some (.removed topic)
  | _, _ => none

namespace Exchange

/-- An empty queue without subscriptions. -/
def empty : Exchange α := ⟨.empty, []⟩

/-- **Answers a call.** -/
def call (x : Exchange α) : Call α → Reply α × Exchange α
  | .publish topic v =>
    let (d, q) := x.queue.publish topic v
    (.published d, { x with queue := q })
  | .publishSentinel topic =>
    let (d, q) := x.queue.publishSentinel topic
    (.published d, { x with queue := q })
  | .subscribe topic =>
    let (s, q) := x.queue.subscribe topic
    (.subscribed x.subscriptions.length, ⟨q, x.subscriptions ++ [s]⟩)
  | .next n =>
    match x.subscriptions[n]? with
    | none => (.stranger, x)
    | some s =>
      let (a, s, q) := x.queue.next s
      (.attempt a, ⟨q, x.subscriptions.set n s⟩)
  | .ack d =>
    match x.queue.ack d with
    | .ok q => (.settled, { x with queue := q })
    | .error e => (.refused e, x)
  | .nack d requeue =>
    match x.queue.nack d requeue with
    | .ok q => (.settled, { x with queue := q })
    | .error e => (.refused e, x)
  | .stats topic => (.stats (x.queue.stats? topic), x)
  | .remove topic =>
    let (s, q) := x.queue.remove topic
    (.stats s, { x with queue := q })

/-- Answers a call and notes what was done. -/
def serve (p : Exchange α × List (Dealing α)) (c : Call α) : Exchange α × List (Dealing α) :=
  ((p.1.call c).2, (Dealing.of? c (p.1.call c).1).toList ++ p.2)

/-- **The exchange after some calls, and the log of what was done.** -/
def run (calls : List (Call α)) : Exchange α × List (Dealing α) :=
  calls.foldl serve (empty, [])

end Exchange

/-! ### What a call can do -/

namespace Exchange

/-- **What was done, and to which exchange it leads.** -/
inductive Deals : Exchange α → Dealing α → Exchange α → Prop
  | publish (x : Exchange α) (topic : String) (p : Payload α) :
      Deals x (.act (.pushed ⟨topic, p, x.queue.nextId, 1⟩))
        { x with queue := (x.queue.enqueue topic p).2 }
  | subscribe (x : Exchange α) (topic : String) :
      Deals x (.subscribed topic x.subscriptions.length)
        ⟨(x.queue.subscribe topic).2, x.subscriptions ++ [(x.queue.subscribe topic).1]⟩
  | receive {x : Exchange α} {n : Nat} {s : Subscription} {e : Envelope α} {t : Topic α}
      (hs : x.subscriptions[n]? = some s) (hf : s.finished = false)
      (ht : (x.queue.topicAt s.incarnation).take = some (e, t)) :
      Deals x (.act (.taken n e)) ⟨x.queue.setTopic s.incarnation t,
        x.subscriptions.set n { s with finished := e.payload.isSentinel }⟩
  | ack {x : Exchange α} {d : Nat} {q : Queue α} (h : x.queue.ack d = .ok q) :
      Deals x (.act (.acked d)) { x with queue := q }
  | requeue {x : Exchange α} {d : Nat} {q : Queue α} (h : x.queue.nack d true = .ok q) :
      Deals x (.act (.requeued d)) { x with queue := q }
  | discard {x : Exchange α} {d : Nat} {q : Queue α} (h : x.queue.nack d false = .ok q) :
      Deals x (.act (.discarded d)) { x with queue := q }
  | remove {x : Exchange α} {topic : String} {i : Nat} (h : x.queue.current? topic = some i) :
      Deals x (.removed topic) { x with queue := (x.queue.remove topic).2 }

variable {x y : Exchange α} {log : List (Dealing α)} {d : Dealing α}

/-- **A call is a dealing, or it changes nothing.** -/
theorem call_cases (x : Exchange α) (c : Call α) :
    Dealing.of? c (x.call c).1 = none ∧ (x.call c).2 = x ∨
    ∃ d, Dealing.of? c (x.call c).1 = some d ∧ Deals x d (x.call c).2 := by
  cases c with
  | publish topic v =>
    refine .inr ⟨_, ?_, .publish x topic (.item v)⟩
    simp [call, Queue.publish, enqueue_eq, Dealing.of?]
  | publishSentinel topic =>
    refine .inr ⟨_, ?_, .publish x topic .sentinel⟩
    simp [call, Queue.publishSentinel, enqueue_eq, Dealing.of?]
  | subscribe topic => exact .inr ⟨_, rfl, .subscribe x topic⟩
  | next n =>
    cases hs : x.subscriptions[n]? with
    | none => exact .inl (by simp [call, hs, Dealing.of?])
    | some s =>
      have hsame : x.subscriptions.set n s = x.subscriptions := by
        obtain ⟨hn, rfl⟩ := List.getElem?_eq_some_iff.mp hs
        exact List.set_getElem_self hn
      obtain ⟨hq, -⟩ | ⟨hq, -⟩ | ⟨e, t, hq, hf, ht⟩ := next_cases x.queue s
      · exact .inl (by simp [call, hs, hq, Dealing.of?, hsame])
      · exact .inl (by simp [call, hs, hq, Dealing.of?, hsame])
      · refine .inr ⟨.act (.taken n e), by simp [call, hs, hq, Dealing.of?], ?_⟩
        simpa [call, hs, hq] using Deals.receive hs hf ht
  | ack d =>
    cases h : x.queue.ack d with
    | error e => exact .inl (by simp [call, h, Dealing.of?])
    | ok q =>
      refine .inr ⟨.act (.acked d), by simp [call, h, Dealing.of?], ?_⟩
      simpa [call, h] using Deals.ack h
  | nack d requeue =>
    cases h : x.queue.nack d requeue with
    | error e => exact .inl (by simp [call, h, Dealing.of?])
    | ok q =>
      cases requeue with
      | true =>
        refine .inr ⟨.act (.requeued d), by simp [call, h, Dealing.of?], ?_⟩
        simpa [call, h] using Deals.requeue h
      | false =>
        refine .inr ⟨.act (.discarded d), by simp [call, h, Dealing.of?], ?_⟩
        simpa [call, h] using Deals.discard h
  | stats topic => exact .inl ⟨rfl, rfl⟩
  | remove topic =>
    cases h : x.queue.current? topic with
    | none => exact .inl (by simp [call, Queue.remove, h, Dealing.of?])
    | some i =>
      refine .inr ⟨.removed topic, by simp [call, Queue.remove, h, Dealing.of?], ?_⟩
      simpa [call] using Deals.remove h

theorem run_concat (calls : List (Call α)) (c : Call α) :
    run (calls ++ [c]) = serve (run calls) c := by
  rw [run, List.foldl_append, List.foldl_cons, List.foldl_nil, ← run]

/-- **What holds at first and is kept by every dealing holds after all calls.** -/
theorem run_induction {P : Exchange α → List (Dealing α) → Prop} (hempty : P empty [])
    (hdeal : ∀ {x y log d}, P x log → Deals x d y → P y (d :: log)) (calls : List (Call α)) :
    P (run calls).1 (run calls).2 := by
  induction calls using List.reverseRecOn with
  | nil => exact hempty
  | append_singleton calls c ih =>
    rw [run_concat, serve]
    obtain ⟨hnone, hsame⟩ | ⟨d, hsome, hd⟩ := (run calls).1.call_cases c
    · rwa [hnone, hsame]
    · rw [hsome]
      exact hdeal ih hd

/-- A dealing is a step of the queue. -/
theorem Deals.step (h : Deals x d y) : Queue.Step x.queue y.queue := by
  cases h with
  | publish topic p => exact .enqueue _ topic p
  | subscribe topic => exact .subscribe _ topic
  | @receive n s e t hs hf ht =>
    have hq : (x.queue.next s).2.2 = x.queue.setTopic s.incarnation t := by
      simp [Queue.next, hf, ht]
    exact hq ▸ .next _ s
  | ack h => exact .ack h
  | requeue h | discard h => exact .nack h
  | remove => exact .remove _ _

end Exchange

/-! ### Every incarnation lives its era -/

/-- **The log tells the exchange**: the ids given out are the first ones, every subscription
is one to the incarnation of an era, every incarnation has come about by the acts of its era,
and no act belongs to none. -/
structure Exchange.Told (x : Exchange α) (log : List (Dealing α)) : Prop where
  sound : x.queue.Sound
  placed : Placed x.queue log
  issued : issued log = List.range' 1 (issued log).length
  nextId : x.queue.nextId = (Queue.issued log).length + 1
  home : ∀ n s, x.subscriptions[n]? = some s →
    ∃ era, (eras log)[s.incarnation]? = some era ∧ homeOf? n log = some era
  lives : ∀ i era, (eras log)[i]? = some era → Topic.Lives (actsIn era log) (x.queue.topicAt i)
  covered : ∀ a, .act a ∈ log → ∃ era ∈ eras log, a ∈ actsIn era log

/-- **An act moves the topic of its era** and no other. -/
theorem lives_setTopic {q : Queue α} {log : List (Dealing α)} {a : Topic.Act α} {era : Era}
    {t : Topic α} {i : Nat} (hn : (eras (.act a :: log)).Nodup)
    (h : ∀ j x, (eras (.act a :: log))[j]? = some x → Topic.Lives (actsIn x log) (q.topicAt j))
    (hi : (eras (.act a :: log))[i]? = some era) (hlt : i < q.topics.length)
    (ha : eraFor log a = some era) (ht : Topic.Lives (a :: actsIn era log) t) :
    ∀ j x, (eras (.act a :: log))[j]? = some x →
      Topic.Lives (actsIn x (.act a :: log)) ((q.setTopic i t).topicAt j) := by
  intro j x hj
  rcases eq_or_ne j i with rfl | hne
  · obtain rfl : era = x := Option.some.inj (hi.symm.trans hj)
    rw [actsIn_act_self ha, topicAt_setTopic_self hlt]
    exact ht
  · have hera : eraFor log a ≠ some x := fun hx => by
      obtain rfl : era = x := Option.some.inj (ha.symm.trans hx)
      exact hne ((List.getElem?_inj (List.getElem?_eq_some_iff.mp hj).1 hn).mp (hj.trans hi.symm))
    rw [actsIn_act_ne hera, topicAt_setTopic_ne hne]
    exact h j x hj

namespace Exchange

variable {x y : Exchange α} {log : List (Dealing α)} {d : Dealing α}

theorem Told.empty : Told (empty : Exchange α) [] where
  sound := Sound.empty
  placed := Placed.empty
  issued := rfl
  nextId := rfl
  home := by simp [Exchange.empty]
  lives := by simp [eras]
  covered := by simp

/-- An id that a topic holds was published in the era of the topic. -/
theorem Told.birthOf?_eq (h : x.Told log) {i id : Nat} {era : Era}
    (hi : (eras log)[i]? = some era) (hid : id ∈ (x.queue.topicAt i).ids) :
    birthOf? id log = some era := by
  refine birthOf?_of_published ?_ ((h.lives i era hi).mem_published_of_mem_ids hid)
  rw [h.issued]
  exact List.nodup_range'

/-- What can be acknowledged stands in the topic of the era it was published in. -/
theorem Told.exists_of_owner? (h : x.Told log) {i id : Nat} (ho : x.queue.owner? id = some i) :
    ∃ era, (eras log)[i]? = some era ∧ birthOf? id log = some era := by
  obtain ⟨topic, -, hname, hid⟩ := h.sound.exists_of_owner? ho
  have hi := (h.placed.current topic i).mp (h.sound.current?_eq_some_iff.mpr hname)
  exact ⟨_, hi, h.birthOf?_eq hi hid⟩

/-- Behind a name that is entered, a new incarnation has lived through nothing. -/
theorem Told.lives_enter (h : x.Told log) {topic : String} (hd : d.entered? = some topic) :
    ∀ j era, (eras (d :: log))[j]? = some era →
      Topic.Lives (actsIn era log) ((x.queue.enter topic).2.topicAt j) := by
  intro j era hj
  rw [topicAt_enter]
  by_cases hmem : eraOf topic log ∈ eras log
  · exact h.lives j era (eras_of_mem hd hmem ▸ hj)
  · rw [eras_of_not_mem hd hmem, getElem?_concat_eq_some_iff] at hj
    rcases hj with hj | ⟨rfl, rfl⟩
    · exact h.lives j era hj
    · rw [actsIn_eq_nil hmem, topicAt_of_length_le (Nat.le_of_eq h.placed.length)]
      exact .born

/-- The next id is new. -/
theorem Told.nextId_not_mem (h : x.Told log) : x.queue.nextId ∉ Queue.issued log := by
  rw [h.issued, h.nextId, List.mem_range'_1]
  omega

/-- **An act that publishes nothing** is told if it moves the topic of its era. -/
theorem Told.moved (h : x.Told log) {a : Topic.Act α} {era : Era} {t : Topic α} {i : Nat}
    {index : List (Nat × String)} {subs : List Subscription}
    (hsound : Sound { x.queue.setTopic i t with index })
    (ha : (Dealing.act a).entered? = none)
    (hissued : Queue.issued (.act a :: log) = Queue.issued log)
    (hi : (eras log)[i]? = some era) (hera : eraFor log a = some era)
    (ht : Topic.Lives (a :: actsIn era log) t)
    (hsubs : ∀ (n : Nat) (s : Subscription), subs[n]? = some s →
      ∃ s₀ : Subscription, x.subscriptions[n]? = some s₀ ∧ s.incarnation = s₀.incarnation) :
    Told ⟨{ x.queue.setTopic i t with index }, subs⟩ (.act a :: log) := by
  have heras : eras (.act a :: log) = eras log := eras_of_entered?_eq_none ha
  have hplaced : Placed { x.queue.setTopic i t with index } (.act a :: log) :=
    (h.placed.act ha).congr (length_setTopic t) rfl
  refine ⟨hsound, hplaced, by rw [hissued]; exact h.issued, by rw [hissued]; exact h.nextId,
    fun n s hs => ?_, ?_, ?_⟩
  · obtain ⟨s₀, hs₀, hsame⟩ := hsubs n s hs
    rw [heras, hsame]
    exact h.home n s₀ hs₀
  · exact lives_setTopic hplaced.distinct (heras ▸ h.lives) (heras ▸ hi) (h.placed.lt_length hi)
      hera ht
  · refine covered_cons h.covered ?_
    rintro b ⟨⟩
    exact ⟨era, hera⟩

/-- **Whatever is dealt, the log tells it.** -/
theorem Told.deal (h : x.Told log) (hd : Deals x d y) : y.Told (d :: log) := by
  have hsound := hd.step.sound h.sound
  have hsame : ∀ (n : Nat) (s : Subscription), x.subscriptions[n]? = some s →
      ∃ s₀ : Subscription, x.subscriptions[n]? = some s₀ ∧ s.incarnation = s₀.incarnation :=
    fun n s hs => ⟨s, hs, rfl⟩
  -- A message or a subscription can open an era. All else is an act of the era that the
  -- subscription or the delivery belongs to, but for a removal, which leaves the topic as it is
  -- and only takes its name away.
  cases hd with
  | publish topic p =>
    have hentered : (Dealing.act (.pushed ⟨topic, p, x.queue.nextId, 1⟩)).entered? = some topic :=
      rfl
    have hplaced := h.placed.enter hentered
    have hi := h.placed.getElem?_enter hentered
    have hlives := lives_setTopic hplaced.distinct (h.lives_enter hentered) hi
      (hplaced.lt_length hi) rfl ((h.lives_enter hentered _ _ hi).push rfl fun hid =>
        h.nextId_not_mem (mem_issued_of_published hid))
    rw [enqueue_eq] at hsound ⊢
    refine ⟨hsound, hplaced.congr (length_setTopic _) rfl, ?_, ?_, fun n s hs => ?_, ?_, ?_⟩
    · rw [Queue.issued, List.length_append, List.length_singleton, List.range'_concat, ← h.issued,
        h.nextId, Nat.add_comm, Nat.one_mul]
    · simp [Queue.issued, pushAt, h.nextId]
    · obtain ⟨era, hera, hhome⟩ := h.home n s hs
      exact ⟨era, getElem?_of_isPrefix (prefix_eras_cons _ log) hera, hhome⟩
    · simp only [pushAt, nextId_enter]
      exact hlives
    · refine covered_cons h.covered ?_
      rintro b ⟨⟩
      exact ⟨_, rfl⟩
  | subscribe topic =>
    have hentered : (Dealing.subscribed topic x.subscriptions.length : Dealing α).entered? =
      some topic := rfl
    refine ⟨hsound, h.placed.enter hentered, h.issued, nextId_enter.trans h.nextId,
      fun n s hs => ?_, h.lives_enter hentered, covered_cons h.covered (by simp)⟩
    rcases getElem?_concat_eq_some_iff.mp hs with hs | ⟨rfl, rfl⟩
    · obtain ⟨era, hera, hhome⟩ := h.home n s hs
      have hne : x.subscriptions.length ≠ n :=
        Nat.ne_of_gt (List.getElem?_eq_some_iff.mp hs).1
      exact ⟨era, getElem?_of_isPrefix (prefix_eras_cons _ log) hera,
        by rw [homeOf?, if_neg hne, hhome]⟩
    · exact ⟨_, h.placed.getElem?_enter hentered, by rw [homeOf?, if_pos rfl]⟩
  | @receive n s e t hs hf ht =>
    obtain ⟨era, hi, hhome⟩ := h.home n s hs
    refine h.moved hsound rfl rfl hi hhome ((h.lives _ _ hi).take n ht) fun m s' hs' => ?_
    rcases eq_or_ne m n with rfl | hne
    · rw [List.getElem?_set_self (List.getElem?_eq_some_iff.mp hs).1] at hs'
      exact ⟨s, hs, by rw [← Option.some.inj hs']⟩
    · rw [List.getElem?_set_ne hne.symm] at hs'
      exact ⟨s', hs', rfl⟩
  | @ack id q hq =>
    obtain ⟨i, e, ho, hh, rfl⟩ := ack_eq_ok_iff.mp hq
    obtain ⟨era, hi, hbirth⟩ := h.exists_of_owner? ho
    obtain ⟨he, rfl⟩ := Topic.held?_eq_some hh
    exact h.moved hsound rfl rfl hi hbirth ((h.lives _ _ hi).ack he) hsame
  | @requeue id q hq =>
    obtain ⟨i, e, ho, hh, rfl⟩ := nack_eq_ok_iff.mp hq
    obtain ⟨era, hi, hbirth⟩ := h.exists_of_owner? ho
    obtain ⟨he, rfl⟩ := Topic.held?_eq_some hh
    exact h.moved hsound rfl rfl hi hbirth ((h.lives _ _ hi).requeue he) hsame
  | @discard id q hq =>
    obtain ⟨i, e, ho, hh, rfl⟩ := nack_eq_ok_iff.mp hq
    obtain ⟨era, hi, hbirth⟩ := h.exists_of_owner? ho
    obtain ⟨he, rfl⟩ := Topic.held?_eq_some hh
    exact h.moved hsound rfl rfl hi hbirth ((h.lives _ _ hi).discard he) hsame
  | @remove topic i hc =>
    have heras : eras (.removed topic :: log) = eras log := eras_of_entered?_eq_none rfl
    have hq : (x.queue.remove topic).2.topics = x.queue.topics ∧
        (x.queue.remove topic).2.nextId = x.queue.nextId := by
      simp [Queue.remove, hc]
    refine ⟨hsound, h.placed.remove hc, h.issued, hq.2.trans h.nextId, heras ▸ h.home,
      fun i era hi => ?_, covered_cons h.covered (by simp)⟩
    rw [topicAt, hq.1]
    exact h.lives i era (heras ▸ hi)

/-- **What comes of calls is told by the log of what was done.** -/
theorem told (calls : List (Call α)) : Told (run calls).1 (run calls).2 :=
  run_induction .empty (fun h hd => h.deal hd) calls

end Exchange

end Queue

end Roundtable

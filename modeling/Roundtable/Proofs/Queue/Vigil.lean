import Roundtable.Proofs.Queue.Order
import Roundtable.Queue.Waiting

/-!
# Nobody oversleeps a message

Subscriptions wait in steps: register, try, park, and once woken begin again. Whoever puts a
message into a topic does so in one step and wakes the registrations of the topic in another.
A hall (`Roundtable.Queue.Hall`) is a queue with those who wait on it and the wake-ups that are
still owed, and its steps interleave in any way: what those who wait and those who wake do by
themselves (`Roundtable.Queue.Hall.Runs`), and what comes from outside
(`Roundtable.Queue.Hall.Comes`), where somebody who waits may be dropped at any time.

**The invariant is that whoever has parked unwoken on a topic that holds a message is owed a
wake-up** (`Roundtable.Queue.Hall.Watched`). Parking keeps it because one who tries and finds
nothing has registered before, so that a message put in meanwhile comes with a wake-up that
finds the registration. Waking keeps it because it reaches all registrations of the topic, the
ones that have not tried yet included.

What the steps do to the queue is nothing but calls on it
(`Roundtable.Queue.Hall.Watched.run`), so that what holds of every queue holds here: messages
are delivered in line and once. And what goes on by itself comes to rest
(`Roundtable.Queue.Hall.Watched.acc`), because whoever wakes up for nothing sleeps again until
something new is put in. At rest nothing is left in a topic on which somebody waits.
-/

namespace Roundtable

/-! ### One step of a waiter -/

namespace Waiting

variable {α κ : Type} {q q' : Queue α} {key : κ} {x y : Waiter} {s : Served α κ}

/-- **A waiter waits on**: it registers, it parks, or it has been woken and begins again. -/
theorem step_eq_waits_iff : step q key x = .waits y ↔
    (x.stage = .entering ∧ x.subscription.finished = false ∧ y = x.register) ∨
    (x.stage = .registered ∧
      (x.subscription.finished = true ∨ (q.topicAt x.subscription.incarnation).ready = []) ∧
      y = { x with stage := .parked }) ∨
    (x.stage = .parked ∧ x.woken = true ∧ y = { x with stage := .entering }) := by
  unfold step
  cases hs : x.stage with
  | entering => cases x.subscription.finished <;> simp [eq_comm (a := y)]
  | parked => cases x.woken <;> simp [eq_comm (a := y)]
  | registered =>
    obtain ⟨hq, hf⟩ | ⟨hq, hf, hr⟩ | ⟨e, t, hq, hf, ht⟩ := q.next_cases x.subscription
    · simp [hq, hf, eq_comm (a := y)]
    · simp [hq, hr, eq_comm (a := y)]
    · obtain ⟨r, hr, -⟩ := Topic.take_eq_some_iff.mp ht
      simp [hq, hf, hr]

/-- **A waiter is served**: it has finished and is given nothing, or it takes the first message
of its topic. -/
theorem step_eq_served_iff : step q key x = .served s q' ↔
    (x.stage = .entering ∧ x.subscription.finished = true ∧ s = ⟨key, none, x.subscription⟩ ∧
      q' = q) ∨
    (x.stage = .registered ∧ x.subscription.finished = false ∧
      ∃ e t, (q.topicAt x.subscription.incarnation).take = some (e, t) ∧
        s = ⟨key, some e, { x.subscription with finished := e.payload.isSentinel }⟩ ∧
        q' = q.setTopic x.subscription.incarnation t) := by
  unfold step
  cases hs : x.stage with
  | entering => cases x.subscription.finished <;> simp [eq_comm (a := s), eq_comm (a := q')]
  | parked => cases x.woken <;> simp
  | registered =>
    obtain ⟨hq, hf⟩ | ⟨hq, hf, hr⟩ | ⟨e, t, hq, hf, ht⟩ := q.next_cases x.subscription
    · simp [hq, hf]
    · simp [hq, hf, Topic.take_eq_none_iff.mpr hr]
    · simp [hq, hf, ht, eq_comm (a := s), eq_comm (a := q')]

theorem step_eq_asleep_iff : step q key x = .asleep ↔ x.stage = .parked ∧ x.woken = false := by
  unfold step
  cases hs : x.stage with
  | entering => cases x.subscription.finished <;> simp
  | parked => cases x.woken <;> simp
  | registered =>
    obtain ⟨hq, -⟩ | ⟨hq, -⟩ | ⟨e, t, hq, -⟩ := q.next_cases x.subscription <;> simp [hq]

end Waiting

/-- Somebody who is registered with an incarnation is woken. -/
def Waiter.called (i : Nat) (x : Waiter) : Waiter :=
  if x.subscription.incarnation = i && x.stage != .entering then { x with woken := true } else x

namespace Waiter

variable {i : Nat} {x : Waiter}

@[simp] theorem subscription_called : (x.called i).subscription = x.subscription := by
  unfold called
  split <;> rfl

@[simp] theorem stage_called : (x.called i).stage = x.stage := by
  unfold called
  split <;> rfl

/-- Whoever sleeps on was not called. -/
theorem woken_called (hs : x.stage = .parked) (h : (x.called i).woken = false) :
    x.subscription.incarnation ≠ i ∧ x.woken = false := by
  unfold called at h
  split at h
  · simp at h
  · next hnot => simpa [hs, h] using hnot

/-- **How many steps a waiter can take** before it sleeps or is served, unless it is woken
again. -/
def effort (x : Waiter) : Nat :=
  match x.stage, x.woken with
  | .entering, _ => 2
  | .registered, false => 1
  | .registered, true => 4
  | .parked, false => 0
  | .parked, true => 3

/-- Nothing is left to do for one who sleeps. -/
theorem effort_eq_zero_iff : x.effort = 0 ↔ x.stage = .parked ∧ x.woken = false := by
  obtain ⟨s, stage, woken⟩ := x
  cases stage <;> cases woken <;> simp [effort]

theorem effort_lt_five (x : Waiter) : x.effort < 5 := by
  obtain ⟨s, stage, woken⟩ := x
  cases stage <;> cases woken <;> simp [effort]

/-- A call costs no more than starting again. -/
theorem effort_called_le : (x.called i).effort ≤ x.effort + 3 := by
  obtain ⟨s, stage, woken⟩ := x
  unfold called
  split
  · cases stage <;> cases woken <;> simp [effort]
  · simp

end Waiter

theorem Waiting.wake_eq {α κ : Type} (w : Waiting α κ) (i : Nat) :
    w.wake i = { w with waiters := w.waiters.map fun p => (p.1, p.2.called i) } := by
  simp only [Waiting.wake, Waiting.mk.injEq, true_and]
  refine List.map_congr_left fun p _ => ?_
  obtain ⟨k, x⟩ := p
  simp only [Waiter.called]
  split <;> rfl

namespace Queue

variable {α : Type}

/-! ### Halls -/

/-- A queue, those who wait on it, and the wake-ups that are still owed. -/
structure Hall (α : Type) where
  exchange : Exchange α
  log : List (Dealing α)
  /-- Who waits, by the number of the subscription. -/
  waiters : List (Nat × Waiter)
  /-- The incarnations into which a message was put by somebody who has not woken the
  registrations yet, once for each message. -/
  owed : List Nat

/-- The incarnation into which a call puts a message. -/
def Call.target? (q : Queue α) : Call α → Option Nat
  | .publish topic _ | .publishSentinel topic => some (q.enter topic).1
  | .nack d true =>
    match q.nack d true with
    | .ok _ => q.owner? d
    | .error _ => none
  | _ => none

namespace Hall

/-- Nothing is there and nobody waits. -/
def empty : Hall α := ⟨.empty, [], [], []⟩

/-- The queue and those who wait on it. -/
def waiting (h : Hall α) : Waiting α Nat := ⟨h.exchange.queue, h.waiters⟩

/-- A call is answered, and if it puts in a message, a wake-up is owed. -/
def call (h : Hall α) (c : Call α) : Hall α :=
  let (exchange, log) := Exchange.serve (h.exchange, h.log) c
  { h with exchange, log, owed := (c.target? h.exchange.queue).toList ++ h.owed }

/-- One who owes a wake-up makes it. -/
def notify (h : Hall α) (i : Nat) : Hall α :=
  { h with waiters := (h.waiting.wake i).waiters, owed := h.owed.erase i }

/-- A subscription begins to wait. -/
def begin (h : Hall α) (n : Nat) (s : Subscription) : Hall α :=
  { h with waiters := (h.waiting.begin n s).waiters }

/-- One who waits is dropped. -/
def drop (h : Hall α) (n : Nat) : Hall α := { h with waiters := (h.waiting.drop n).waiters }

/-- One who waits is at another stage. -/
def put (h : Hall α) (n : Nat) (y : Waiter) : Hall α :=
  { h with waiters := h.waiters.map fun p => if p.1 = n then (n, y) else p }

/-- One who waited is served. -/
def serve (h : Hall α) (s : Served α Nat) (q : Queue α) : Hall α :=
  { h with
    exchange := ⟨q, h.exchange.subscriptions.set s.key s.subscription⟩
    log := (s.envelope.map fun e => .act (.taken s.key e)).toList ++ h.log
    waiters := (h.waiting.drop s.key).waiters }

/-- **What goes on by itself**: wake-ups that are owed, and steps of those who wait. -/
inductive Runs : Hall α → Hall α → Prop
  | notify {h : Hall α} {i : Nat} (hi : i ∈ h.owed) : Runs h (h.notify i)
  | waits {h : Hall α} {n : Nat} {x y : Waiter} (hx : (n, x) ∈ h.waiters)
      (hs : Waiting.step h.exchange.queue n x = .waits y) : Runs h (h.put n y)
  | served {h : Hall α} {n : Nat} {x : Waiter} {s : Served α Nat} {q : Queue α}
      (hx : (n, x) ∈ h.waiters) (hs : Waiting.step h.exchange.queue n x = .served s q) :
      Runs h (h.serve s q)

/-- **What comes from outside**: calls on the queue, subscriptions that begin to wait, which
each does once at a time, and those who wait no longer. -/
inductive Comes : Hall α → Hall α → Prop
  | call {h : Hall α} {c : Call α} (hc : ∀ n, c ≠ .next n) : Comes h (h.call c)
  | begin {h : Hall α} {n : Nat} {s : Subscription} (hs : h.exchange.subscriptions[n]? = some s)
      (hn : n ∉ h.waiters.map (·.1)) : Comes h (h.begin n s)
  | drop (h : Hall α) (n : Nat) : Comes h (h.drop n)

/-- The halls that come up, whatever the steps interleave. -/
def Reachable (h : Hall α) : Prop :=
  Relation.ReflTransGen (fun h h' => Runs h h' ∨ Comes h h') empty h

/-! ### The watch -/

/-- **The watch is kept**: those who wait are subscriptions that have not finished, and whoever
has parked unwoken on a topic that holds a message is owed a wake-up. -/
structure Watched (h : Hall α) : Prop where
  /-- What was done to the queue are calls. -/
  run : ∃ calls, Exchange.run calls = (h.exchange, h.log)
  keys : (h.waiters.map (·.1)).Nodup
  seats : ∀ n x, (n, x) ∈ h.waiters → h.exchange.subscriptions[n]? = some x.subscription
  unfinished : ∀ n x, (n, x) ∈ h.waiters → x.stage ≠ .entering → x.subscription.finished = false
  owed : ∀ n x, (n, x) ∈ h.waiters → x.stage = .parked → x.woken = false →
    (h.exchange.queue.topicAt x.subscription.incarnation).ready ≠ [] →
      x.subscription.incarnation ∈ h.owed

variable {h h' : Hall α} {n i : Nat} {x y : Waiter} {c : Call α}

theorem Watched.empty : Watched (empty : Hall α) :=
  ⟨⟨[], rfl⟩, List.nodup_nil, by simp [Hall.empty], by simp [Hall.empty], by simp [Hall.empty]⟩

/-- Waking keeps the watch: nobody who is registered sleeps on. -/
theorem Watched.notify (hw : h.Watched) (i : Nat) : (h.notify i).Watched := by
  have hmem : ∀ n z, (n, z) ∈ (h.notify i).waiters → ∃ x, (n, x) ∈ h.waiters ∧ z = x.called i := by
    intro n z hz
    rw [Hall.notify, Waiting.wake_eq] at hz
    obtain ⟨⟨k, x⟩, hx, heq⟩ := List.mem_map.mp hz
    obtain ⟨rfl, rfl⟩ := Prod.mk.inj heq
    exact ⟨x, hx, rfl⟩
  have hkeys : (h.notify i).waiters.map (·.1) = h.waiters.map (·.1) := by
    rw [Hall.notify, Waiting.wake_eq, List.map_map]
    rfl
  refine ⟨hw.run, hkeys ▸ hw.keys, fun n z hz => ?_, fun n z hz hs => ?_, fun n z hz hs hn hr => ?_⟩
  all_goals obtain ⟨x, hx, rfl⟩ := hmem n z hz
  · rw [Waiter.subscription_called]
    exact hw.seats n x hx
  · rw [Waiter.subscription_called]
    exact hw.unfinished n x hx (by rwa [Waiter.stage_called] at hs)
  · rw [Waiter.stage_called] at hs
    obtain ⟨hne, hasleep⟩ := Waiter.woken_called hs hn
    rw [Waiter.subscription_called] at hr ⊢
    exact (List.mem_erase_of_ne hne).mpr (hw.owed n x hx hs hasleep hr)

theorem mem_put {k : Nat} {z : Waiter} (hz : (k, z) ∈ (h.put n y).waiters) :
    k = n ∧ z = y ∨ k ≠ n ∧ (k, z) ∈ h.waiters := by
  obtain ⟨⟨j, x⟩, hx, heq⟩ := List.mem_map.mp hz
  split at heq
  · exact .inl (by simpa [eq_comm] using heq)
  · next hne =>
    obtain ⟨rfl, rfl⟩ := Prod.mk.inj heq
    exact .inr ⟨hne, hx⟩

theorem keys_put : (h.put n y).waiters.map (·.1) = h.waiters.map (·.1) := by
  rw [Hall.put, List.map_map]
  refine List.map_congr_left fun p _ => ?_
  simp only [Function.comp_apply]
  split
  · next heq => exact heq.symm
  · rfl

/-- **A waiter's step keeps the watch**: it registers before it tries, and parks only if
nothing is there. -/
theorem Watched.waits (hw : h.Watched) (hx : (n, x) ∈ h.waiters)
    (hs : Waiting.step h.exchange.queue n x = .waits y) : (h.put n y).Watched := by
  have hsub : y.subscription = x.subscription := by
    obtain ⟨-, -, rfl⟩ | ⟨-, -, rfl⟩ | ⟨-, -, rfl⟩ := Waiting.step_eq_waits_iff.mp hs <;> rfl
  refine ⟨hw.run, by rw [keys_put]; exact hw.keys, fun k z hz => ?_, fun k z hz hstage => ?_,
    fun k z hz hstage hwoken hr => ?_⟩
  all_goals obtain ⟨rfl, rfl⟩ | ⟨-, hz⟩ := mem_put hz
  · exact hsub ▸ hw.seats k x hx
  · exact hw.seats k z hz
  · rw [hsub]
    obtain ⟨-, hf, -⟩ | ⟨hreg, -, -⟩ | ⟨hparked, -, rfl⟩ := Waiting.step_eq_waits_iff.mp hs
    · exact hf
    · exact hw.unfinished k x hx (by simp [hreg])
    · exact (hstage rfl).elim
  · exact hw.unfinished k z hz hstage
  · obtain ⟨-, -, rfl⟩ | ⟨hreg, hnone, rfl⟩ | ⟨-, -, rfl⟩ := Waiting.step_eq_waits_iff.mp hs
    · simp [Waiter.register] at hstage
    · have hf := hw.unfinished k x hx (by simp [hreg])
      exact (hr (hnone.resolve_left (by simp [hf]))).elim
    · simp at hstage
  · exact hw.owed k z hz hstage hwoken hr

/-- Serving somebody who waits is answering its call. -/
theorem serve_next {s : Served α Nat} {q : Queue α}
    (hseat : h.exchange.subscriptions[n]? = some x.subscription)
    (hs : Waiting.step h.exchange.queue n x = .served s q) :
    Exchange.serve (h.exchange, h.log) (.next n) =
      ((h.serve s q).exchange, (h.serve s q).log) := by
  obtain ⟨-, hf, rfl, rfl⟩ | ⟨-, hf, e, t, ht, rfl, rfl⟩ := Waiting.step_eq_served_iff.mp hs
  · simp [Exchange.serve, Exchange.call, hseat, Queue.next, hf, Dealing.of?, Hall.serve]
  · simp [Exchange.serve, Exchange.call, hseat, Queue.next, hf, ht, Dealing.of?, Hall.serve]

/-- Who is served takes a message and puts in none. -/
theorem ready_of_served {q q' : Queue α} {s : Served α Nat} {j : Nat}
    (hs : Waiting.step q n x = .served s q') (hr : (q'.topicAt j).ready ≠ []) :
    (q.topicAt j).ready ≠ [] := by
  obtain ⟨-, -, -, rfl⟩ | ⟨-, -, e, t, ht, -, rfl⟩ := Waiting.step_eq_served_iff.mp hs
  · exact hr
  · obtain ⟨r, htake, -⟩ := Topic.take_eq_some_iff.mp ht
    rcases eq_or_ne j x.subscription.incarnation with rfl | hne
    · simp [htake]
    · rwa [topicAt_setTopic_ne hne] at hr

theorem mem_drop {k m : Nat} {z : Waiter} :
    (k, z) ∈ (h.drop m).waiters ↔ (k, z) ∈ h.waiters ∧ k ≠ m := by
  simp [Hall.drop, Waiting.drop, Hall.waiting]

theorem Watched.served (hw : h.Watched) {s : Served α Nat} {q : Queue α} (hx : (n, x) ∈ h.waiters)
    (hs : Waiting.step h.exchange.queue n x = .served s q) : (h.serve s q).Watched := by
  obtain ⟨calls, hrun⟩ := hw.run
  refine ⟨⟨calls ++ [.next n], ?_⟩, hw.keys.sublist (List.filter_sublist.map _), fun k z hz => ?_,
    fun k z hz => ?_, fun k z hz hstage hwoken hr => ?_⟩
  · rw [Exchange.run_concat, hrun, serve_next (hw.seats n x hx) hs]
  all_goals obtain ⟨hz, hne⟩ := mem_drop.mp hz
  · exact (List.getElem?_set_ne hne.symm).trans (hw.seats k z hz)
  · exact hw.unfinished k z hz
  · exact hw.owed k z hz hstage hwoken (ready_of_served hs hr)

/-- A call puts messages nowhere but into its target. -/
theorem ready_call {x : Exchange α} {j : Nat} (hc : ∀ n, c ≠ .next n)
    (hj : c.target? x.queue ≠ some j) :
    ((x.call c).2.queue.topicAt j).ready = (x.queue.topicAt j).ready := by
  have hpush (topic : String) (p : Payload α) (hj : (x.queue.enter topic).1 ≠ j) :
      ((x.queue.enqueue topic p).2.topicAt j).ready = (x.queue.topicAt j).ready := by
    rw [enqueue_eq]
    exact congrArg Topic.ready ((topicAt_setTopic_ne hj.symm _).trans topicAt_enter)
  cases c with
  | publish topic v => exact hpush topic _ (by simpa [Call.target?] using hj)
  | publishSentinel topic => exact hpush topic _ (by simpa [Call.target?] using hj)
  | subscribe topic => exact congrArg Topic.ready topicAt_enter
  | next n => exact (hc n rfl).elim
  | ack d =>
    cases hq : x.queue.ack d with
    | error e => simp [Exchange.call, hq]
    | ok q => simpa [Exchange.call, hq] using ready_topicAt_ack hq j
  | nack d requeue =>
    cases hq : x.queue.nack d requeue with
    | error e => simp [Exchange.call, hq]
    | ok q =>
      obtain ⟨i, e, ho, -, rfl⟩ := nack_eq_ok_iff.mp hq
      cases requeue with
      | true =>
        have hne : i ≠ j := by simpa [Call.target?, hq, ho] using hj
        simp [Exchange.call, hq, topicAt_setTopic_ne hne.symm]
      | false =>
        have hsame := ready_topicAt_setTopic (q := x.queue) (i := i)
          (t := (x.queue.topicAt i).discard d) rfl j
        simp only [Exchange.call, hq]
        exact hsame
  | stats topic => rfl
  | remove topic =>
    unfold Exchange.call Queue.remove
    dsimp only
    split <;> rfl

/-- A call that takes nothing leaves the subscriptions that are there. -/
theorem subscriptions_call {x : Exchange α} {s : Subscription} (hc : ∀ n, c ≠ .next n)
    (hs : x.subscriptions[n]? = some s) : (x.call c).2.subscriptions[n]? = some s := by
  cases c with
  | subscribe topic => exact getElem?_of_isPrefix (List.prefix_append _ _) hs
  | next n => exact (hc n rfl).elim
  | publish | publishSentinel | stats | remove => exact hs
  | ack d => cases hq : x.queue.ack d <;> simpa [Exchange.call, hq] using hs
  | nack d requeue => cases hq : x.queue.nack d requeue <;> simpa [Exchange.call, hq] using hs

/-- **What a call puts in comes with a wake-up** for those who have parked. -/
theorem Watched.call (hw : h.Watched) (hc : ∀ n, c ≠ .next n) : (h.call c).Watched := by
  obtain ⟨calls, hrun⟩ := hw.run
  refine ⟨⟨calls ++ [c], ?_⟩, hw.keys, fun k z hz => subscriptions_call hc (hw.seats k z hz),
    hw.unfinished, fun k z hz hstage hwoken hr => ?_⟩
  · rw [Exchange.run_concat, hrun]
    rfl
  · -- Either the call owes the topic a wake-up, or it has put nothing there.
    by_cases htarget : c.target? h.exchange.queue = some z.subscription.incarnation
    · simp [Hall.call, htarget]
    · have hsame := ready_call hc htarget
      refine List.mem_append_right _ (hw.owed k z hz hstage hwoken fun hnil => hr ?_)
      exact hsame.trans hnil

theorem Watched.begin (hw : h.Watched) {s : Subscription}
    (hs : h.exchange.subscriptions[n]? = some s) (hn : n ∉ h.waiters.map (·.1)) :
    (h.begin n s).Watched := by
  have hmem (k : Nat) (z : Waiter) (hz : (k, z) ∈ (h.begin n s).waiters) :
      (k, z) ∈ h.waiters ∨ k = n ∧ z = .start s := by
    simpa [Hall.begin, Waiting.begin, Hall.waiting] using hz
  refine ⟨hw.run, ?_, fun k z hz => ?_, fun k z hz hstage => ?_, fun k z hz hstage hwoken hr => ?_⟩
  · simp only [Hall.begin, Waiting.begin, Hall.waiting, List.map_append, List.map_singleton]
    exact (List.perm_append_singleton _ _).nodup_iff.mpr (List.nodup_cons.mpr ⟨hn, hw.keys⟩)
  all_goals obtain hz | ⟨rfl, rfl⟩ := hmem k z hz
  · exact hw.seats k z hz
  · exact hs
  · exact hw.unfinished k z hz hstage
  · simp [Waiter.start] at hstage
  · exact hw.owed k z hz hstage hwoken hr
  · simp [Waiter.start] at hstage

theorem Watched.drop (hw : h.Watched) (n : Nat) : (h.drop n).Watched :=
  ⟨hw.run, hw.keys.sublist (List.filter_sublist.map _),
    fun k z hz => hw.seats k z (mem_drop.mp hz).1,
    fun k z hz => hw.unfinished k z (mem_drop.mp hz).1,
    fun k z hz => hw.owed k z (mem_drop.mp hz).1⟩

theorem Watched.runs (hw : h.Watched) (hr : Runs h h') : h'.Watched := by
  cases hr with
  | notify => exact hw.notify _
  | waits hx hs => exact hw.waits hx hs
  | served hx hs => exact hw.served hx hs

theorem Watched.reaches (hw : h.Watched) (hr : Relation.ReflTransGen Runs h h') : h'.Watched := by
  induction hr with
  | refl => exact hw
  | tail _ hs ih => exact ih.runs hs

theorem Watched.comes (hw : h.Watched) (hc : Comes h h') : h'.Watched := by
  cases hc with
  | call hc => exact hw.call hc
  | begin hs hn => exact hw.begin hs hn
  | drop => exact hw.drop _

/-- **In every hall that comes up the watch is kept.** -/
theorem Reachable.watched (hr : h.Reachable) : h.Watched := by
  induction hr with
  | refl => exact .empty
  | tail _ hs ih => exact hs.elim ih.runs ih.comes

/-! ### Coming to rest -/

/-- How much those who wait can do before they all sleep or are served. -/
def strain (h : Hall α) : Nat := (h.waiters.map fun p => p.2.effort).sum

/-- **How much can go on by itself**: every wake-up that is owed may set everybody off once
more. -/
def unrest (h : Hall α) : Nat := h.owed.length * (3 * h.waiters.length + 1) + h.strain

/-- What one who waits adds to what the others can do. -/
theorem Watched.strain_eq (hw : h.Watched) (hx : (n, x) ∈ h.waiters) :
    h.strain = x.effort + (h.drop n).strain := by
  rw [strain, ((perm_cons_filter_key hw.keys hx).map fun p => p.2.effort).sum_nat]
  rfl

/-- Whoever is at another stage, the others stay as they are. -/
theorem drop_put : (h.put n y).drop n = h.drop n := by
  have hkey : ((fun p : Nat × Waiter => p.1 != n) ∘ fun p => if p.1 = n then (n, y) else p) =
      fun p => p.1 != n := by
    funext p
    simp only [Function.comp_apply]
    split
    · next heq => simp [heq]
    · rfl
  have hrest : ∀ p ∈ h.waiters.filter (·.1 != n), (if p.1 = n then (n, y) else p) = p :=
    fun p hp => if_neg (bne_iff_ne.mp (List.mem_filter.mp hp).2)
  simp only [Hall.drop, Hall.put, Waiting.drop, Hall.waiting, List.filter_map, hkey,
    List.map_congr_left hrest, List.map_id']

theorem Watched.strain_put (hw : h.Watched) (hx : (n, x) ∈ h.waiters) (y : Waiter) :
    (h.put n y).strain = y.effort + (h.drop n).strain := by
  have hmem : (n, y) ∈ (h.put n y).waiters := List.mem_map.mpr ⟨(n, x), hx, if_pos rfl⟩
  have hkeys : ((h.put n y).waiters.map (·.1)).Nodup := by
    rw [keys_put]
    exact hw.keys
  rw [← drop_put (y := y), strain,
    ((perm_cons_filter_key hkeys hmem).map fun p => p.2.effort).sum_nat]
  rfl

theorem strain_notify (i : Nat) : (h.notify i).strain ≤ h.strain + 3 * h.waiters.length := by
  rw [strain, strain, Hall.notify, Waiting.wake_eq, waiting, List.map_map]
  induction h.waiters with
  | nil => simp
  | cons p l ih =>
    have hp := Waiter.effort_called_le (i := i) (x := p.2)
    simp only [List.map_cons, List.sum_cons, List.length_cons, Function.comp_apply] at ih ⊢
    omega

/-- A waiter's step brings it nearer to sleeping. -/
theorem effort_lt_of_waits {q : Queue α} (hs : Waiting.step q n x = .waits y) :
    y.effort < x.effort := by
  obtain ⟨hstage, -, rfl⟩ | ⟨hstage, -, rfl⟩ | ⟨hstage, hwoken, rfl⟩ :=
    Waiting.step_eq_waits_iff.mp hs
  · simp [Waiter.effort, Waiter.register, hstage]
  · cases hwoken : x.woken <;> simp [Waiter.effort, hstage, hwoken]
  · simp [Waiter.effort, hstage, hwoken]

/-- Who is served was awake. -/
theorem effort_pos_of_served {q q' : Queue α} {s : Served α Nat}
    (hs : Waiting.step q n x = .served s q') : 0 < x.effort := by
  obtain ⟨hstage, -⟩ | ⟨hstage, -⟩ := Waiting.step_eq_served_iff.mp hs
  · simp [Waiter.effort, hstage]
  · cases hwoken : x.woken <;> simp [Waiter.effort, hstage, hwoken]

theorem key_of_served {q q' : Queue α} {s : Served α Nat}
    (hs : Waiting.step q n x = .served s q') : s.key = n := by
  obtain ⟨-, -, rfl, -⟩ | ⟨-, -, e, t, -, rfl, -⟩ := Waiting.step_eq_served_iff.mp hs <;> rfl

theorem length_waiters_drop_le (h : Hall α) (n : Nat) :
    (h.drop n).waiters.length ≤ h.waiters.length :=
  List.length_filter_le _ _

/-- **Whatever goes on by itself, less can go on after it.** -/
theorem Watched.unrest_lt (hw : h.Watched) (hr : Runs h h') : h'.unrest < h.unrest := by
  cases hr with
  | @notify i hi =>
    -- The wake-up that is spent pays for everybody it may set off.
    have hstrain := strain_notify (h := h) i
    have hlength : (h.notify i).waiters.length = h.waiters.length := by
      rw [Hall.notify, Waiting.wake_eq, List.length_map]
      rfl
    have howed : (h.notify i).owed.length + 1 = h.owed.length := by
      have hpos := List.length_pos_of_mem hi
      rw [Hall.notify, List.length_erase_of_mem hi]
      omega
    rw [unrest, unrest, hlength, ← howed, Nat.add_mul]
    omega
  | @waits n x y hx hs =>
    have hstrain := hw.strain_eq hx
    have hput := hw.strain_put hx y
    have hlt := effort_lt_of_waits hs
    have hlength : (h.put n y).waiters.length = h.waiters.length := List.length_map _
    rw [unrest, unrest, hlength, hput, hstrain]
    exact Nat.add_lt_add_left (Nat.add_lt_add_right hlt _) _
  | @served n x s q hx hs =>
    have hstrain := hw.strain_eq hx
    have hpos := effort_pos_of_served hs
    have hkey := key_of_served hs
    have hwaiters : (h.serve s q).waiters = (h.drop n).waiters := by rw [← hkey]; rfl
    have hcost : h.owed.length * (3 * (h.drop n).waiters.length + 1) ≤
        h.owed.length * (3 * h.waiters.length + 1) :=
      Nat.mul_le_mul_left _ (Nat.succ_le_succ (Nat.mul_le_mul_left _ (length_waiters_drop_le h n)))
    have hleft : (h.serve s q).strain = (h.drop n).strain := by rw [strain, strain, hwaiters]
    have howed : (h.serve s q).owed = h.owed := rfl
    rw [unrest, unrest, hwaiters, hleft, howed, hstrain]
    omega

/-- **What goes on by itself comes to an end**, whatever happens first. -/
theorem Watched.acc (hw : h.Watched) : Acc (fun b a => Runs a b) h := by
  induction hu : h.unrest using Nat.strong_induction_on generalizing h with
  | _ u ih =>
    subst hu
    exact ⟨_, fun _ hr => ih _ (hw.unrest_lt hr) (hw.runs hr) rfl⟩

/-- Nothing goes on by itself. -/
def AtRest (h : Hall α) : Prop := ∀ h', ¬Runs h h'

/-- **At rest nobody waits on a topic that holds a message.** -/
theorem Watched.ready_eq_nil (hw : h.Watched) (hrest : h.AtRest) (hx : (n, x) ∈ h.waiters) :
    (h.exchange.queue.topicAt x.subscription.incarnation).ready = [] := by
  have howed : h.owed = [] :=
    List.eq_nil_iff_forall_not_mem.mpr fun i hi => hrest _ (.notify hi)
  by_contra hr
  cases hs : Waiting.step h.exchange.queue n x with
  | waits y => exact hrest _ (.waits hx hs)
  | served s q => exact hrest _ (.served hx hs)
  | asleep =>
    obtain ⟨hstage, hwoken⟩ := Waiting.step_eq_asleep_iff.mp hs
    have hmem := hw.owed n x hx hstage hwoken hr
    simp [howed] at hmem

/-- **It comes to rest.** -/
theorem Watched.exists_atRest (hw : h.Watched) :
    ∃ h', Relation.ReflTransGen Runs h h' ∧ h'.AtRest := by
  induction hw.acc with
  | intro h _ ih =>
    by_cases hrest : h.AtRest
    · exact ⟨h, .refl, hrest⟩
    · obtain ⟨h₁, hr⟩ : ∃ h', Runs h h' := by simpa [AtRest] using hrest
      obtain ⟨h₂, hreach, hrest⟩ := ih h₁ hr (hw.runs hr)
      exact ⟨h₂, .head hr hreach, hrest⟩

/-! ### What is delivered -/

/-- What was done to the queue is told by the log. -/
theorem Watched.told (hw : h.Watched) : h.exchange.Told h.log := by
  obtain ⟨calls, hrun⟩ := hw.run
  have htold := Exchange.told calls
  rwa [hrun] at htold

theorem Watched.inOrder (hw : h.Watched) : h.exchange.InOrder h.log := by
  have htold := hw.told
  obtain ⟨calls, hrun⟩ := hw.run
  have hseated := Exchange.seated calls
  rw [hrun] at hseated
  exact ⟨fun i era hi => (htold.lives i era hi).inLine, hseated.share, hseated.last⟩

/-- **At rest everything has been delivered** that was put in line in an era in which somebody
waits. -/
theorem Watched.delivered (hw : h.Watched) (hrest : h.AtRest) (hx : (n, x) ∈ h.waiters)
    {era : Era} (hhome : homeOf? n h.log = some era) :
    Topic.enqueued (actsIn era h.log) =
      (Topic.delivered (actsIn era h.log)).map (·.2.stamp) := by
  obtain ⟨other, hi, hother⟩ := hw.told.home n _ (hw.seats n x hx)
  obtain rfl : era = other := Option.some.inj (hhome.symm.trans hother)
  have hline := (hw.inOrder.inLine _ _ hi).line
  rw [hline, hw.ready_eq_nil hrest hx, List.map_nil, List.append_nil]

/-! ### Each in turn -/

/-- Somebody among those who wait. -/
theorem put_of_waiters {front rest : List (Nat × Waiter)} (hw : h.Watched)
    (hwaiters : h.waiters = front ++ (n, x) :: rest) :
    (h.put n y).waiters = front ++ (n, y) :: rest ∧ (h.drop n).waiters = front ++ rest := by
  have hkeys := hw.keys
  rw [hwaiters, List.map_append, List.map_cons] at hkeys
  obtain ⟨hout, -⟩ := List.nodup_cons.mp (List.perm_middle.nodup_iff.mp hkeys)
  have hne : ∀ p ∈ front ++ rest, p.1 ≠ n := fun p hp heq =>
    hout (by rw [← List.map_append, ← heq]; exact List.mem_map_of_mem (f := (·.1)) hp)
  rw [List.forall_mem_append] at hne
  constructor
  · have hsame {l : List (Nat × Waiter)} (hl : ∀ p ∈ l, p.1 ≠ n) :
        l.map (fun p => if p.1 = n then (n, y) else p) = l :=
      (List.map_congr_left fun p hp => if_neg (hl p hp)).trans (List.map_id' l)
    rw [Hall.put, hwaiters, List.map_append, List.map_cons, if_pos rfl, hsame hne.1, hsame hne.2]
  · have hsame {l : List (Nat × Waiter)} (hl : ∀ p ∈ l, p.1 ≠ n) : l.filter (·.1 != n) = l :=
      List.filter_eq_self.mpr fun p hp => bne_iff_ne.mpr (hl p hp)
    simp only [Hall.drop, Waiting.drop, waiting, hwaiters, List.filter_append, hsame hne.1,
      List.filter_cons, bne_self_eq_false, hsame hne.2]
    rfl

/-- What those who were served received, the last one first. -/
def takings (served : List (Served α Nat)) : List (Dealing α) :=
  (served.filterMap fun s => s.envelope.map fun e => .act (.taken s.key e)).reverse

theorem takings_cons (s : Served α Nat) (served : List (Served α Nat)) :
    takings (s :: served) = takings served ++ takings [s] := by
  cases he : s.envelope <;> simp [takings, he]

/-- **One who waits goes as far as it can** by steps of its own. -/
theorem Watched.advance {front rest : List (Nat × Waiter)} (k : Nat) (hw : h.Watched)
    (hwaiters : h.waiters = front ++ (n, x) :: rest) :
    ∃ h', Relation.ReflTransGen Runs h h' ∧ h'.owed = h.owed ∧
      match Waiting.advance h.exchange.queue n k x with
      | .inl (s, q) => h'.exchange.queue = q ∧ h'.waiters = front ++ rest ∧
          h'.log = takings [s] ++ h.log
      | .inr y => h'.exchange.queue = h.exchange.queue ∧ h'.waiters = front ++ (n, y) :: rest ∧
          h'.log = h.log ∧ (x.effort < k → y.effort = 0) := by
  induction k generalizing h x with
  | zero => exact ⟨h, .refl, rfl, rfl, hwaiters, rfl, by omega⟩
  | succ k ih =>
    have hx : (n, x) ∈ h.waiters := by simp [hwaiters]
    cases hs : Waiting.step h.exchange.queue n x with
    | waits y =>
      have hruns : Runs h (h.put n y) := .waits hx hs
      have hlt := effort_lt_of_waits hs
      obtain ⟨h', hreach, howed, hend⟩ := ih (hw.runs hruns) (put_of_waiters hw hwaiters).1
      refine ⟨h', .head hruns hreach, howed, ?_⟩
      rw [Waiting.advance, hs]
      dsimp only
      have hsame : (h.put n y).exchange.queue = h.exchange.queue := rfl
      rw [hsame] at hend
      cases ha : Waiting.advance h.exchange.queue n k y with
      | inl p =>
        simp only [ha] at hend
        exact hend
      | inr z =>
        simp only [ha] at hend
        exact ⟨hend.1, hend.2.1, hend.2.2.1, fun hk => hend.2.2.2 (by omega)⟩
    | served s q =>
      refine ⟨h.serve s q, .single (.served hx hs), rfl, ?_⟩
      rw [Waiting.advance, hs]
      refine ⟨rfl, ?_, ?_⟩
      · have hkey := key_of_served hs
        rw [← (put_of_waiters (y := x) hw hwaiters).2, ← hkey]
        rfl
      · cases he : s.envelope <;> simp [Hall.serve, takings, he]
    | asleep =>
      refine ⟨h, .refl, rfl, ?_⟩
      rw [Waiting.advance, hs]
      exact ⟨rfl, hwaiters, rfl, fun _ =>
        Waiter.effort_eq_zero_iff.mpr (Waiting.step_eq_asleep_iff.mp hs)⟩

/-- **Each of those who wait goes as far as it can** by steps of its own, and whoever is left
sleeps. -/
theorem Watched.settleEach {front : List (Nat × Waiter)} (l : List (Nat × Waiter))
    (hw : h.Watched) (hwaiters : h.waiters = front ++ l) (hfront : ∀ p ∈ front, p.2.effort = 0) :
    ∃ h', Relation.ReflTransGen Runs h h' ∧ h'.owed = h.owed ∧
      h'.exchange.queue = (Waiting.settleEach h.exchange.queue l).2.2 ∧
      h'.waiters = front ++ (Waiting.settleEach h.exchange.queue l).2.1 ∧
      h'.log = takings (Waiting.settleEach h.exchange.queue l).1 ++ h.log ∧
      ∀ p ∈ h'.waiters, p.2.effort = 0 := by
  induction l generalizing h front with
  | nil =>
    refine ⟨h, .refl, rfl, rfl, hwaiters, rfl, ?_⟩
    rw [hwaiters, List.append_nil]
    exact hfront
  | cons p l ih =>
    obtain ⟨n, x⟩ := p
    obtain ⟨h₁, hreach, howed, hend⟩ := hw.advance 5 hwaiters
    have hw₁ := hw.reaches hreach
    rw [Waiting.settleEach]
    cases ha : Waiting.advance h.exchange.queue n 5 x with
    | inl r =>
      obtain ⟨s, q⟩ := r
      simp only [ha] at hend ⊢
      obtain ⟨rfl, hwaiters₁, hlog⟩ := hend
      obtain ⟨h₂, hreach₂, howed₂, hq, hwaiters₂, hlog₂, hrest⟩ := ih hw₁ hwaiters₁ hfront
      refine ⟨h₂, hreach.trans hreach₂, howed₂.trans howed, hq, hwaiters₂, ?_, hrest⟩
      rw [hlog₂, hlog, ← List.append_assoc, ← takings_cons]
    | inr y =>
      simp only [ha] at hend ⊢
      obtain ⟨hq₁, hwaiters₁, hlog, hzero⟩ := hend
      rw [List.append_cons] at hwaiters₁
      obtain ⟨h₂, hreach₂, howed₂, hq, hwaiters₂, hlog₂, hrest⟩ := ih hw₁ hwaiters₁ fun p hp => by
        rcases List.mem_append.mp hp with hp | hp
        · exact hfront p hp
        · rw [List.mem_singleton.mp hp]
          exact hzero x.effort_lt_five
      rw [hq₁] at hq hwaiters₂ hlog₂
      exact ⟨h₂, hreach.trans hreach₂, howed₂.trans howed, hq,
        by rw [hwaiters₂, ← List.append_cons], hlog₂.trans (by rw [hlog]), hrest⟩

/-- Where no wake-up is owed and all who wait sleep, it is at rest. -/
theorem atRest_of_effort (howed : h.owed = []) (hzero : ∀ p ∈ h.waiters, p.2.effort = 0) :
    h.AtRest := by
  have hasleep {n : Nat} {x : Waiter} (hx : (n, x) ∈ h.waiters) :
      Waiting.step h.exchange.queue n x = .asleep :=
    Waiting.step_eq_asleep_iff.mpr (Waiter.effort_eq_zero_iff.mp (hzero _ hx))
  intro h' hr
  cases hr with
  | notify hi => simp [howed] at hi
  | waits hx hs => exact nomatch (hasleep hx).symm.trans hs
  | served hx hs => exact nomatch (hasleep hx).symm.trans hs

/-- **Settling is one way in which it comes to rest**: if no wake-up is owed, each of those who
wait in turn going as far as it can leads to where nothing goes on by itself. -/
theorem Watched.settle (hw : h.Watched) (howed : h.owed = []) :
    ∃ h', Relation.ReflTransGen Runs h h' ∧ h'.AtRest ∧ h'.waiting = h.waiting.settle.2 ∧
      h'.log = takings h.waiting.settle.1 ++ h.log := by
  obtain ⟨h', hreach, howed', hq, hwaiters, hlog, hzero⟩ :=
    hw.settleEach h.waiters (List.nil_append _).symm (List.forall_mem_nil _)
  refine ⟨h', hreach, atRest_of_effort (howed'.trans howed) hzero, ?_, hlog⟩
  rw [waiting, hq, hwaiters]
  rfl

/-! ### Nobody oversleeps -/

/-- **Nobody oversleeps a message, and none is lost or doubled.** -/
structure Vigilant (h : Hall α) : Prop where
  /-- Nobody sleeps unwoken on a topic that holds a message for which no wake-up is owed. -/
  awake : ∀ n x, (n, x) ∈ h.waiters → x.stage = .parked → x.woken = false →
    x.subscription.incarnation ∉ h.owed →
      (h.exchange.queue.topicAt x.subscription.incarnation).ready = []
  /-- Whoever waits can be dropped: the queue and the others stay as they are. -/
  dropped : ∀ n, (h.drop n).exchange = h.exchange ∧ (h.drop n).log = h.log ∧
    (h.drop n).owed = h.owed ∧
    ∀ k x, (k, x) ∈ (h.drop n).waiters ↔ (k, x) ∈ h.waiters ∧ k ≠ n
  /-- Messages are delivered in line, each at one attempt once, and shared out. -/
  inOrder : h.exchange.InOrder h.log
  /-- What goes on by itself comes to an end. -/
  ends : Acc (fun b a => Runs a b) h
  rests : ∃ h', Relation.ReflTransGen Runs h h' ∧ h'.AtRest
  /-- Then nothing is left for those who wait: all that was put in line was delivered. -/
  delivered : ∀ h', Relation.ReflTransGen Runs h h' → h'.AtRest →
    ∀ n ∈ h'.waiters.map (·.1), ∃ era, homeOf? n h'.log = some era ∧
      Topic.enqueued (actsIn era h'.log) = (Topic.delivered (actsIn era h'.log)).map (·.2.stamp)

/-- **No wake-up is lost**, however the steps of those who wait, of those who put messages in and
of those who are dropped interleave. -/
theorem nobody_oversleeps (hr : h.Reachable) : h.Vigilant := by
  have hw := hr.watched
  refine ⟨fun n x hx hstage hwoken howed => ?_, fun n => ⟨rfl, rfl, rfl, fun _ _ => mem_drop⟩,
    hw.inOrder, hw.acc, hw.exists_atRest, fun h' hreach hrest n hn => ?_⟩
  · by_contra hready
    exact howed (hw.owed n x hx hstage hwoken hready)
  · have hw' := hw.reaches hreach
    obtain ⟨⟨n, x⟩, hx, rfl⟩ := List.mem_map.mp hn
    obtain ⟨era, -, hhome⟩ := hw'.told.home n _ (hw'.seats n x hx)
    exact ⟨era, hhome, hw'.delivered hrest hx hhome⟩

/-! ### A hall step by step -/

/-- What can happen in a hall. -/
inductive Act (α : Type)
  | call (c : Call α)
  | notify (i : Nat)
  | begin (n : Nat)
  | drop (n : Nat)
  /-- One who waits takes a step. -/
  | go (n : Nat)
deriving DecidableEq, Repr

/-- The hall after it has happened, if it can happen. -/
def act? (h : Hall α) : Act α → Option (Hall α)
  | .call (.next _) => none
  | .call c => some (h.call c)
  | .notify i => if i ∈ h.owed then some (h.notify i) else none
  | .begin n => do
    let s ← h.exchange.subscriptions[n]?
    if n ∈ h.waiters.map (·.1) then none else some (h.begin n s)
  | .drop n => some (h.drop n)
  | .go n => do
    let x ← h.waiters.lookup n
    match Waiting.step h.exchange.queue n x with
    | .waits y => some (h.put n y)
    | .served s q => some (h.serve s q)
    | .asleep => none

/-- The hall after some acts, if each can happen. -/
def acts? (h : Hall α) : List (Act α) → Option (Hall α)
  | [] => some h
  | a :: more => do (← h.act? a).acts? more

theorem runs_or_comes_of_act? {a : Act α} (ha : h.act? a = some h') :
    Runs h h' ∨ Comes h h' := by
  cases a with
  | call c =>
    cases c with
    | next => simp [act?] at ha
    | publish | publishSentinel | subscribe | ack | nack | stats | remove =>
      obtain rfl := Option.some.inj ha
      exact .inr (.call (by simp))
  | notify i =>
    rw [act?] at ha
    split at ha
    · next hi =>
      obtain rfl := Option.some.inj ha
      exact .inl (.notify hi)
    · simp at ha
  | begin n =>
    obtain ⟨s, hs, ha⟩ := Option.bind_eq_some_iff.mp ha
    split at ha
    · simp at ha
    · next hn =>
      obtain rfl := Option.some.inj ha
      exact .inr (.begin hs hn)
  | drop n =>
    obtain rfl := Option.some.inj ha
    exact .inr (.drop h n)
  | go n =>
    obtain ⟨x, hx, ha⟩ := Option.bind_eq_some_iff.mp ha
    split at ha
    · next hs =>
      obtain rfl := Option.some.inj ha
      exact .inl (.waits (mem_of_lookup hx) hs)
    · next hs =>
      obtain rfl := Option.some.inj ha
      exact .inl (.served (mem_of_lookup hx) hs)
    · simp at ha

/-- Whatever happens act by act comes up. -/
theorem Reachable.of_acts? {l : List (Act α)} (hr : h.Reachable) (ha : h.acts? l = some h') :
    h'.Reachable := by
  induction l generalizing h with
  | nil => exact Option.some.inj ha ▸ hr
  | cons a l ih =>
    obtain ⟨h₁, h₁eq, ha⟩ := Option.bind_eq_some_iff.mp ha
    exact ih (.tail hr (runs_or_comes_of_act? h₁eq)) ha

/-- Two subscriptions sleep, a message is put in, and both are woken; the second finds that the
first has taken it and sleeps again, and a third is dropped. -/
def night : List (Act Nat) :=
  [.call (.subscribe "t"), .call (.subscribe "t"), .call (.subscribe "t"), .begin 0, .go 0, .go 0,
    .begin 1, .go 1, .go 1, .begin 2, .go 2, .call (.publish "t" 7), .drop 2, .notify 0,
    .go 0, .go 0, .go 0, .go 1, .go 1, .go 1]

theorem nobody_oversleeps_night :
    ∃ h : Hall Nat, (empty : Hall Nat).acts? night = some h ∧ h.Vigilant ∧
      (1, ⟨⟨0, false⟩, .parked, false⟩) ∈ h.waiters ∧
      (h.exchange.queue.topicAt 0).ready = [] ∧
      received 0 h.log = [⟨"t", .item 7, 1, 1⟩] := by
  have hrun : ((empty : Hall Nat).acts? night).any (fun h =>
      h.waiters = [(1, ⟨⟨0, false⟩, .parked, false⟩)] ∧ h.owed = [] ∧
      received 0 h.log = [⟨"t", .item 7, 1, 1⟩]) = true := by decide +kernel
  obtain ⟨h, hacts, hend⟩ := (Option.any_eq_true _ _).mp hrun
  obtain ⟨hwaiters, howed, hreceived⟩ := of_decide_eq_true hend
  have hvigilant := nobody_oversleeps (Reachable.of_acts? .refl hacts)
  have hmem : (1, ⟨⟨0, false⟩, .parked, false⟩) ∈ h.waiters := by simp [hwaiters]
  exact ⟨h, hacts, hvigilant, hmem, hvigilant.awake _ _ hmem rfl rfl (by simp [howed]), hreceived⟩

end Hall

end Queue

end Roundtable

import Mathlib.Logic.Function.Basic
import Roundtable.Proofs.Queue.Exchange

/-!
# Each name a machine of its own

A queue serves all its names with one counter of ids, one index of deliveries and one list of
incarnations. **What there is of one name can be told apart from the rest**
(`Roundtable.Queue.Exchange.stall`): how often it was taken away, what its eras hold, and how
its subscriptions stand. This is all that a call on the name is answered from, and all that
such a call changes (`Roundtable.Queue.Exchange.Told.own`); a call on another name changes
nothing of it (`Roundtable.Queue.Exchange.Told.other`). The rest of the queue comes in by two
numbers only, the next id and the next number of a subscription.

Which name a call is about is told by the log: a message is taken under the name its
subscription was made on, and a delivery is acknowledged or refused under the name it was
published to. Calls with numbers that were not given out are about no name; to every name,
they are calls on something unknown.
-/

namespace Roundtable

namespace Queue

variable {α : Type}

/-! ### What a call is about -/

/-- **The name a call is about**, if its number was given out. -/
def Call.topic? (log : List (Dealing α)) : Call α → Option String
  | .publish topic _ | .publishSentinel topic | .subscribe topic | .stats topic
  | .remove topic => some topic
  | .next n => (homeOf? n log).map (·.topic)
  | .ack d | .nack d _ => (birthOf? d log).map (·.topic)

/-- The name under which something was done. -/
def Dealing.topic? (log : List (Dealing α)) : Dealing α → Option String
  | .act a => (eraFor log a).map (·.topic)
  | .subscribed topic _ | .removed topic => some topic

/-- What a call has done was done under the name it is about. -/
theorem Dealing.topic?_of {log : List (Dealing α)} {c : Call α} {r : Reply α} {d : Dealing α}
    (h : Dealing.of? c r = some d) : d.topic? log = c.topic? log := by
  unfold Dealing.of? at h
  split at h
  all_goals
    first
    | exact Option.some.inj h ▸ rfl
    | exact absurd h nofun

/-- A name is entered by what is done under it. -/
theorem Dealing.topic?_of_entered? {log : List (Dealing α)} {d : Dealing α} {topic : String}
    (h : d.entered? = some topic) : d.topic? log = some topic := by
  unfold Dealing.entered? at h
  split at h
  · exact h
  · exact h
  · exact absurd h nofun

/-! ### What an era holds -/

namespace Exchange

/-- What stands in the topic of an era; nothing, if the era has not begun. -/
def inEra (x : Exchange α) (log : List (Dealing α)) (era : Era) : Topic α :=
  x.queue.topicAt ((eras log).idxOf era)

namespace Told

variable {x y : Exchange α} {log : List (Dealing α)} {d : Dealing α} {era : Era} {i n : Nat}

theorem inEra_eq (h : x.Told log) (hi : (eras log)[i]? = some era) :
    x.inEra log era = x.queue.topicAt i := by
  obtain ⟨hlt, rfl⟩ := List.getElem?_eq_some_iff.mp hi
  rw [inEra, h.placed.distinct.idxOf_getElem i hlt]

theorem inEra_of_not_mem (h : x.Told log) (hera : era ∉ eras log) :
    x.inEra log era = .empty := by
  rw [inEra, List.idxOf_eq_length hera, ← h.placed.length]
  exact topicAt_of_length_le (Nat.le_refl _)

/-- The place of an era that begins holds nothing before. -/
theorem inEra_of_cons (h : x.Told log) (hi : (eras (d :: log))[i]? = some era) :
    x.inEra log era = x.queue.topicAt i := by
  cases hd : d.entered? with
  | none => exact h.inEra_eq (eras_of_entered?_eq_none hd ▸ hi)
  | some topic =>
    by_cases hmem : eraOf topic log ∈ eras log
    · exact h.inEra_eq (eras_of_mem hd hmem ▸ hi)
    · rw [eras_of_not_mem hd hmem, getElem?_concat_eq_some_iff] at hi
      rcases hi with hi | ⟨rfl, rfl⟩
      · exact h.inEra_eq hi
      · rw [h.inEra_of_not_mem hmem, ← h.placed.length, topicAt_of_length_le (Nat.le_refl _)]

/-- Two places of one list of eras are different if the eras are. -/
theorem place_ne {log : List (Dealing α)} {era' : Era} {j : Nat}
    (hi : (eras log)[i]? = some era) (hj : (eras log)[j]? = some era') (hne : era ≠ era') :
    j ≠ i := by
  rintro rfl
  exact hne (Option.some.inj (hi.symm.trans hj))

/-- **A dealing moves the topic of its era** and leaves those of the others. -/
theorem topicAt_deal (h : x.Told log) (hd : Deals x d y)
    (hne : ∀ a, d = .act a → eraFor log a ≠ some era) (hi : (eras (d :: log))[i]? = some era) :
    y.queue.topicAt i = x.queue.topicAt i := by
  cases hd with
  | publish topic p =>
    have hentered : (Dealing.act (.pushed ⟨topic, p, x.queue.nextId, 1⟩)).entered? = some topic :=
      rfl
    have hown := h.placed.getElem?_enter hentered
    have hother : i ≠ (x.queue.enter topic).1 :=
      place_ne hown hi fun heq => hne _ rfl (congrArg some heq)
    rw [enqueue_eq]
    exact (topicAt_setTopic_ne hother _).trans topicAt_enter
  | subscribe topic => exact topicAt_enter
  | @receive n s e t hs hf ht =>
    obtain ⟨era', hown, hhome⟩ := h.home n s hs
    exact topicAt_setTopic_ne (place_ne hown hi fun heq => hne _ rfl (hhome.trans (heq ▸ rfl))) _
  | ack hq =>
    obtain ⟨j, e, ho, -, rfl⟩ := ack_eq_ok_iff.mp hq
    obtain ⟨era', hown, hbirth⟩ := h.exists_of_owner? ho
    exact topicAt_setTopic_ne (place_ne hown hi fun heq => hne _ rfl (hbirth.trans (heq ▸ rfl))) _
  | requeue hq | discard hq =>
    obtain ⟨j, e, ho, -, rfl⟩ := nack_eq_ok_iff.mp hq
    obtain ⟨era', hown, hbirth⟩ := h.exists_of_owner? ho
    exact topicAt_setTopic_ne (place_ne hown hi fun heq => hne _ rfl (hbirth.trans (heq ▸ rfl))) _
  | @remove topic j hc => simp [Queue.remove, hc, topicAt]

/-- An era that nothing was done in holds what it held. -/
theorem inEra_deal (h : x.Told log) (hd : Deals x d y)
    (hne : ∀ a, d = .act a → eraFor log a ≠ some era) :
    y.inEra (d :: log) era = x.inEra log era := by
  by_cases hmem : era ∈ eras (d :: log)
  · obtain ⟨i, hi⟩ := List.mem_iff_getElem?.mp hmem
    rw [(h.deal hd).inEra_eq hi, h.topicAt_deal hd hne hi, h.inEra_of_cons hi]
  · rw [(h.deal hd).inEra_of_not_mem hmem, h.inEra_of_not_mem]
    exact fun hold => hmem ((prefix_eras_cons d log).subset hold)

end Told

end Exchange

/-! ### Stalls -/

/-- **All there is of one name.** -/
@[ext]
structure Stall (α : Type) where
  /-- How often the name was taken away. -/
  removals : Nat
  /-- The name is in use. -/
  inUse : Bool
  /-- What each era holds, by its number. -/
  content : Nat → Topic α
  /-- Of each subscription under the name, the number of its era and whether it has
  finished. -/
  seats : Nat → Option (Nat × Bool)

namespace Stall

variable (σ : Stall α)

/-- What stands under the name now. -/
def present : Topic α := σ.content σ.removals

/-- Puts something in the place of what an era holds. -/
def put (k : Nat) (t : Topic α) : Stall α :=
  { σ with content := Function.update σ.content k t }

/-- Tells how a subscription stands. -/
def seat (n k : Nat) (finished : Bool) : Stall α :=
  { σ with seats := Function.update σ.seats n (some (k, finished)) }

/-- A message comes in under an id. -/
def push (topic : String) (id : Nat) (p : Payload α) : Stall α :=
  { σ.put σ.removals (σ.present.push ⟨topic, p, id, 1⟩) with inUse := true }

/-- What is said about a delivery: taken if it is in flight, refused otherwise. -/
def settle (d : Nat) (move : Envelope α → Topic α → Topic α) : Reply α × Stall α :=
  match σ.present.held? d with
  | some e => (.settled, σ.put σ.removals (move e σ.present))
  | none =>
    (.refused (if d ∈ σ.present.ids then .notInFlight d else .unknownDelivery d), σ)

/-- **Answers a call on the name** by what there is of it. The next message gets the id `id`
and the next subscription the number `n`. -/
def answer (topic : String) (id n : Nat) : Call α → Reply α × Stall α
  | .publish _ v => (.published id, σ.push topic id (.item v))
  | .publishSentinel _ => (.published id, σ.push topic id .sentinel)
  | .subscribe _ => (.subscribed n, { σ.seat n σ.removals false with inUse := true })
  | .next m =>
    match σ.seats m with
    | none => (.stranger, σ)
    | some (_, true) => (.attempt .ended, σ)
    | some (k, false) =>
      match (σ.content k).take with
      | none => (.attempt .pending, σ)
      | some (e, t) => (.attempt (.message e), (σ.put k t).seat m k e.payload.isSentinel)
  | .ack d => σ.settle d fun _ t => t.ack d
  | .nack d true => σ.settle d fun e t => t.requeue e
  | .nack d false => σ.settle d fun _ t => t.discard d
  | .stats _ => (.stats (if σ.inUse then some σ.present.stats else none), σ)
  | .remove _ =>
    if σ.inUse then
      (.stats (some σ.present.stats), { σ with removals := σ.removals + 1, inUse := false })
    else (.stats none, σ)

end Stall

namespace Exchange

/-- How a subscription stands, if it was made under the name. -/
def seat? (topic : String) (x : Exchange α) (log : List (Dealing α)) (n : Nat) :
    Option (Nat × Bool) := do
  let s ← x.subscriptions[n]?
  let era ← homeOf? n log
  if era.topic = topic then some (era.number, s.finished) else none

/-- **All there is of a name** in a queue with its log. -/
def stall (topic : String) (p : Exchange α × List (Dealing α)) : Stall α where
  removals := Queue.removals topic p.2
  inUse := decide (eraOf topic p.2 ∈ eras p.2)
  content k := p.1.inEra p.2 ⟨topic, k⟩
  seats := seat? topic p.1 p.2

/-- **A call that settles a delivery**: one in flight is moved, and for any other the call is
refused. -/
structure Settles (x : Exchange α) (c : Call α) (k : Nat) (a : Topic.Act α)
    (m : Envelope α → Topic α → Topic α) : Prop where
  unknown : x.queue.owner? k = none → x.call c = (.refused (.unknownDelivery k), x)
  waits : ∀ i, x.queue.owner? k = some i → (x.queue.topicAt i).held? k = none →
    x.call c = (.refused (.notInFlight k), x)
  taken : ∀ i e, x.queue.owner? k = some i → (x.queue.topicAt i).held? k = some e →
    ∃ q, x.call c = (.settled, { x with queue := q }) ∧
      Deals x (.act a) { x with queue := q } ∧
      (i < x.queue.topics.length → q.topicAt i = m e (x.queue.topicAt i))
  noted : Dealing.of? c .settled = some (.act a)
  refused : ∀ e, Dealing.of? c (.refused e : Reply α) = none
  enters : (Dealing.act a).entered? = none
  era : ∀ log, eraFor log a = birthOf? k log

theorem Settles.ack (x : Exchange α) (k : Nat) :
    Settles x (.ack k) k (.acked k) fun _ t => t.ack k where
  unknown ho := by simp [call, Queue.ack, ho]
  waits i ho hh := by simp [call, Queue.ack, ho, hh]
  taken i e ho hh := by
    have hq := ack_eq_ok_iff.mpr ⟨i, e, ho, hh, rfl⟩
    exact ⟨_, by simp only [call, hq], .ack hq, fun hlt => topicAt_setTopic_self hlt _⟩
  noted := rfl
  refused _ := rfl
  enters := rfl
  era _ := rfl

theorem Settles.requeue (x : Exchange α) (k : Nat) :
    Settles x (.nack k true) k (.requeued k) fun e t => t.requeue e where
  unknown ho := by simp [call, Queue.nack, ho]
  waits i ho hh := by simp [call, Queue.nack, ho, hh]
  taken i e ho hh := by
    have hq := nack_eq_ok_iff.mpr ⟨i, e, ho, hh, (if_pos rfl).symm⟩
    exact ⟨_, by simp only [call, hq], .requeue hq, fun hlt => topicAt_setTopic_self hlt _⟩
  noted := rfl
  refused _ := rfl
  enters := rfl
  era _ := rfl

theorem Settles.discard (x : Exchange α) (k : Nat) :
    Settles x (.nack k false) k (.discarded k) fun _ t => t.discard k where
  unknown ho := by simp [call, Queue.nack, ho]
  waits i ho hh := by simp [call, Queue.nack, ho, hh]
  taken i e ho hh := by
    have hq := nack_eq_ok_iff.mpr ⟨i, e, ho, hh, (if_neg Bool.false_ne_true).symm⟩
    exact ⟨_, by simp only [call, hq], .discard hq, fun hlt => topicAt_setTopic_self hlt _⟩
  noted := rfl
  refused _ := rfl
  enters := rfl
  era _ := rfl

namespace Told

variable {x y : Exchange α} {log : List (Dealing α)} {d : Dealing α} {c : Call α}
  {topic u : String} {n : Nat}

/-! ### Calls on another name -/

/-- How a subscription stands is told by itself and by the name it was made on. -/
theorem seat?_congr (hs : y.subscriptions[n]? = x.subscriptions[n]?)
    (hh : homeOf? n (d :: log) = homeOf? n log) :
    seat? topic y (d :: log) n = seat? topic x log n := by
  rw [seat?, seat?, hs, hh]

theorem seat?_eq_none {era : Era} (hh : homeOf? n log = some era)
    (hne : era.topic ≠ topic) : seat? topic x log n = none := by
  cases hs : x.subscriptions[n]? <;> simp [seat?, hs, hh, hne]

theorem seat?_deal_ne (hd : Deals x d y) (hu : d.topic? log = some u) (hne : u ≠ topic)
    (n : Nat) : seat? topic y (d :: log) n = seat? topic x log n := by
  cases hd with
  | publish | ack | requeue | discard | remove => rfl
  | subscribe v =>
    obtain rfl : v = u := Option.some.inj hu
    rcases eq_or_ne x.subscriptions.length n with rfl | hn
    · have hhome : homeOf? x.subscriptions.length (.subscribed v x.subscriptions.length :: log) =
          some (eraOf v log) := if_pos rfl
      rw [seat?_eq_none hhome hne]
      simp [seat?]
    · exact seat?_congr (getElem?_concat_of_ne hn.symm) (if_neg hn)
  | @receive m s e t hs hf ht =>
    rcases eq_or_ne m n with rfl | hn
    · obtain ⟨era, hera, rfl⟩ := Option.map_eq_some_iff.mp hu
      have hhome : homeOf? m (.act (.taken m e) :: log) = some era := hera
      rw [seat?_eq_none (x := x) hera hne, seat?_eq_none hhome hne]
    · exact seat?_congr (List.getElem?_set_ne hn) rfl

/-- **What is done under another name** leaves all there is of a name. -/
theorem stall_deal_ne (h : x.Told log) (hd : Deals x d y) (hu : d.topic? log = some u)
    (hne : u ≠ topic) : stall topic (y, d :: log) = stall topic (x, log) := by
  have hera : eraOf topic (d :: log) = eraOf topic log := by
    cases hd with
    | publish | subscribe | receive | ack | requeue | discard => rfl
    | remove =>
      obtain rfl := Option.some.inj hu
      simp [eraOf, removals, hne]
  have hmem : eraOf topic log ∈ eras (d :: log) ↔ eraOf topic log ∈ eras log := by
    refine ⟨fun hmem => ?_, fun hmem => (prefix_eras_cons d log).subset hmem⟩
    cases hentered : d.entered? with
    | none => exact eras_of_entered?_eq_none hentered ▸ hmem
    | some v =>
      by_cases hold : eraOf v log ∈ eras log
      · exact eras_of_mem hentered hold ▸ hmem
      · obtain rfl : v = u := Option.some.inj ((Dealing.topic?_of_entered? hentered).symm.trans hu)
        rw [eras_of_not_mem hentered hold, List.mem_append, List.mem_singleton] at hmem
        exact hmem.resolve_right fun heq => hne (congrArg Era.topic heq).symm
  refine Stall.ext (congrArg Era.number hera) ?_ ?_ (funext (seat?_deal_ne hd hu hne))
  · simp only [stall, hera, hmem]
  · funext k
    refine h.inEra_deal hd ?_
    rintro a rfl ha
    rw [Dealing.topic?, ha] at hu
    exact hne (Option.some.inj hu).symm

/-- **A call on another name** leaves all there is of a name. -/
theorem other (h : x.Told log) (hc : c.topic? log = some u) (hne : u ≠ topic) :
    stall topic (serve (x, log) c) = stall topic (x, log) := by
  rw [serve]
  obtain ⟨hnone, hsame⟩ | ⟨d, hsome, hd⟩ := x.call_cases c
  · rw [hnone, hsame]
    rfl
  · rw [hsome]
    exact h.stall_deal_ne hd ((Dealing.topic?_of hsome).trans hc) hne

/-! ### Calls on the name itself -/

/-- Of what a name's eras hold, an act changes that of its own era. -/
theorem content_deal (h : x.Told log) {a : Topic.Act α} (hd : Deals x (.act a) y) {k : Nat}
    {t : Topic α} (hera : eraFor log a = some ⟨topic, k⟩)
    (ht : y.inEra (.act a :: log) ⟨topic, k⟩ = t) :
    (stall topic (y, .act a :: log)).content =
      Function.update (stall topic (x, log)).content k t := by
  funext j
  rcases eq_or_ne j k with rfl | hne
  · rw [Function.update_self]
    exact ht
  · rw [Function.update_of_ne hne]
    refine h.inEra_deal hd ?_
    rintro b ⟨⟩ hb
    exact hne (congrArg Era.number (Option.some.inj (hera.symm.trans hb))).symm

/-- **An act that publishes nothing** changes what its era holds, and how the subscriptions
stand. -/
theorem stall_act (h : x.Told log) {a : Topic.Act α} (hd : Deals x (.act a) y)
    (ha : (Dealing.act a).entered? = none) {i k : Nat} {t : Topic α}
    (hera : eraFor log a = some ⟨topic, k⟩) (hi : (eras log)[i]? = some ⟨topic, k⟩)
    (ht : y.queue.topicAt i = t) :
    stall topic (y, .act a :: log) =
      { (stall topic (x, log)).put k t with seats := seat? topic y (.act a :: log) } := by
  have heras : eras (.act a :: log) = eras log := eras_of_entered?_eq_none ha
  have hown : y.inEra (.act a :: log) ⟨topic, k⟩ = t :=
    ((h.deal hd).inEra_eq (heras ▸ hi)).trans ht
  refine Stall.ext rfl ?_ (h.content_deal hd hera hown) rfl
  simp only [stall, Stall.put, heras]
  rfl

/-- A message that is published under a name joins what stands there. -/
theorem stall_publish (h : x.Told log) (topic : String) (p : Payload α) :
    stall topic ({ x with queue := (x.queue.enqueue topic p).2 },
        .act (.pushed ⟨topic, p, x.queue.nextId, 1⟩) :: log) =
      (stall topic (x, log)).push topic x.queue.nextId p := by
  have hd := Deals.publish x topic p
  have hentered : (Dealing.act (.pushed ⟨topic, p, x.queue.nextId, 1⟩)).entered? = some topic :=
    rfl
  have hi := h.placed.getElem?_enter hentered
  have hlt := (h.placed.enter hentered).lt_length hi
  have hown := (h.deal hd).inEra_eq hi
  have hpush : (x.queue.enqueue topic p).2.topicAt (x.queue.enter topic).1 =
      (x.inEra log (eraOf topic log)).push ⟨topic, p, x.queue.nextId, 1⟩ := by
    rw [h.inEra_of_cons hi, enqueue_eq]
    refine (topicAt_setTopic_self hlt _).trans ?_
    rw [topicAt_enter, nextId_enter]
  refine Stall.ext rfl ?_ (h.content_deal hd rfl (hown.trans hpush)) rfl
  exact decide_eq_true (mem_eras_of_entered? hentered)

theorem stall_subscribe (h : x.Told log) (topic : String) :
    stall topic (⟨(x.queue.subscribe topic).2, x.subscriptions ++ [(x.queue.subscribe topic).1]⟩,
        .subscribed topic x.subscriptions.length :: log) =
      { (stall topic (x, log)).seat x.subscriptions.length (removals topic log) false with
        inUse := true } := by
  have hd := Deals.subscribe x topic
  refine Stall.ext rfl ?_ (funext fun k => h.inEra_deal hd (by rintro a ⟨⟩)) (funext fun n => ?_)
  · exact decide_eq_true (mem_eras_of_entered? rfl)
  · simp only [stall, Stall.seat, Function.update_apply]
    split
    · next heq =>
      subst heq
      simp [seat?, homeOf?, eraOf, Queue.subscribe]
    · next hne =>
      exact seat?_congr (getElem?_concat_of_ne hne) (if_neg (Ne.symm hne))

theorem stall_remove (h : x.Told log) {i : Nat} (hc : x.queue.current? topic = some i) :
    stall topic ({ x with queue := (x.queue.remove topic).2 }, .removed topic :: log) =
      { stall topic (x, log) with removals := removals topic log + 1, inUse := false } := by
  have hd := Deals.remove hc
  have hremovals : removals topic (.removed topic :: log : List (Dealing α)) =
      removals topic log + 1 := by
    rw [removals, if_pos rfl]
  refine Stall.ext hremovals ?_ (funext fun k => h.inEra_deal hd (by rintro a ⟨⟩)) rfl
  -- No era is ahead of the one the name was in.
  refine decide_eq_false fun hmem => Nat.not_succ_le_self (removals topic log) ?_
  have heras : eras (.removed topic :: log) = eras log := eras_of_entered?_eq_none rfl
  rw [eraOf, hremovals, heras] at hmem
  exact h.placed.past _ hmem

/-! ### Settling a delivery -/

/-- **Where a delivery is looked for**: the index finds what stands under the name, unless the
delivery was published under another. -/
theorem owner?_cases (h : x.Told log) {d : Nat}
    (hd : ∀ u ∈ (birthOf? d log).map (·.topic), u = topic) :
    x.queue.owner? d = none ∧ d ∉ (stall topic (x, log)).present.ids ∨
    ∃ i, x.queue.owner? d = some i ∧ (eras log)[i]? = some (eraOf topic log) ∧
      x.queue.topicAt i = (stall topic (x, log)).present ∧
      d ∈ (stall topic (x, log)).present.ids ∧ birthOf? d log = some (eraOf topic log) := by
  cases ho : x.queue.owner? d with
  | none =>
    refine .inl ⟨rfl, fun hmem => ?_⟩
    by_cases hera : eraOf topic log ∈ eras log
    · obtain ⟨i, hi⟩ := List.mem_iff_getElem?.mp hera
      have hown : d ∈ (x.queue.topicAt i).ids := h.inEra_eq hi ▸ hmem
      rw [h.sound.owner?_of_mem ((h.placed.current topic i).mpr hi) hown] at ho
      exact absurd ho nofun
    · have hempty : (stall topic (x, log)).present = .empty := h.inEra_of_not_mem hera
      simp [hempty, Topic.ids, Topic.empty] at hmem
  | some i =>
    obtain ⟨u, -, hname, hmem⟩ := h.sound.exists_of_owner? ho
    have hi := (h.placed.current u i).mp (h.sound.current?_eq_some_iff.mpr hname)
    have hbirth := h.birthOf?_eq hi hmem
    obtain rfl : u = topic := hd u (by simp [hbirth, eraOf])
    have hpresent : x.queue.topicAt i = (stall u (x, log)).present := (h.inEra_eq hi).symm
    exact .inr ⟨i, rfl, hi, hpresent, hpresent ▸ hmem, hbirth⟩

/-- **A delivery is settled under its name**, if the index finds it in flight. -/
theorem own_settle (h : x.Told log) {k : Nat} {a : Topic.Act α}
    {m : Envelope α → Topic α → Topic α}
    (hk : ∀ u ∈ (birthOf? k log).map (·.topic), u = topic) (hs : Settles x c k a m) :
    ((x.call c).1, stall topic (serve (x, log) c)) =
      (stall topic (x, log)).settle k m := by
  rw [serve, Stall.settle]
  rcases h.owner?_cases hk with ⟨ho, hids⟩ | ⟨i, ho, hi, hpresent, hids, hbirth⟩
  · have hheld : (stall topic (x, log)).present.held? k = none := by
      refine Topic.held?_eq_none_iff.mpr fun hmem => hids ?_
      rw [Topic.ids, List.map_append]
      exact List.mem_append_right _ hmem
    simp [hs.unknown ho, hheld, hids, hs.refused]
  · cases hheld : (stall topic (x, log)).present.held? k with
    | none => simp [hs.waits i ho (hpresent ▸ hheld), hids, hs.refused]
    | some e =>
      obtain ⟨q, hcall, hd, hq⟩ := hs.taken i e ho (hpresent ▸ hheld)
      have htopic := (hq (h.placed.lt_length hi)).trans (congrArg (m e) hpresent)
      simp only [hcall, hs.noted, Option.toList_some, List.singleton_append]
      have hera := (hs.era log).trans hbirth
      refine Prod.ext rfl ((h.stall_act hd hs.enters hera hi htopic).trans ?_)
      exact Stall.ext rfl rfl rfl rfl

/-! ### Any call -/

/-- A name stands for what its present era holds, if that has begun. -/
theorem current?_cases (h : x.Told log) (topic : String) :
    x.queue.current? topic = none ∧ (stall topic (x, log)).inUse = false ∨
    ∃ i, x.queue.current? topic = some i ∧ (stall topic (x, log)).inUse = true ∧
      x.queue.topicAt i = (stall topic (x, log)).present := by
  cases hc : x.queue.current? topic with
  | none =>
    refine .inl ⟨rfl, decide_eq_false fun hmem => ?_⟩
    obtain ⟨i, hi⟩ := List.mem_iff_getElem?.mp hmem
    exact absurd (((h.placed.current topic i).mpr hi).symm.trans hc) nofun
  | some i =>
    have hi := (h.placed.current topic i).mp hc
    exact .inr ⟨i, rfl, decide_eq_true (List.mem_of_getElem? hi), (h.inEra_eq hi).symm⟩

/-- **A subscription takes from the era it was made in.** -/
theorem own_next (h : x.Told log) (hc : ∀ u ∈ (homeOf? n log).map (·.topic), u = topic) :
    ((x.call (.next n)).1, stall topic (serve (x, log) (.next n))) =
      (stall topic (x, log)).answer topic x.queue.nextId x.subscriptions.length (.next n) := by
  cases hs : x.subscriptions[n]? with
  | none =>
    have hseat : (stall topic (x, log)).seats n = none := by simp [stall, seat?, hs]
    simp [call, serve, hs, Stall.answer, hseat, Dealing.of?]
  | some s =>
    obtain ⟨⟨u, k⟩, hi, hhome⟩ := h.home n s hs
    obtain rfl : u = topic := hc u (by simp [hhome])
    have hseat : (stall u (x, log)).seats n = some (k, s.finished) := by
      simp [stall, seat?, hs, hhome]
    have hcontent : x.queue.topicAt s.incarnation = (stall u (x, log)).content k :=
      (h.inEra_eq hi).symm
    have hsame : x.subscriptions.set n s = x.subscriptions := by
      obtain ⟨hn, rfl⟩ := List.getElem?_eq_some_iff.mp hs
      exact List.set_getElem_self hn
    obtain ⟨hq, hf⟩ | ⟨hq, hf, hready⟩ | ⟨e, t, hq, hf, ht⟩ := next_cases x.queue s
    · simp [call, serve, hs, hq, Stall.answer, hseat, hf, Dealing.of?, hsame]
    · have htake := Topic.take_eq_none_iff.mpr (hcontent ▸ hready)
      simp [call, serve, hs, hq, Stall.answer, hseat, hf, htake, Dealing.of?, hsame]
    · have hd := Deals.receive hs hf ht
      have htopic := topicAt_setTopic_self (h.placed.lt_length hi) t
      rw [hcontent] at ht
      simp only [Stall.answer, hseat, hf, ht, serve, call, hs, hq, Dealing.of?,
        Option.toList_some, List.singleton_append]
      refine Prod.ext rfl ((h.stall_act hd rfl hhome hi htopic).trans ?_)
      refine Stall.ext rfl rfl rfl (funext fun m => ?_)
      simp only [stall, Stall.seat, Stall.put, Function.update_apply]
      split
      · next heq =>
        subst heq
        have hm := (List.getElem?_eq_some_iff.mp hs).1
        simp [seat?, homeOf?, hhome, hm]
      · next hne => exact seat?_congr (List.getElem?_set_ne (Ne.symm hne)) rfl

/-- **A call on a name is answered from what there is of the name**, and changes nothing of the
queue but that; so is a call with a number that was not given out. -/
theorem own (h : x.Told log) (hc : ∀ u ∈ c.topic? log, u = topic) :
    ((x.call c).1, stall topic (serve (x, log) c)) =
      (stall topic (x, log)).answer topic x.queue.nextId x.subscriptions.length c := by
  cases c with
  | publish u v =>
    obtain rfl : u = topic := hc u rfl
    refine Prod.ext ?_ (Eq.trans ?_ (h.stall_publish u (.item v)))
    · simp [call, Queue.publish, enqueue_eq, Stall.answer]
    · simp [serve, call, Queue.publish, enqueue_eq, Dealing.of?]
  | publishSentinel u =>
    obtain rfl : u = topic := hc u rfl
    refine Prod.ext ?_ (Eq.trans ?_ (h.stall_publish u .sentinel))
    · simp [call, Queue.publishSentinel, enqueue_eq, Stall.answer]
    · simp [serve, call, Queue.publishSentinel, enqueue_eq, Dealing.of?]
  | subscribe u =>
    obtain rfl : u = topic := hc u rfl
    exact Prod.ext rfl (h.stall_subscribe u)
  | next n => exact h.own_next hc
  | ack k => exact h.own_settle hc (.ack x k)
  | nack k requeue =>
    cases requeue with
    | true => exact h.own_settle hc (.requeue x k)
    | false => exact h.own_settle hc (.discard x k)
  | stats u =>
    obtain rfl : u = topic := hc u rfl
    obtain ⟨hnone, hout⟩ | ⟨i, hi, hin, hpresent⟩ := h.current?_cases u
    · simp [call, serve, stats?, hnone, Stall.answer, hout, Dealing.of?]
    · simp [call, serve, stats?, hi, Stall.answer, hin, hpresent, Dealing.of?]
  | remove u =>
    obtain rfl : u = topic := hc u rfl
    obtain ⟨hnone, hout⟩ | ⟨i, hi, hin, hpresent⟩ := h.current?_cases u
    · simp [call, serve, Queue.remove, hnone, Stall.answer, hout, Dealing.of?]
    · have hreply : (x.queue.remove u).1 = some (stall u (x, log)).present.stats := by
        simp [Queue.remove, hi, hpresent]
      have hof : Dealing.of? (.remove u) (x.call (.remove u)).1 = some (.removed u) := by
        simp [call, hreply, Dealing.of?]
      rw [Stall.answer, hin, if_pos rfl, serve, hof]
      exact Prod.ext (congrArg Reply.stats hreply) (h.stall_remove hi)

end Told

end Exchange

end Queue

end Roundtable

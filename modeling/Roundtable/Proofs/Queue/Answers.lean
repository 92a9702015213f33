import Roundtable.Proofs.Queue.Exchange

/-!
# What an acknowledgement is answered

The queue answers an acknowledgement or a refusal from two tables and the messages of one
topic. The log tells the same without any of them
(`Roundtable.Queue.Exchange.exact_answers`): **the last act on a delivery tells how it
stands** (`Roundtable.Topic.standing?`), and its way is open as long as the name it was
published under has not been taken away since (`Roundtable.Queue.Stands`).

| the delivery | is answered |
|---|---|
| is in flight, its way open | taken |
| waits, its way open | not in flight |
| was never given out, is done with, or its way is closed | unknown |

The way of a delivery is told by the era it was published in, not by its name: it stays closed
when a topic of the same name comes up again, and also when a subscription from before goes on
receiving from the old one. An answer that refuses leaves everything as it is, and what is
left over from a closed era reaches nothing that has a name (`Roundtable.Queue.Bygone`).
-/

namespace Roundtable

/-! ### How a delivery stands -/

namespace Topic

variable {α : Type}

/-- How a delivery stands. -/
inductive Standing
  /-- It was published or put back, and not delivered since. -/
  | waiting
  /-- It was delivered, and nothing was said about it since. -/
  | held
  | acked
  | discarded
deriving DecidableEq, Repr

/-- The id of the delivery that an act is about. -/
def Act.id : Act α → Nat
  | .pushed e | .taken _ e => e.id
  | .acked d | .requeued d | .discarded d => d

/-- How a delivery stands after an act on it. -/
def Act.standing : Act α → Standing
  | .pushed _ | .requeued _ => .waiting
  | .taken .. => .held
  | .acked _ => .acked
  | .discarded _ => .discarded

/-- **How a delivery stands by the last act on it**; one that no act is about was never given
out. -/
def standing? (d : Nat) : List (Act α) → Option Standing
  | [] => none
  | a :: acts => if a.id = d then some a.standing else standing? d acts

/-- The ids that stand so in a topic. A topic holds nothing that is done with. -/
def idsAt (t : Topic α) : Standing → List Nat
  | .waiting => t.ready.map (·.id)
  | .held => t.inFlight.map (·.id)
  | .acked | .discarded => []

variable {acts : List (Act α)} {t : Topic α} {a : Act α} {e : Envelope α} {d : Nat}
  {s : Standing}

theorem standing?_self (h : a.id = d) : standing? d (a :: acts) = some a.standing := if_pos h

theorem standing?_ne (h : a.id ≠ d) : standing? d (a :: acts) = standing? d acts := if_neg h

theorem mem_ids_of_mem_idsAt (h : d ∈ t.idsAt s) : d ∈ t.ids := by
  rw [ids, List.map_append, List.mem_append]
  cases s with
  | waiting => exact .inl h
  | held => exact .inr h
  | acked | discarded => simp [idsAt] at h

theorem mem_ids_iff : d ∈ t.ids ↔ d ∈ t.idsAt .waiting ∨ d ∈ t.idsAt .held := by
  rw [ids, List.map_append, List.mem_append, idsAt, idsAt]

/-- What is in flight but for one id. -/
theorem mem_ids_release {x : Nat} :
    d ∈ (t.release x).map (·.id) ↔ d ∈ t.inFlight.map (·.id) ∧ d ≠ x := by
  simp only [release, List.mem_map, List.mem_filter, bne_iff_ne]
  constructor
  · rintro ⟨e, ⟨he, hne⟩, rfl⟩
    exact ⟨⟨e, he, rfl⟩, hne⟩
  · rintro ⟨⟨e, he, rfl⟩, hne⟩
    exact ⟨e, ⟨he, hne⟩, rfl⟩

/-- A message in flight does not wait. -/
theorem not_mem_ready_of_inFlight (hn : t.ids.Nodup) (he : e ∈ t.inFlight) :
    e.id ∉ t.ready.map (·.id) := by
  rintro hready
  obtain ⟨x, hx, hid⟩ := List.mem_map.mp hready
  exact id_ne_of_nodup hn hx he hid

/-- **What a topic holds stands as the last act on it says.** -/
theorem Lives.mem_idsAt_iff (h : Lives acts t) :
    (d ∈ t.idsAt .waiting ↔ standing? d acts = some .waiting) ∧
    (d ∈ t.idsAt .held ↔ standing? d acts = some .held) := by
  induction h with
  | born => simp [idsAt, Topic.empty, standing?]
  | @push acts t e h _ hnew ih =>
    simp only [idsAt, Topic.push, List.map_append, List.mem_append, List.map_singleton,
      List.mem_singleton] at ih ⊢
    rcases eq_or_ne e.id d with rfl | hne
    · -- A new id is not in flight yet.
      have hout : e.id ∉ t.inFlight.map (·.id) := fun hin =>
        hnew (h.mem_published_of_mem_ids (mem_ids_of_mem_idsAt (s := .held) hin))
      simp [standing?, Act.id, Act.standing, hout]
    · simpa [standing?, Act.id, hne, hne.symm] using ih
  | @take acts t t' e h n ht ih =>
    have hn := h.nodup_ids
    obtain ⟨r, hr, rfl⟩ := take_eq_some_iff.mp ht
    simp only [idsAt, hr, List.map_append, List.mem_append, List.map_cons, List.mem_cons,
      List.map_nil, List.not_mem_nil, or_false] at ih ⊢
    rcases eq_or_ne e.id d with rfl | hne
    · have hout : e.id ∉ r.map (·.id) := by
        rw [ids, hr, List.cons_append, List.map_cons, List.map_append] at hn
        exact fun hin => (List.nodup_cons.mp hn).1 (List.mem_append_left _ hin)
      simp [standing?, Act.id, Act.standing, hout]
    · simpa [standing?, Act.id, hne, hne.symm] using ih
  | @ack acts t e h he ih =>
    have hout := not_mem_ready_of_inFlight h.nodup_ids he
    simp only [idsAt, Topic.ack, mem_ids_release] at ih ⊢
    rcases eq_or_ne e.id d with rfl | hne
    · simp [standing?, Act.id, Act.standing, hout]
    · simpa [standing?, Act.id, hne, hne.symm] using ih
  | @requeue acts t e h he ih =>
    simp only [idsAt, Topic.requeue, mem_ids_release, List.map_append, List.mem_append,
      List.map_singleton, List.mem_singleton] at ih ⊢
    rcases eq_or_ne e.id d with rfl | hne
    · simp [standing?, Act.id, Act.standing]
    · simpa [standing?, Act.id, hne, hne.symm] using ih
  | @discard acts t e h he ih =>
    have hout := not_mem_ready_of_inFlight h.nodup_ids he
    simp only [idsAt, Topic.discard, mem_ids_release] at ih ⊢
    rcases eq_or_ne e.id d with rfl | hne
    · simp [standing?, Act.id, Act.standing, hout]
    · simpa [standing?, Act.id, hne, hne.symm] using ih

end Topic

namespace Queue

variable {α : Type}

/-- The acts of a log, whatever era they belong to. -/
def acts : List (Dealing α) → List (Topic.Act α)
  | [] => []
  | .act a :: log => a :: acts log
  | _ :: log => acts log

/-- **The delivery stands so, and its way is open**: the name it was published under has not
been taken away since. -/
def Stands (log : List (Dealing α)) (d : Nat) (s : Topic.Standing) : Prop :=
  ∃ era, birthOf? d log = some era ∧ eraOf era.topic log = era ∧
    Topic.standing? d (acts log) = some s

/-- **Nothing is known of the delivery**: it was never given out, it is done with, or the name
it was published under was taken away since. -/
def Unknown (log : List (Dealing α)) (d : Nat) : Prop :=
  birthOf? d log = none ∨ Topic.standing? d (acts log) = some .acked ∨
    Topic.standing? d (acts log) = some .discarded ∨
    ∃ era, birthOf? d log = some era ∧ eraOf era.topic log ≠ era

/-- **The call is about something left over**: a delivery or a subscription of an era that is
over. -/
inductive Bygone (log : List (Dealing α)) : Call α → Prop
  | ack {d : Nat} {era : Era} (h : birthOf? d log = some era)
      (hover : eraOf era.topic log ≠ era) : Bygone log (.ack d)
  | nack {d : Nat} {era : Era} (requeue : Bool) (h : birthOf? d log = some era)
      (hover : eraOf era.topic log ≠ era) : Bygone log (.nack d requeue)
  | next {n : Nat} {era : Era} (h : homeOf? n log = some era)
      (hover : eraOf era.topic log ≠ era) : Bygone log (.next n)

/-- The calls that settle a delivery. -/
def settlements (d : Nat) : List (Call α) := [.ack d, .nack d true, .nack d false]

/-! ### What the log alone tells of a delivery -/

section Log

variable {log : List (Dealing α)} {a : Topic.Act α} {era : Era} {d : Nat}

/-- **The acts on a delivery are all in the books of the era it was published in.** -/
def Traced (log : List (Dealing α)) : Prop :=
  ∀ d, Topic.standing? d (acts log) =
    (birthOf? d log).bind fun era => Topic.standing? d (actsIn era log)

/-- An id that was given out stands somehow. -/
theorem exists_standing? (h : birthOf? d log = some era) :
    ∃ s, Topic.standing? d (acts log) = some s := by
  induction log with
  | nil => simp [birthOf?] at h
  | cons e log ih =>
    cases e with
    | subscribed | removed => exact ih h
    | act a =>
      rcases eq_or_ne a.id d with hid | hne
      · exact ⟨_, Topic.standing?_self hid⟩
      · rw [acts, Topic.standing?_ne hne]
        cases a with
        | pushed e => exact ih ((if_neg hne).symm.trans h)
        | taken | acked | requeued | discarded => exact ih h

/-- A delivery stands in one way. -/
theorem Stands.unique {s s' : Topic.Standing} (h : Stands log d s) (h' : Stands log d s') :
    s = s' := by
  obtain ⟨-, -, -, hs⟩ := h
  obtain ⟨-, -, -, hs'⟩ := h'
  exact Option.some.inj (hs.symm.trans hs')

/-- **Unknown is whatever neither waits nor is held** with its way open. -/
theorem unknown_iff : Unknown log d ↔ ¬Stands log d .waiting ∧ ¬Stands log d .held := by
  have hnot {s : Topic.Standing} (h : Unknown log d) (hs : s = .waiting ∨ s = .held) :
      ¬Stands log d s := by
    rintro ⟨era, hbirth, hopen, hstands⟩
    obtain hnone | hacked | hdiscarded | ⟨other, hother, hover⟩ := h
    · simp [hbirth] at hnone
    · obtain rfl | rfl := hs <;> simp [hacked] at hstands
    · obtain rfl | rfl := hs <;> simp [hdiscarded] at hstands
    · obtain rfl : era = other := Option.some.inj (hbirth.symm.trans hother)
      exact hover hopen
  refine ⟨fun h => ⟨hnot h (.inl rfl), hnot h (.inr rfl)⟩, fun ⟨hwaiting, hheld⟩ => ?_⟩
  cases hbirth : birthOf? d log with
  | none => exact .inl hbirth
  | some era =>
    by_cases hopen : eraOf era.topic log = era
    · obtain ⟨s, hs⟩ := exists_standing? hbirth
      cases s with
      | waiting => exact (hwaiting ⟨era, hbirth, hopen, hs⟩).elim
      | held => exact (hheld ⟨era, hbirth, hopen, hs⟩).elim
      | acked => exact .inr (.inl hs)
      | discarded => exact .inr (.inr (.inl hs))
    · exact .inr (.inr (.inr ⟨era, hbirth, hopen⟩))

theorem standing?_actsIn_ne (h : a.id ≠ d) :
    Topic.standing? d (actsIn era (.act a :: log)) = Topic.standing? d (actsIn era log) := by
  rw [actsIn]
  split
  · exact Topic.standing?_ne h
  · rfl

/-- **An act is traced** if it belongs to the era its delivery was published in. -/
theorem Traced.act (h : Traced log) (hbirth : birthOf? a.id (.act a :: log) = some era)
    (hera : eraFor log a = some era)
    (hother : ∀ d, a.id ≠ d → birthOf? d (.act a :: log) = birthOf? d log) :
    Traced (.act a :: log) := by
  intro d
  rw [acts]
  rcases eq_or_ne a.id d with rfl | hne
  · rw [hbirth, Option.bind_some, actsIn_act_self hera, Topic.standing?_self rfl,
      Topic.standing?_self rfl]
  · simp only [standing?_actsIn_ne hne, hother d hne, Topic.standing?_ne hne]
    exact h d

end Log

namespace Exchange

variable {x y : Exchange α} {log : List (Dealing α)} {c : Call α} {d i : Nat} {topic : String}
  {s : Topic.Standing}

/-- **Whatever is dealt, it is traced.** -/
theorem Told.traced (h : x.Told log) (ht : Traced log) {e : Dealing α} (hd : Deals x e y) :
    Traced (e :: log) := by
  cases hd with
  | publish topic p =>
    refine ht.act (?_ : _ = some (eraOf topic log)) rfl fun d hne => ?_
    · exact if_pos rfl
    · exact if_neg hne
  | subscribe | remove => exact ht
  | @receive n s e t hs hf hq =>
    obtain ⟨era, hi, hhome⟩ := h.home n s hs
    obtain ⟨r, hr, -⟩ := Topic.take_eq_some_iff.mp hq
    have hid : e.id ∈ (x.queue.topicAt s.incarnation).ids := by simp [Topic.ids, hr]
    exact ht.act (h.birthOf?_eq hi hid) hhome fun _ _ => rfl
  | ack hq =>
    obtain ⟨i, e, ho, -, -⟩ := ack_eq_ok_iff.mp hq
    obtain ⟨era, -, hbirth⟩ := h.exists_of_owner? ho
    exact ht.act hbirth hbirth fun _ _ => rfl
  | requeue hq | discard hq =>
    obtain ⟨i, e, ho, -, -⟩ := nack_eq_ok_iff.mp hq
    obtain ⟨era, -, hbirth⟩ := h.exists_of_owner? ho
    exact ht.act hbirth hbirth fun _ _ => rfl

theorem traced (calls : List (Call α)) : Traced (run calls).2 :=
  (run_induction (P := fun x log => x.Told log ∧ Traced log) ⟨.empty, fun _ => rfl⟩
    (fun h hd => ⟨h.1.deal hd, h.1.traced h.2 hd⟩) calls).2

/-! ### What stands under a name -/

/-- The delivery stands so under a name in use. -/
def Shows (x : Exchange α) (d : Nat) (s : Topic.Standing) : Prop :=
  ∃ topic i, x.queue.current? topic = some i ∧ d ∈ (x.queue.topicAt i).idsAt s

/-- **What stands under a name is what the log says is open.** -/
theorem Told.stands_iff (h : x.Told log) (ht : Traced log) (hs : s = .waiting ∨ s = .held) :
    Stands log d s ↔ x.Shows d s := by
  have hmem : ∀ i era, (eras log)[i]? = some era →
      (d ∈ (x.queue.topicAt i).idsAt s ↔ Topic.standing? d (actsIn era log) = some s) := by
    intro i era hi
    rcases hs with rfl | rfl
    · exact (h.lives i era hi).mem_idsAt_iff.1
    · exact (h.lives i era hi).mem_idsAt_iff.2
  constructor
  · rintro ⟨era, hbirth, hopen, hstands⟩
    obtain ⟨i, hi⟩ := List.mem_iff_getElem?.mp (mem_eras_of_birthOf? hbirth)
    rw [ht d, hbirth, Option.bind_some] at hstands
    exact ⟨era.topic, i, (h.placed.current _ i).mpr (hopen.symm ▸ hi), (hmem i era hi).mpr hstands⟩
  · rintro ⟨topic, i, hc, hd⟩
    have hi := (h.placed.current topic i).mp hc
    have hbirth := h.birthOf?_eq hi (Topic.mem_ids_of_mem_idsAt hd)
    refine ⟨_, hbirth, rfl, ?_⟩
    rw [ht d, hbirth, Option.bind_some]
    exact (hmem i _ hi).mp hd

/-! ### The answers -/

/-- What stands under a name is found by the index, and nothing else is. -/
theorem Told.owner?_eq_some_iff (h : x.Told log) : x.queue.owner? d = some i ↔
    ∃ topic, x.queue.current? topic = some i ∧ d ∈ (x.queue.topicAt i).ids := by
  constructor
  · intro ho
    obtain ⟨topic, -, hname, hd⟩ := h.sound.exists_of_owner? ho
    exact ⟨topic, h.sound.current?_eq_some_iff.mpr hname, hd⟩
  · rintro ⟨topic, hc, hd⟩
    exact h.sound.owner?_of_mem hc hd

/-- **What a settlement leaves alone**: all topics but one, all names, all subscriptions, and
the ways to all other deliveries. -/
structure Moves (x y : Exchange α) (i d : Nat) : Prop where
  others : ∀ j, j ≠ i → y.queue.topicAt j = x.queue.topicAt j
  topics : y.queue.topics.length = x.queue.topics.length
  names : y.queue.names = x.queue.names
  nextId : y.queue.nextId = x.queue.nextId
  index : ∀ p, p.1 ≠ d → (p ∈ y.queue.index ↔ p ∈ x.queue.index)
  subscriptions : y.subscriptions = x.subscriptions

theorem moves_setTopic (x : Exchange α) (i d : Nat) (t : Topic α) :
    Moves x { x with queue := x.queue.setTopic i t } i d :=
  ⟨fun _ hj => topicAt_setTopic_ne hj t, length_setTopic t, rfl, rfl, fun _ _ => Iff.rfl, rfl⟩

theorem moves_forget (x : Exchange α) (i d : Nat) (t : Topic α) :
    Moves x { x with queue := (x.queue.setTopic i t).forget d } i d := by
  refine ⟨fun _ hj => topicAt_setTopic_ne hj t, length_setTopic t, rfl, rfl, fun p hp => ?_, rfl⟩
  simp [forget, hp]

/-- **What a settlement can be answered**: the index does not list the delivery, or it is not
in flight where the index says, or it is. -/
theorem call_settlement (x : Exchange α) (hc : c ∈ settlements d) :
    x.queue.owner? d = none ∧ x.call c = (.refused (.unknownDelivery d), x) ∨
    (∃ i, x.queue.owner? d = some i ∧ d ∉ (x.queue.topicAt i).idsAt .held ∧
      x.call c = (.refused (.notInFlight d), x)) ∨
    ∃ i y, x.queue.owner? d = some i ∧ d ∈ (x.queue.topicAt i).idsAt .held ∧
      x.call c = (.settled, y) ∧ Moves x y i d := by
  cases ho : x.queue.owner? d with
  | none =>
    refine .inl ⟨rfl, ?_⟩
    simp only [settlements, List.mem_cons, List.not_mem_nil, or_false] at hc
    obtain rfl | rfl | rfl := hc <;> simp [call, Queue.ack, Queue.nack, ho]
  | some i =>
    cases hh : (x.queue.topicAt i).held? d with
    | none =>
      refine .inr (.inl ⟨i, rfl, Topic.held?_eq_none_iff.mp hh, ?_⟩)
      simp only [settlements, List.mem_cons, List.not_mem_nil, or_false] at hc
      obtain rfl | rfl | rfl := hc <;> simp [call, Queue.ack, Queue.nack, ho, hh]
    | some e =>
      obtain ⟨he, hid⟩ := Topic.held?_eq_some hh
      have hmem : d ∈ (x.queue.topicAt i).idsAt .held := hid ▸ List.mem_map_of_mem he
      refine .inr (.inr ⟨i, (x.call c).2, rfl, hmem, ?_⟩)
      simp only [settlements, List.mem_cons, List.not_mem_nil, or_false] at hc
      obtain rfl | rfl | rfl := hc
      · simpa [call, Queue.ack, ho, hh] using moves_forget x i d _
      · simpa [call, Queue.nack, ho, hh] using moves_setTopic x i d _
      · simpa [call, Queue.nack, ho, hh] using moves_forget x i d _

/-- **The answer to a settlement of a delivery is what the log tells of it.** -/
structure Answered (x : Exchange α) (log : List (Dealing α)) (d : Nat) (c : Call α) : Prop where
  settled : (∃ y, x.call c = (.settled, y)) ↔ Stands log d .held
  notInFlight : (∃ y, x.call c = (.refused (.notInFlight d), y)) ↔ Stands log d .waiting
  unknown : (∃ y, x.call c = (.refused (.unknownDelivery d), y)) ↔ Unknown log d
  /-- There is no fourth answer. -/
  answers : ∃ r y, x.call c = (r, y) ∧
    (r = .settled ∨ r = .refused (.notInFlight d) ∨ r = .refused (.unknownDelivery d))
  /-- What is not in flight waits under a name in use. -/
  waits : Stands log d .waiting ↔ ∃ topic i, x.queue.current? topic = some i ∧
    d ∈ (x.queue.topicAt i).ready.map (·.id)
  /-- A refusal leaves everything as it is. -/
  refused : ∀ e y, x.call c = (.refused e, y) → y = x
  /-- What is taken changes the topic under the name the delivery was published to, and no
  other. -/
  moves : ∀ y, x.call c = (.settled, y) → ∃ era i, birthOf? d log = some era ∧
    x.queue.current? era.topic = some i ∧ Moves x y i d

theorem Told.answered (h : x.Told log) (ht : Traced log) (hc : c ∈ settlements d) :
    Answered x log d c := by
  have hwaiting : Stands log d .waiting ↔ x.Shows d .waiting := h.stands_iff ht (.inl rfl)
  have hheld : Stands log d .held ↔ x.Shows d .held := h.stands_iff ht (.inr rfl)
  obtain ⟨ho, hcall⟩ | ⟨i, ho, hout, hcall⟩ | ⟨i, y, ho, hin, hcall, hmoves⟩ :=
    x.call_settlement hc
  · -- Nothing that the index does not list stands under a name.
    have hnot {s : Topic.Standing} : ¬x.Shows d s := by
      rintro ⟨topic, i, hi, hd⟩
      have hlisted := h.owner?_eq_some_iff.mpr ⟨topic, hi, Topic.mem_ids_of_mem_idsAt hd⟩
      simp [ho] at hlisted
    have hunknown := unknown_iff.mpr ⟨hwaiting.not.mpr hnot, hheld.not.mpr hnot⟩
    exact ⟨by simp [hcall, hheld, hnot], by simp [hcall, hwaiting, hnot],
      by simp [hcall, hunknown], ⟨_, _, hcall, by simp⟩, hwaiting, by simp [hcall],
      by simp [hcall]⟩
  · obtain ⟨topic, hi, hd⟩ := h.owner?_eq_some_iff.mp ho
    have hstands : Stands log d .waiting :=
      hwaiting.mpr ⟨topic, i, hi, (Topic.mem_ids_iff.mp hd).resolve_right hout⟩
    have hnot : ¬Stands log d .held := fun hs => nomatch hs.unique hstands
    have hunknown : ¬Unknown log d := fun hu => (unknown_iff.mp hu).1 hstands
    exact ⟨by simp [hcall, hnot], by simp [hcall, hstands], by simp [hcall, hunknown],
      ⟨_, _, hcall, by simp⟩, hwaiting, by simp [hcall], by simp [hcall]⟩
  · obtain ⟨topic, hi, hd⟩ := h.owner?_eq_some_iff.mp ho
    have hstands : Stands log d .held := hheld.mpr ⟨topic, i, hi, hin⟩
    have hnot : ¬Stands log d .waiting := fun hs => nomatch hs.unique hstands
    have hunknown : ¬Unknown log d := fun hu => (unknown_iff.mp hu).2 hstands
    refine ⟨by simp [hcall, hstands], by simp [hcall, hnot], by simp [hcall, hunknown],
      ⟨_, _, hcall, by simp⟩, hwaiting, by simp [hcall], ?_⟩
    have hbirth := h.birthOf?_eq ((h.placed.current topic i).mp hi) hd
    rintro z hz
    obtain rfl : y = z := congrArg Prod.snd (hcall.symm.trans hz)
    exact ⟨_, i, hbirth, hi, hmoves⟩

/-! ### What is left over -/

/-- **Nothing under a name is touched**: every name in use stands for the same topic with the
same messages and the same statistics. -/
structure Untouched (x y : Exchange α) : Prop where
  current : ∀ topic, y.queue.current? topic = x.queue.current? topic
  topic : ∀ topic i, x.queue.current? topic = some i → y.queue.topicAt i = x.queue.topicAt i
  stats : ∀ topic, y.queue.stats? topic = x.queue.stats? topic

theorem Untouched.refl (x : Exchange α) : x.Untouched x :=
  ⟨fun _ => rfl, fun _ _ _ => rfl, fun _ => rfl⟩

/-- A topic without a name may change. -/
theorem untouched_setTopic {t : Topic α} (h : ∀ topic, x.queue.current? topic ≠ some i)
    (subs : List Subscription) : x.Untouched ⟨x.queue.setTopic i t, subs⟩ := by
  have htopic : ∀ topic j, x.queue.current? topic = some j →
      (x.queue.setTopic i t).topicAt j = x.queue.topicAt j := by
    intro topic j hj
    refine topicAt_setTopic_ne ?_ t
    rintro rfl
    exact h topic hj
  refine ⟨fun _ => rfl, htopic, fun topic => ?_⟩
  rw [stats?, stats?]
  have hsame : (x.queue.setTopic i t).current? topic = x.queue.current? topic := rfl
  rw [hsame]
  cases hc : x.queue.current? topic with
  | none => rfl
  | some j => simp only [Option.map_some, htopic topic j hc]

/-- An old subscription takes from a topic that has lost its name. -/
theorem Told.untouched_next (h : x.Told log) {n : Nat} {era : Era}
    (hhome : homeOf? n log = some era) (hover : eraOf era.topic log ≠ era) :
    x.Untouched (x.call (.next n)).2 := by
  cases hs : x.subscriptions[n]? with
  | none => simpa [call, hs] using Untouched.refl x
  | some s =>
    obtain ⟨other, hi, hother⟩ := h.home n s hs
    obtain rfl : era = other := Option.some.inj (hhome.symm.trans hother)
    have hunnamed : ∀ topic, x.queue.current? topic ≠ some s.incarnation := by
      intro topic hc
      have hera := Option.some.inj (hi.symm.trans ((h.placed.current topic _).mp hc))
      exact hover (by rw [hera]; rfl)
    have hidle (subs : List Subscription) : x.Untouched ⟨x.queue, subs⟩ :=
      ⟨fun _ => rfl, fun _ _ _ => rfl, fun _ => rfl⟩
    obtain ⟨hq, -⟩ | ⟨hq, -⟩ | ⟨e, t, hq, -, -⟩ := next_cases x.queue s
    · simpa [call, hs, hq] using hidle _
    · simpa [call, hs, hq] using hidle _
    · simpa [call, hs, hq] using untouched_setTopic hunnamed _

/-- **What is left over from an era that is over** reaches nothing that has a name. -/
theorem Told.untouched (h : x.Told log) (ht : Traced log) (hc : Bygone log c) :
    x.Untouched (x.call c).2 := by
  have hsettlement {d : Nat} (hmem : c ∈ settlements d) (hu : Unknown log d) :
      x.Untouched (x.call c).2 := by
    have hanswered := h.answered ht hmem
    obtain ⟨y, hy⟩ := hanswered.unknown.mpr hu
    rw [hy, hanswered.refused _ y hy]
    exact .refl x
  cases hc with
  | @ack d era hbirth hover =>
    exact hsettlement (by simp [settlements]) (.inr (.inr (.inr ⟨era, hbirth, hover⟩)))
  | @nack d era requeue hbirth hover =>
    exact hsettlement (by cases requeue <;> simp [settlements])
      (.inr (.inr (.inr ⟨era, hbirth, hover⟩)))
  | next hhome hover => exact h.untouched_next hhome hover

/-- **Acknowledgements and refusals are answered exactly**, after any calls, and what is left
over from a name that was taken away touches nothing that has a name now. -/
theorem exact_answers (calls : List (Call α)) :
    (∀ d, ∀ c ∈ settlements d, Answered (run calls).1 (run calls).2 d c) ∧
    ∀ c, Bygone (run calls).2 c → Untouched (run calls).1 ((run calls).1.call c).2 :=
  ⟨fun _ _ hc => (told calls).answered (traced calls) hc,
    fun _ hc => (told calls).untouched (traced calls) hc⟩

/-- A name is taken away and comes up again, and an old subscription goes on receiving. -/
def relic : List (Call Nat) :=
  [.publish "t" 7, .publish "t" 8, .subscribe "t", .next 0, .remove "t", .publish "t" 9,
    .publish "t" 10, .subscribe "t", .next 1, .next 0]

/-- The second delivery stands as held, but nothing is known of it any more; the third is held
and the fourth waits. -/
theorem exact_answers_relic :
    let x := (run relic).1
    let log := (run relic).2
    Unknown log 2 ∧ Topic.standing? 2 (acts log) = some .held ∧
    x.call (.ack 2) = (.refused (.unknownDelivery 2), x) ∧
    (∃ y, x.call (.nack 3 true) = (.settled, y)) ∧
    (∃ y, x.call (.ack 4) = (.refused (.notInFlight 4), y)) ∧
    x.Untouched (x.call (.next 0)).2 ∧ x.Untouched (x.call (.ack 2)).2 := by
  have hbirth : birthOf? 2 (run relic).2 = some ⟨"t", 0⟩ := by decide +kernel
  have hover : eraOf "t" (run relic).2 ≠ ⟨"t", 0⟩ := by decide +kernel
  have hunknown : Unknown (run relic).2 2 := .inr (.inr (.inr ⟨_, hbirth, hover⟩))
  have hack := (exact_answers relic).1 2 (.ack 2) (by simp [settlements])
  obtain ⟨y, hy⟩ := hack.unknown.mpr hunknown
  obtain rfl := hack.refused _ y hy
  refine ⟨hunknown, by decide +kernel, hy, ?_, ?_, ?_, ?_⟩
  · exact ((exact_answers relic).1 3 (.nack 3 true) (by simp [settlements])).settled.mpr
      ⟨⟨"t", 1⟩, by decide +kernel, by decide +kernel, by decide +kernel⟩
  · exact ((exact_answers relic).1 4 (.ack 4) (by simp [settlements])).notInFlight.mpr
      ⟨⟨"t", 1⟩, by decide +kernel, by decide +kernel, by decide +kernel⟩
  · have hhome : homeOf? 0 (run relic).2 = some ⟨"t", 0⟩ := by decide +kernel
    exact (exact_answers relic).2 _ (.next hhome hover)
  · exact (exact_answers relic).2 _ (.ack hbirth hover)

end Exchange

end Queue

end Roundtable

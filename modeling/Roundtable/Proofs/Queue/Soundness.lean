import Mathlib.Logic.Relation
import Roundtable.Proofs.Lists
import Roundtable.Queue.Basic

/-!
# What every queue keeps

Whatever is done with a queue, its names, its topics and its index of deliveries fit
together: two names never share an incarnation, a delivery stands in one place of one
topic, and **the index lists exactly what waits or is in flight under a name in use**
(`Roundtable.Queue.Sound`). That is what makes an acknowledgement find its message.

The operations are looked at once, through the ids a topic holds
(`Roundtable.Topic.ids`): publishing adds one id, taking and requeueing move one, and
acknowledging and discarding take one away. `Roundtable.Queue.Reachable` are the queues
that can come up, and all of them are sound (`Roundtable.Queue.Reachable.sound`).
-/

namespace Roundtable

/-! ### Topics -/

namespace Topic

variable {α : Type} {t t' : Topic α} {e : Envelope α} {d : Nat}

/-- The ids of the messages a topic holds. -/
def ids (t : Topic α) : List Nat := (t.ready ++ t.inFlight).map (·.id)

/-- Nothing waits and nothing is in flight. -/
def IsClear (t : Topic α) : Prop := t.ready = [] ∧ t.inFlight = []

/-- **Taking** moves the first message that waits into flight. -/
theorem take_eq_some_iff : t.take = some (e, t') ↔ ∃ r, t.ready = e :: r ∧
    t' = { t with ready := r, inFlight := t.inFlight ++ [e],
                  counters := { t.counters with delivered := t.counters.delivered + 1 } } := by
  unfold take
  cases h : t.ready with
  | nil => simp
  | cons x r =>
    simp only [Option.some.injEq, Prod.mk.injEq, List.cons.injEq]
    constructor
    · rintro ⟨rfl, rfl⟩
      exact ⟨r, ⟨rfl, rfl⟩, rfl⟩
    · rintro ⟨r', ⟨rfl, rfl⟩, rfl⟩
      exact ⟨rfl, rfl⟩

theorem take_eq_none_iff : t.take = none ↔ t.ready = [] := by
  unfold take
  cases t.ready <;> simp

theorem held?_eq_some (h : t.held? d = some e) : e ∈ t.inFlight ∧ e.id = d :=
  ⟨List.mem_of_find?_eq_some h, by simpa using List.find?_some h⟩

/-- Something is held under the ids in flight and no others. -/
theorem held?_eq_none_iff : t.held? d = none ↔ d ∉ t.inFlight.map (·.id) := by
  simp only [held?, List.find?_eq_none, List.mem_map, not_exists, not_and, beq_iff_eq]

theorem ids_push (t : Topic α) (e : Envelope α) : (t.push e).ids.Perm (e.id :: t.ids) := by
  simp only [ids, push, List.append_assoc, List.map_append]
  exact List.perm_middle

theorem ids_take (h : t.take = some (e, t')) : t'.ids.Perm t.ids := by
  obtain ⟨r, hr, rfl⟩ := take_eq_some_iff.mp h
  simp only [ids, hr, List.map_append, List.cons_append, List.map_cons, ← List.append_assoc]
  exact List.perm_append_singleton _ _

/-- The messages in flight are the one under an id and those that stay. -/
theorem inFlight_perm_release (hn : t.ids.Nodup) (he : e ∈ t.inFlight) :
    t.inFlight.Perm (e :: t.release e.id) := by
  have hf : (t.inFlight.map (·.id)).Nodup := by
    rw [ids, List.map_append] at hn
    exact hn.of_append_right
  exact perm_cons_filter_key hf he

theorem ids_release (hn : t.ids.Nodup) (he : e ∈ t.inFlight) :
    t.ids.Perm (e.id :: (t.ready ++ t.release e.id).map (·.id)) := by
  have h := ((inFlight_perm_release hn he).append_left t.ready).map (·.id)
  simp only [List.map_append, List.map_cons] at h ⊢
  simpa [ids] using h.trans List.perm_middle

theorem ids_ack (hn : t.ids.Nodup) (he : e ∈ t.inFlight) :
    t.ids.Perm (e.id :: (t.ack e.id).ids) :=
  ids_release hn he

theorem ids_discard (hn : t.ids.Nodup) (he : e ∈ t.inFlight) :
    t.ids.Perm (e.id :: (t.discard e.id).ids) :=
  ids_release hn he

theorem ids_requeue (hn : t.ids.Nodup) (he : e ∈ t.inFlight) :
    t.ids.Perm (t.requeue e).ids := by
  refine (ids_release hn he).trans ?_
  simp only [ids, requeue, List.append_assoc, List.map_append, List.map_cons]
  exact List.perm_middle.symm

end Topic

/-! ### Queues -/

namespace Queue

variable {α : Type} {q q' : Queue α} {i j d : Nat} {topic : String}

/-- The ids of all messages in the queue, whatever incarnation they belong to. -/
def ids (q : Queue α) : List Nat := q.topics.flatMap Topic.ids

theorem topicAt_of_length_le (h : q.topics.length ≤ i) : q.topicAt i = .empty := by
  simp [topicAt, List.getElem?_eq_none h]

theorem topicAt_of_lt (h : i < q.topics.length) : q.topicAt i = q.topics[i] := by
  simp [topicAt, h]

@[simp] theorem topicAt_setTopic_self (h : i < q.topics.length) (t : Topic α) :
    (q.setTopic i t).topicAt i = t := by
  simp [topicAt, setTopic, h]

@[simp] theorem topicAt_setTopic_ne (h : j ≠ i) (t : Topic α) :
    (q.setTopic i t).topicAt j = q.topicAt j := by
  simp [topicAt, setTopic, Ne.symm h]

@[simp] theorem names_setTopic (t : Topic α) : (q.setTopic i t).names = q.names := rfl

@[simp] theorem index_setTopic (t : Topic α) : (q.setTopic i t).index = q.index := rfl

@[simp] theorem length_setTopic (t : Topic α) :
    (q.setTopic i t).topics.length = q.topics.length := by
  simp [setTopic]

/-- A topic and the ids elsewhere: the second part stays when the topic is replaced. -/
theorem exists_ids_perm (h : i < q.topics.length) :
    ∃ rest, q.ids.Perm ((q.topicAt i).ids ++ rest) ∧
      ∀ t, (q.setTopic i t).ids.Perm (t.ids ++ rest) := by
  refine ⟨(q.topics.eraseIdx i).flatMap Topic.ids, ?_, fun t => ?_⟩
  · rw [topicAt_of_lt h]
    exact (List.getElem_cons_eraseIdx_perm h).symm.flatMap_right _
  · exact (List.set_perm_cons_eraseIdx h t).flatMap_right _

/-- What stands in a topic is told apart from what stands in another. -/
theorem nodup_ids_topicAt (hn : q.ids.Nodup) (i : Nat) : (q.topicAt i).ids.Nodup := by
  rcases Nat.lt_or_ge i q.topics.length with h | h
  · obtain ⟨rest, hperm, -⟩ := exists_ids_perm h
    exact (hperm.nodup_iff.mp hn).of_append_left
  · rw [topicAt_of_length_le h]
    exact List.nodup_nil

theorem mem_ids_of_topicAt (h : d ∈ (q.topicAt i).ids) : d ∈ q.ids := by
  rcases Nat.lt_or_ge i q.topics.length with hi | hi
  · rw [topicAt_of_lt hi] at h
    exact List.mem_flatMap.mpr ⟨_, List.getElem_mem hi, h⟩
  · rw [topicAt_of_length_le hi] at h
    simp [Topic.ids, Topic.empty] at h

/-- What stands in a topic when one of them, the same or another, was replaced. -/
theorem mem_ids_setTopic (hi : i < q.topics.length) {t : Topic α} :
    d ∈ ((q.setTopic i t).topicAt j).ids ↔
      (j = i ∧ d ∈ t.ids) ∨ (j ≠ i ∧ d ∈ (q.topicAt j).ids) := by
  rcases eq_or_ne j i with rfl | hne
  · simp [topicAt_setTopic_self hi]
  · simp [topicAt_setTopic_ne hne, hne]

/-- **A sound queue.** -/
structure Sound (q : Queue α) : Prop where
  /-- A name stands for one incarnation. -/
  names : (q.names.map (·.1)).Nodup
  /-- An incarnation has one name. -/
  incarnations : (q.names.map (·.2)).Nodup
  /-- Names stand for topics that are there. -/
  bound : ∀ n i, (n, i) ∈ q.names → i < q.topics.length
  /-- A delivery stands in one place. -/
  ids : q.ids.Nodup
  /-- Ids were given out in order. -/
  issued : ∀ d ∈ q.ids, d < q.nextId
  /-- The index lists a delivery once. -/
  keys : (q.index.map (·.1)).Nodup
  /-- The index lists what waits or is in flight under a name in use. -/
  index : ∀ d n, (d, n) ∈ q.index ↔ ∃ i, (n, i) ∈ q.names ∧ d ∈ (q.topicAt i).ids

namespace Sound

theorem empty : (Queue.empty : Queue α).Sound where
  names := List.nodup_nil
  incarnations := List.nodup_nil
  bound := by simp [Queue.empty]
  ids := List.nodup_nil
  issued := by simp [Queue.empty, Queue.ids]
  keys := List.nodup_nil
  index := by simp [Queue.empty]

theorem current?_eq_some_iff (h : q.Sound) : q.current? topic = some i ↔ (topic, i) ∈ q.names :=
  ⟨mem_of_lookup, lookup_of_mem h.names⟩

theorem lt_length (h : q.Sound) (hi : q.current? topic = some i) : i < q.topics.length :=
  h.bound _ _ (h.current?_eq_some_iff.mp hi)

/-- **A message under a name in use can be acknowledged there.** -/
theorem owner?_of_mem (h : q.Sound) (hi : q.current? topic = some i)
    (hd : d ∈ (q.topicAt i).ids) : q.owner? d = some i := by
  have hmem := (h.index d topic).mpr ⟨i, h.current?_eq_some_iff.mp hi, hd⟩
  simp [owner?, lookup_of_mem h.keys hmem, hi]

/-- A delivery that can be acknowledged belongs to the topic its name stands for. -/
theorem exists_of_owner? (h : q.Sound) (hi : q.owner? d = some i) :
    ∃ n, (d, n) ∈ q.index ∧ (n, i) ∈ q.names ∧ d ∈ (q.topicAt i).ids := by
  obtain ⟨n, hn, hc⟩ := Option.bind_eq_some_iff.mp hi
  have hmem := mem_of_lookup hn
  have hname := mem_of_lookup hc
  obtain ⟨j, hj, hd⟩ := (h.index d n).mp hmem
  have hij : i = j := Option.some.inj (hc.symm.trans (lookup_of_mem h.names hj))
  exact ⟨n, hmem, hname, hij ▸ hd⟩

/-- Two names that stand for one incarnation are one name. -/
theorem name_unique (h : q.Sound) {m n : String} (hm : (m, i) ∈ q.names) (hn : (n, i) ∈ q.names) :
    m = n := by
  have := List.inj_on_of_nodup_map h.incarnations hm hn rfl
  exact congrArg Prod.fst this

end Sound

/-! ### Entering a topic -/

theorem enter_of_some (h : q.current? topic = some i) : q.enter topic = (i, q) := by
  simp [enter, h]

@[simp] theorem index_enter : (q.enter topic).2.index = q.index := by
  unfold enter; split <;> rfl

@[simp] theorem nextId_enter : (q.enter topic).2.nextId = q.nextId := by
  unfold enter; split <;> rfl

/-- A topic that was not there is empty, before and after. -/
@[simp] theorem topicAt_enter : (q.enter topic).2.topicAt j = q.topicAt j := by
  unfold enter
  split
  · rfl
  · simp only [topicAt, List.getD_eq_getElem?_getD]
    rcases Nat.lt_or_ge j q.topics.length with hj | hj
    · rw [List.getElem?_append_left hj]
    · rw [List.getElem?_append_right hj, List.getElem?_eq_none hj]
      cases j - q.topics.length <;> simp

@[simp] theorem ids_enter : (q.enter topic).2.ids = q.ids := by
  unfold enter
  split
  · rfl
  · simp [Queue.ids, Topic.ids, Topic.empty]

/-- A name that was not in use stands for the last incarnation. -/
theorem names_enter_of_none (h : q.current? topic = none) :
    (q.enter topic).2.names = q.names ++ [(topic, q.topics.length)] := by
  simp [enter, h]

/-- **The topic that is entered has the name.** -/
theorem current?_enter : (q.enter topic).2.current? topic = some (q.enter topic).1 := by
  cases h : q.current? topic with
  | some i => rw [enter_of_some h]; exact h
  | none =>
    have hnone : q.names.lookup topic = none := h
    simp [current?, enter, List.lookup_append, hnone]

theorem Sound.enter (h : q.Sound) (topic : String) : (q.enter topic).2.Sound := by
  cases hc : q.current? topic with
  | some i => rw [enter_of_some hc]; exact h
  | none =>
    have hnames := names_enter_of_none hc
    have hnew : topic ∉ q.names.map (·.1) := by
      intro hmem
      obtain ⟨p, hp, rfl⟩ := List.mem_map.mp hmem
      have : q.current? p.1 = some p.2 := lookup_of_mem h.names hp
      simp [hc] at this
    have hlen : (q.enter topic).2.topics.length = q.topics.length + 1 := by
      simp [Queue.enter, hc]
    -- The new incarnation is behind all others, and its topic holds nothing yet.
    refine ⟨?_, ?_, ?_, by simpa using h.ids, by simpa using h.issued, by simpa using h.keys, ?_⟩
    · rw [hnames, List.map_append]
      refine List.nodup_append.mpr ⟨h.names, by simp, ?_⟩
      rintro a ha b hb rfl
      have hat : a = topic := by simpa using hb
      exact hnew (hat ▸ ha)
    · rw [hnames, List.map_append]
      refine List.nodup_append.mpr ⟨h.incarnations, by simp, ?_⟩
      rintro a ha b hb rfl
      obtain ⟨p, hp, rfl⟩ := List.mem_map.mp ha
      have := h.bound _ _ hp
      simp at hb
      omega
    · intro n i hi
      rw [hnames] at hi
      rcases List.mem_append.mp hi with hi | hi
      · have := h.bound _ _ hi
        omega
      · simp at hi
        omega
    · intro d n
      simp only [index_enter, topicAt_enter, hnames, List.mem_append, List.mem_singleton,
        Prod.mk.injEq]
      refine (h.index d n).trans ⟨fun ⟨i, hi, hd⟩ => ⟨i, .inl hi, hd⟩, ?_⟩
      rintro ⟨i, hi | ⟨rfl, rfl⟩, hd⟩
      · exact ⟨i, hi, hd⟩
      · rw [topicAt_of_length_le (Nat.le_refl _)] at hd
        simp [Topic.ids, Topic.empty] at hd

/-! ### Replacing a topic -/

/-- **Moving messages inside a topic** keeps a queue sound. -/
theorem Sound.setTopic (h : q.Sound) {t : Topic α} (hi : i < q.topics.length)
    (ht : t.ids.Perm (q.topicAt i).ids) : (q.setTopic i t).Sound := by
  obtain ⟨rest, hq, hset⟩ := exists_ids_perm hi
  have hids : (q.setTopic i t).ids.Perm q.ids :=
    (hset t).trans ((ht.append_right rest).trans hq.symm)
  refine ⟨h.names, h.incarnations, by simpa using h.bound, hids.nodup_iff.mpr h.ids,
    fun d hd => h.issued d (hids.mem_iff.mp hd), h.keys, fun d n => (h.index d n).trans ?_⟩
  refine exists_congr fun j => and_congr_right fun _ => ?_
  rw [mem_ids_setTopic hi, ht.mem_iff]
  rcases eq_or_ne j i with rfl | hj
  · simp
  · simp [hj]

/-- **Taking a message out of a topic and of the index** keeps a queue sound. -/
theorem Sound.strike (h : q.Sound) {t : Topic α} (hi : q.owner? d = some i)
    (ht : (q.topicAt i).ids.Perm (d :: t.ids)) : ((q.setTopic i t).forget d).Sound := by
  obtain ⟨m, hm, hname, -⟩ := h.exists_of_owner? hi
  have hlt := h.bound _ _ hname
  obtain ⟨rest, hq, hset⟩ := exists_ids_perm hlt
  have hids : q.ids.Perm (d :: (q.setTopic i t).ids) :=
    hq.trans ((ht.append_right rest).trans ((hset t).symm.cons d))
  have hn := List.nodup_cons.mp (hids.nodup_iff.mp h.ids)
  -- What is taken out stood in one place, so it is in no topic afterwards.
  have hout : ∀ j, d ∉ ((q.setTopic i t).topicAt j).ids :=
    fun j hd => hn.1 (mem_ids_of_topicAt hd)
  refine ⟨h.names, h.incarnations, by simpa [forget] using h.bound, hn.2,
    fun e he => h.issued e (hids.mem_iff.mpr (List.mem_cons_of_mem _ he)),
    (h.keys.sublist (List.filter_sublist.map _)), fun e n => ?_⟩
  simp only [forget, index_setTopic, names_setTopic, List.mem_filter, bne_iff_ne, h.index]
  constructor
  · rintro ⟨⟨j, hj, he⟩, hne⟩
    refine ⟨j, hj, (mem_ids_setTopic hlt).mpr ?_⟩
    rcases eq_or_ne j i with rfl | hji
    · exact .inl ⟨rfl, List.mem_of_ne_of_mem hne (ht.mem_iff.mp he)⟩
    · exact .inr ⟨hji, he⟩
  · rintro ⟨j, hj, he⟩
    change e ∈ ((q.setTopic i t).topicAt j).ids at he
    refine ⟨⟨j, hj, ?_⟩, fun hed => hout j (hed ▸ he)⟩
    rcases (mem_ids_setTopic hlt).mp he with ⟨rfl, het⟩ | ⟨-, heq⟩
    · exact ht.mem_iff.mpr (List.mem_cons_of_mem _ het)
    · exact heq

/-! ### The operations -/

/-- A message with the next id at the end of a topic that has the name. -/
def pushAt (q : Queue α) (i : Nat) (topic : String) (p : Payload α) : Queue α :=
  { q.setTopic i ((q.topicAt i).push ⟨topic, p, q.nextId, 1⟩) with
    index := q.index ++ [(q.nextId, topic)], nextId := q.nextId + 1 }

/-- Publishing enters the topic and puts the message there. -/
theorem enqueue_eq (q : Queue α) (topic : String) (p : Payload α) :
    q.enqueue topic p = (q.nextId, (q.enter topic).2.pushAt (q.enter topic).1 topic p) := by
  simp [enqueue, pushAt]

theorem Sound.pushAt (h : q.Sound) (hi : q.current? topic = some i) (p : Payload α) :
    (q.pushAt i topic p).Sound := by
  have hmem := h.current?_eq_some_iff.mp hi
  have hlt := h.lt_length hi
  obtain ⟨rest, hq, hset⟩ := exists_ids_perm hlt
  set t := (q.topicAt i).push ⟨topic, p, q.nextId, 1⟩ with ht
  have hpush : t.ids.Perm (q.nextId :: (q.topicAt i).ids) := Topic.ids_push _ _
  have hids : (q.setTopic i t).ids.Perm (q.nextId :: q.ids) :=
    (hset t).trans ((hpush.append_right rest).trans (hq.symm.cons _))
  -- The id is given out for the first time: no topic and no key of the index has it.
  have hfresh : q.nextId ∉ q.ids := fun hd => Nat.lt_irrefl _ (h.issued _ hd)
  have hkey : q.nextId ∉ q.index.map (·.1) := by
    intro hk
    obtain ⟨⟨d, n⟩, hp, rfl⟩ := List.mem_map.mp hk
    obtain ⟨j, -, hd⟩ := (h.index _ n).mp hp
    exact hfresh (mem_ids_of_topicAt hd)
  refine ⟨h.names, h.incarnations, by simpa [Queue.pushAt] using h.bound,
    hids.nodup_iff.mpr (List.nodup_cons.mpr ⟨hfresh, h.ids⟩), fun d hd => ?_, ?_, fun d n => ?_⟩
  · rcases List.mem_cons.mp (hids.mem_iff.mp hd) with rfl | hd
    · exact Nat.lt_succ_self _
    · exact Nat.lt_succ_of_lt (h.issued d hd)
  · change ((q.index ++ [(q.nextId, topic)]).map (·.1)).Nodup
    rw [List.map_append]
    refine List.nodup_append.mpr ⟨h.keys, by simp, ?_⟩
    rintro a ha b hb rfl
    have hat : a = q.nextId := by simpa using hb
    exact hkey (hat ▸ ha)
  · change (d, n) ∈ q.index ++ [(q.nextId, topic)] ↔
      ∃ j, (n, j) ∈ q.names ∧ d ∈ ((q.setTopic i t).topicAt j).ids
    rw [List.mem_append, h.index]
    constructor
    · rintro (⟨j, hj, hd⟩ | hd)
      · refine ⟨j, hj, (mem_ids_setTopic hlt).mpr ?_⟩
        rcases eq_or_ne j i with rfl | hji
        · exact .inl ⟨rfl, hpush.mem_iff.mpr (List.mem_cons_of_mem _ hd)⟩
        · exact .inr ⟨hji, hd⟩
      · obtain ⟨rfl, rfl⟩ : d = q.nextId ∧ n = topic := by simpa using hd
        exact ⟨i, hmem, (mem_ids_setTopic hlt).mpr
          (.inl ⟨rfl, hpush.mem_iff.mpr List.mem_cons_self⟩)⟩
    · rintro ⟨j, hj, hd⟩
      rcases (mem_ids_setTopic hlt).mp hd with ⟨rfl, hdt⟩ | ⟨-, hd⟩
      · rcases List.mem_cons.mp (hpush.mem_iff.mp hdt) with rfl | hd
        · right
          simp [h.name_unique hj hmem]
        · exact .inl ⟨j, hj, hd⟩
      · exact .inl ⟨j, hj, hd⟩

theorem Sound.enqueue (h : q.Sound) (topic : String) (p : Payload α) :
    (q.enqueue topic p).2.Sound := by
  rw [enqueue_eq]
  exact (h.enter topic).pushAt current?_enter p

/-- **What one attempt to take a message does**: nothing, or it takes the first message of
the subscription's topic. -/
theorem next_cases (q : Queue α) (s : Subscription) :
    q.next s = (.ended, s, q) ∧ s.finished = true ∨
    q.next s = (.pending, s, q) ∧ s.finished = false ∧ (q.topicAt s.incarnation).ready = [] ∨
    ∃ e t, q.next s =
        (.message e, { s with finished := e.payload.isSentinel }, q.setTopic s.incarnation t) ∧
      s.finished = false ∧ (q.topicAt s.incarnation).take = some (e, t) := by
  unfold next
  cases hf : s.finished with
  | true => simp
  | false =>
    cases ht : (q.topicAt s.incarnation).take with
    | none => simp [Topic.take_eq_none_iff.mp ht]
    | some p => exact .inr (.inr ⟨p.1, p.2, by simp, rfl, rfl⟩)

/-- A topic that has a message to give is there. -/
theorem lt_length_of_take {e : Envelope α} {t : Topic α}
    (h : (q.topicAt i).take = some (e, t)) : i < q.topics.length := by
  by_contra hge
  obtain ⟨r, hr, -⟩ := Topic.take_eq_some_iff.mp h
  rw [topicAt_of_length_le (by omega)] at hr
  simp [Topic.empty] at hr

theorem Sound.next (h : q.Sound) (s : Subscription) : (q.next s).2.2.Sound := by
  obtain ⟨hq, -⟩ | ⟨hq, -⟩ | ⟨e, t, hq, -, ht⟩ := next_cases q s
  · rwa [hq]
  · rwa [hq]
  · rw [hq]
    exact h.setTopic (lt_length_of_take ht) (Topic.ids_take ht)

/-- **An acknowledgement that is taken** finds the message in flight in the topic that owns
it, and strikes it there and from the index. -/
theorem ack_eq_ok_iff : q.ack d = .ok q' ↔ ∃ i e, q.owner? d = some i ∧
    (q.topicAt i).held? d = some e ∧ q' = (q.setTopic i ((q.topicAt i).ack d)).forget d := by
  unfold Queue.ack
  cases ho : q.owner? d with
  | none => simp
  | some i =>
    cases hh : (q.topicAt i).held? d with
    | none => simp [hh]
    | some e => simp [hh, eq_comm]

/-- What waits stays as it is where only other parts of a topic are replaced. -/
theorem ready_topicAt_setTopic {t : Topic α} (ht : t.ready = (q.topicAt i).ready) (j : Nat) :
    ((q.setTopic i t).topicAt j).ready = (q.topicAt j).ready := by
  rcases eq_or_ne j i with rfl | hne
  · rcases Nat.lt_or_ge j q.topics.length with hlt | hge
    · rw [topicAt_setTopic_self hlt, ht]
    · rw [setTopic, List.set_eq_of_length_le hge]
  · rw [topicAt_setTopic_ne hne]

/-- An acknowledgement leaves alone what waits. -/
theorem ready_topicAt_ack (h : q.ack d = .ok q') (j : Nat) :
    (q'.topicAt j).ready = (q.topicAt j).ready := by
  obtain ⟨i, e, -, -, rfl⟩ := ack_eq_ok_iff.mp h
  exact ready_topicAt_setTopic (t := (q.topicAt i).ack d) rfl j

theorem Sound.ack (h : q.Sound) (ha : q.ack d = .ok q') : q'.Sound := by
  obtain ⟨i, e, ho, hh, rfl⟩ := ack_eq_ok_iff.mp ha
  obtain ⟨he, rfl⟩ := Topic.held?_eq_some hh
  exact h.strike ho (Topic.ids_ack (nodup_ids_topicAt h.ids i) he)

/-- **A refusal that is taken** puts the message back or gives it up. -/
theorem nack_eq_ok_iff {requeue : Bool} : q.nack d requeue = .ok q' ↔ ∃ i e,
    q.owner? d = some i ∧ (q.topicAt i).held? d = some e ∧
    q' = if requeue then q.setTopic i ((q.topicAt i).requeue e)
      else (q.setTopic i ((q.topicAt i).discard d)).forget d := by
  unfold nack
  cases ho : q.owner? d with
  | none => simp
  | some i =>
    cases hh : (q.topicAt i).held? d with
    | none => simp [hh]
    | some e => cases requeue <;> simp [hh, eq_comm]

theorem Sound.nack (h : q.Sound) {requeue : Bool} (ha : q.nack d requeue = .ok q') : q'.Sound := by
  obtain ⟨i, e, ho, hh, rfl⟩ := nack_eq_ok_iff.mp ha
  obtain ⟨he, rfl⟩ := Topic.held?_eq_some hh
  have hn := nodup_ids_topicAt h.ids i
  cases requeue with
  | false => exact h.strike ho (Topic.ids_discard hn he)
  | true =>
    obtain ⟨n, -, hname, -⟩ := h.exists_of_owner? ho
    exact h.setTopic (h.bound _ _ hname) (Topic.ids_requeue hn he).symm

theorem Sound.remove (h : q.Sound) (topic : String) : (q.remove topic).2.Sound := by
  unfold Queue.remove
  split
  · exact h
  · refine ⟨h.names.sublist (List.filter_sublist.map _),
      h.incarnations.sublist (List.filter_sublist.map _),
      fun n i hi => h.bound n i (List.mem_of_mem_filter hi), h.ids, h.issued,
      h.keys.sublist (List.filter_sublist.map _), fun d n => ?_⟩
    simp only [List.mem_filter, h.index, bne_iff_ne]
    constructor
    · rintro ⟨⟨i, hi, hd⟩, hne⟩
      exact ⟨i, ⟨hi, hne⟩, hd⟩
    · rintro ⟨i, ⟨hi, hne⟩, hd⟩
      exact ⟨⟨i, hi, hd⟩, hne⟩

/-! ### The topic under a name -/

/-- The topic that has the name now; one that nothing was published to if there is none. -/
def topicOf (q : Queue α) (topic : String) : Topic α :=
  match q.current? topic with
  | some i => q.topicAt i
  | none => .empty

theorem topicOf_of_some (h : q.current? topic = some i) : q.topicOf topic = q.topicAt i := by
  simp [topicOf, h]

theorem topicOf_of_none (h : q.current? topic = none) : q.topicOf topic = .empty := by
  simp [topicOf, h]

/-- What stands under a name stands in the queue. -/
theorem mem_ids_of_topicOf (h : d ∈ (q.topicOf topic).ids) : d ∈ q.ids := by
  cases hc : q.current? topic with
  | some i =>
    rw [topicOf_of_some hc] at h
    exact mem_ids_of_topicAt h
  | none =>
    rw [topicOf_of_none hc] at h
    simp [Topic.ids, Topic.empty] at h

theorem stats?_getD : (q.stats? topic).getD (Topic.empty : Topic α).stats =
    (q.topicOf topic).stats := by
  cases h : q.current? topic with
  | some i => simp [stats?, h, topicOf_of_some h]
  | none => simp [stats?, h, topicOf_of_none h]

/-- Entering a topic changes nothing under its name. -/
theorem topicAt_enter_self : q.topicAt (q.enter topic).1 = q.topicOf topic := by
  cases h : q.current? topic with
  | some i => rw [enter_of_some h, topicOf_of_some h]
  | none =>
    have hfst : (q.enter topic).1 = q.topics.length := by simp [enter, h]
    rw [hfst, topicAt_of_length_le (Nat.le_refl _), topicOf_of_none h]

@[simp] theorem topicOf_enter_self : (q.enter topic).2.topicOf topic = q.topicOf topic := by
  rw [topicOf_of_some current?_enter, topicAt_enter, topicAt_enter_self]

/-- **Publishing** puts the message at the end of the topic under the name. -/
theorem topicOf_enqueue (h : q.Sound) (topic : String) (p : Payload α) :
    (q.enqueue topic p).2.topicOf topic = (q.topicOf topic).push ⟨topic, p, q.nextId, 1⟩ := by
  have hname : (q.enqueue topic p).2.current? topic = some (q.enter topic).1 := by
    rw [enqueue_eq]
    exact current?_enter
  have hlt := (h.enter topic).lt_length current?_enter
  rw [topicOf_of_some hname, enqueue_eq, ← topicAt_enter_self]
  refine (topicAt_setTopic_self hlt _).trans ?_
  rw [topicAt_enter, nextId_enter]

theorem nextId_enqueue (q : Queue α) (topic : String) (p : Payload α) :
    (q.enqueue topic p).2.nextId = q.nextId + 1 := by
  simp [enqueue_eq, pushAt]

/-- **One operation on a queue.** Operations that only look are left out. -/
inductive Step : Queue α → Queue α → Prop
  | enqueue (q : Queue α) (topic : String) (p : Payload α) : Step q (q.enqueue topic p).2
  | subscribe (q : Queue α) (topic : String) : Step q (q.subscribe topic).2
  | next (q : Queue α) (s : Subscription) : Step q (q.next s).2.2
  | ack {q q' : Queue α} {d : Nat} (h : q.ack d = .ok q') : Step q q'
  | nack {q q' : Queue α} {d : Nat} {requeue : Bool} (h : q.nack d requeue = .ok q') : Step q q'
  | remove (q : Queue α) (topic : String) : Step q (q.remove topic).2

/-- The queues that come up when operations follow one another. -/
def Reachable (q : Queue α) : Prop := Relation.ReflTransGen Step .empty q

theorem Step.sound (h : q.Sound) (hs : Step q q') : q'.Sound := by
  cases hs with
  | enqueue topic p => exact h.enqueue topic p
  | subscribe topic => exact h.enter topic
  | next s => exact h.next s
  | ack ha => exact h.ack ha
  | nack hn => exact h.nack hn
  | remove topic => exact h.remove topic

/-- **Every queue that comes up is sound.** -/
theorem Reachable.sound (h : q.Reachable) : q.Sound := by
  induction h with
  | refl => exact Sound.empty
  | tail _ hs ih => exact hs.sound ih

end Queue

end Roundtable

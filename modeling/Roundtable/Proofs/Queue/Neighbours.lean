import Roundtable.Proofs.Queue.Soundness

/-!
# Topics side by side

What is done under one name of a queue leaves the other names alone
(`Roundtable.Queue.Spares`): they stand for the same topics, and these hold the same
messages. Only the numbering goes on for all of them.

**A delivery that has lost its way is lost for good.** Where a name is taken away, the
deliveries under it can no longer be acknowledged (`Roundtable.Queue.lapsed_of_remove`), and
nothing that is done with the queue later brings one back
(`Roundtable.Queue.Lapsed.ack_eq`), not even a topic that gets the same name.
-/

namespace Roundtable

namespace Queue

variable {α : Type} {q q' : Queue α} {topic other : String} {i d : Nat}

/-! ### Names side by side -/

/-- **The name `other` is spared**: it stands for the same topic, with the same messages. -/
structure Spares (q q' : Queue α) (other : String) : Prop where
  current : q'.current? other = q.current? other
  topic : q'.topicOf other = q.topicOf other
  nextId : q.nextId ≤ q'.nextId

theorem Spares.refl (q : Queue α) (other : String) : q.Spares q other :=
  ⟨rfl, rfl, Nat.le_refl _⟩

/-- What stands under a name is told by the names and the topics. -/
theorem spares_of_topicAt (hn : q'.current? other = q.current? other)
    (ht : ∀ i, q.current? other = some i → q'.topicAt i = q.topicAt i)
    (hd : q.nextId ≤ q'.nextId) : q.Spares q' other := by
  refine ⟨hn, ?_, hd⟩
  cases hc : q.current? other with
  | none => rw [topicOf_of_none hc, topicOf_of_none (hn.trans hc)]
  | some i => rw [topicOf_of_some hc, topicOf_of_some (hn.trans hc), ht i hc]

/-- Two names in use stand for two topics. -/
theorem Sound.current?_ne (h : q.Sound) {j : Nat} (hi : q.current? topic = some i)
    (hj : q.current? other = some j) (hne : other ≠ topic) : j ≠ i := by
  rintro rfl
  exact hne (h.name_unique (h.current?_eq_some_iff.mp hj) (h.current?_eq_some_iff.mp hi))

theorem current?_enter_ne (h : other ≠ topic) :
    (q.enter topic).2.current? other = q.current? other := by
  cases hc : q.current? topic with
  | some i => rw [enter_of_some hc]
  | none =>
    have hother : (other == topic) = false := beq_eq_false_iff_ne.mpr h
    rw [current?, names_enter_of_none hc, List.lookup_append, List.lookup_cons, hother]
    exact Option.or_none

theorem spares_enter (h : other ≠ topic) : q.Spares (q.enter topic).2 other :=
  spares_of_topicAt (current?_enter_ne h) (fun _ _ => topicAt_enter)
    (Nat.le_of_eq nextId_enter.symm)

/-- Moving messages in a topic spares the other names. -/
theorem spares_setTopic (hs : q.Sound) (hi : q.current? topic = some i) (h : other ≠ topic)
    (t : Topic α) : q.Spares (q.setTopic i t) other :=
  spares_of_topicAt rfl (fun _ hj => topicAt_setTopic_ne (hs.current?_ne hi hj h) t)
    (Nat.le_refl _)

theorem spares_enqueue (hs : q.Sound) (h : other ≠ topic) (p : Payload α) :
    q.Spares (q.enqueue topic p).2 other := by
  have hentered := spares_enter (q := q) h
  rw [enqueue_eq]
  -- Behind the topic that is entered, only its own messages change.
  refine spares_of_topicAt hentered.current (fun j hj => ?_)
    (Nat.le_succ_of_le hentered.nextId)
  have hne := (hs.enter topic).current?_ne current?_enter (hentered.current.trans hj) h
  exact (topicAt_setTopic_ne hne _).trans topicAt_enter

theorem spares_ack (hs : q.Sound) (hi : q.current? topic = some i)
    (hd : d ∈ (q.topicAt i).ids) (ha : q.ack d = .ok q') (h : other ≠ topic) :
    q.Spares q' other := by
  obtain ⟨j, e, ho, -, rfl⟩ := ack_eq_ok_iff.mp ha
  obtain rfl : i = j := Option.some.inj ((hs.owner?_of_mem hi hd).symm.trans ho)
  have hset := spares_setTopic hs hi h ((q.topicAt i).ack d)
  exact ⟨hset.current, hset.topic, hset.nextId⟩

theorem spares_remove (h : other ≠ topic) : q.Spares (q.remove topic).2 other := by
  unfold remove
  split
  · exact .refl q other
  · exact spares_of_topicAt (lookup_filter_ne h) (fun _ _ => rfl) (Nat.le_refl _)

/-! ### The name itself -/

/-- **A name that was taken away** stands for nothing. -/
theorem current?_remove_self : (q.remove topic).2.current? topic = none := by
  cases hc : q.current? topic with
  | none => simp [remove, hc]
  | some i =>
    simp only [remove, hc]
    exact lookup_filter_self q.names topic

theorem topicOf_setTopic_self (hs : q.Sound) (hi : q.current? topic = some i) (t : Topic α) :
    (q.setTopic i t).topicOf topic = t := by
  have hsame : (q.setTopic i t).current? topic = some i := hi
  rw [topicOf_of_some hsame, topicAt_setTopic_self (hs.lt_length hi)]

/-- **A delivery in flight under a name** can be acknowledged, and is struck there. -/
theorem exists_ack (hs : q.Sound) (hd : d ∈ (q.topicOf topic).inFlight.map (·.id)) :
    ∃ q', q.ack d = .ok q' ∧ q'.current? topic = q.current? topic ∧
      q'.topicOf topic = (q.topicOf topic).ack d := by
  cases hc : q.current? topic with
  | none =>
    rw [topicOf_of_none hc] at hd
    simp [Topic.empty] at hd
  | some i =>
    rw [topicOf_of_some hc] at hd ⊢
    obtain ⟨e, he⟩ : ∃ e, (q.topicAt i).held? d = some e := by
      rw [← Option.ne_none_iff_exists', ne_eq, Topic.held?_eq_none_iff, not_not]
      exact hd
    have hmem : d ∈ (q.topicAt i).ids := by
      rw [Topic.ids, List.map_append]
      exact List.mem_append_right _ hd
    exact ⟨_, ack_eq_ok_iff.mpr ⟨i, e, hs.owner?_of_mem hc hmem, he, rfl⟩, hc,
      topicOf_setTopic_self hs hc _⟩

/-! ### Deliveries that have lost their way -/

/-- The delivery was given out, and the index does not list it. -/
structure Lapsed (q : Queue α) (d : Nat) : Prop where
  issued : d < q.nextId
  unlisted : d ∉ q.index.map (·.1)

/-- The delivery is spared a step that lists no other than the next one. -/
theorem Lapsed.of_index (h : q.Lapsed d) (hn : q.nextId ≤ q'.nextId)
    (hi : ∀ x ∈ q'.index, x ∈ q.index ∨ x.1 = q.nextId) : q'.Lapsed d := by
  refine ⟨Nat.lt_of_lt_of_le h.issued hn, fun hd => ?_⟩
  obtain ⟨x, hx, rfl⟩ := List.mem_map.mp hd
  rcases hi x hx with hx | hx
  · exact h.unlisted (List.mem_map_of_mem hx)
  · exact Nat.lt_irrefl _ (hx ▸ h.issued)

/-- **Nothing that is done with a queue** brings the delivery back. -/
theorem Lapsed.step (h : q.Lapsed d) (hs : Step q q') : q'.Lapsed d := by
  cases hs with
  | enqueue topic p =>
    refine h.of_index (Nat.le_of_lt (by rw [nextId_enqueue]; exact Nat.lt_succ_self _))
      fun x hx => ?_
    rw [enqueue_eq] at hx
    simp only [pushAt, index_enter, nextId_enter, List.mem_append, List.mem_singleton] at hx
    exact hx.imp_right fun hx => congrArg Prod.fst hx
  | subscribe topic =>
    have hindex : (q.subscribe topic).2.index = q.index := index_enter
    exact h.of_index (Nat.le_of_eq nextId_enter.symm) fun x hx => .inl (hindex ▸ hx)
  | next s =>
    obtain ⟨hq, -⟩ | ⟨hq, -⟩ | ⟨e, t, hq, -, -⟩ := next_cases q s
    all_goals rw [hq]
    · exact h
    · exact h
    · exact ⟨h.issued, h.unlisted⟩
  | ack ha =>
    obtain ⟨i, e, -, -, rfl⟩ := ack_eq_ok_iff.mp ha
    exact h.of_index (Nat.le_refl _) fun x hx => .inl (List.mem_of_mem_filter hx)
  | @nack _ _ requeue hn =>
    obtain ⟨i, e, -, -, rfl⟩ := nack_eq_ok_iff.mp hn
    cases requeue with
    | true => exact ⟨h.issued, h.unlisted⟩
    | false => exact h.of_index (Nat.le_refl _) fun x hx => .inl (List.mem_of_mem_filter hx)
  | remove topic =>
    unfold remove
    split
    · exact h
    · exact h.of_index (Nat.le_refl _) fun x hx => .inl (List.mem_of_mem_filter hx)

/-- **Whatever is done with the queue later**, the delivery is unknown. -/
theorem Lapsed.ack_eq (h : q.Lapsed d) (hs : Relation.ReflTransGen Step q q') :
    q'.ack d = .error (.unknownDelivery d) := by
  have hlast : q'.Lapsed d := by
    induction hs with
    | refl => exact h
    | tail _ hs ih => exact ih.step hs
  have hnone : q'.index.lookup d = none := by
    rw [List.lookup_eq_none_iff]
    intro x hx
    rw [bne_iff_ne]
    rintro rfl
    exact hlast.unlisted (List.mem_map_of_mem hx)
  simp [Queue.ack, owner?, hnone]

/-- **With a name go the ways to its deliveries.** -/
theorem lapsed_of_remove (hs : q.Sound) (hd : d ∈ (q.topicOf topic).ids) :
    (q.remove topic).2.Lapsed d := by
  cases hc : q.current? topic with
  | none =>
    rw [topicOf_of_none hc] at hd
    simp [Topic.ids, Topic.empty] at hd
  | some i =>
    rw [topicOf_of_some hc] at hd
    have hmem := (hs.index d topic).mpr ⟨i, hs.current?_eq_some_iff.mp hc, hd⟩
    simp only [remove, hc]
    refine ⟨hs.issued d (mem_ids_of_topicAt hd), fun hlisted => ?_⟩
    obtain ⟨x, hx, rfl⟩ := List.mem_map.mp hlisted
    obtain ⟨hx, hne⟩ := List.mem_filter.mp hx
    -- A delivery is listed once, and it was listed under the name that is gone.
    have hsame := List.inj_on_of_nodup_map hs.keys hx hmem rfl
    rw [hsame] at hne
    simp at hne

end Queue

end Roundtable

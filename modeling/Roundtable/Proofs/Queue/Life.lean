import Roundtable.Proofs.Queue.Soundness

/-!
# The life of a topic

What happens to the messages of one incarnation of a topic is told by a list of acts
(`Roundtable.Topic.Act`), the last one first, and `Roundtable.Topic.Lives` says which lists
of acts lead to which topic. Everything a topic counts and holds can be read off its acts:

| what is asked | read off the acts |
|---|---|
| where is a message? | `Roundtable.Topic.Lives.ids_perm` |
| what do the counters say? | `Roundtable.Topic.Lives.counters_eq` |
| in which order are messages delivered? | `Roundtable.Topic.Lives.enqueued_eq` |

**A stamp is the id of a message with its attempt.** Publishing puts a stamp in line, and so
does putting a message back, for the next attempt; the line of stamps
(`Roundtable.Topic.enqueued`) is what deliveries follow. No stamp stands in line twice
(`Roundtable.Topic.Lives.nodup_enqueued`), because a message that is put back was the last of
its id to be put in line.
-/

namespace Roundtable

/-- The id of a message and the attempt it is on. -/
def Envelope.stamp {α : Type} (e : Envelope α) : Nat × Nat := (e.id, e.attempt)

/-- The message as it was published. -/
def Envelope.original {α : Type} (e : Envelope α) : Envelope α := { e with attempt := 1 }

namespace Topic

variable {α : Type}

/-! ### Acts -/

/-- Something that happens to a message of a topic. -/
inductive Act (α : Type)
  /-- It is published. -/
  | pushed (e : Envelope α)
  /-- A subscription, told by its number, receives it. -/
  | taken (sub : Nat) (e : Envelope α)
  /-- It is acknowledged. -/
  | acked (id : Nat)
  /-- It is refused and put back. -/
  | requeued (id : Nat)
  /-- It is refused and given up. -/
  | discarded (id : Nat)
deriving DecidableEq, Repr

/-- What was published, in order. -/
def published : List (Act α) → List (Envelope α)
  | [] => []
  | .pushed e :: acts => published acts ++ [e]
  | _ :: acts => published acts

/-- What was delivered and to whom, in order. -/
def delivered : List (Act α) → List (Nat × Envelope α)
  | [] => []
  | .taken sub e :: acts => delivered acts ++ [(sub, e)]
  | _ :: acts => delivered acts

/-- The ids that were acknowledged. -/
def acked : List (Act α) → List Nat
  | [] => []
  | .acked d :: acts => acked acts ++ [d]
  | _ :: acts => acked acts

/-- The ids that were put back. -/
def requeued : List (Act α) → List Nat
  | [] => []
  | .requeued d :: acts => requeued acts ++ [d]
  | _ :: acts => requeued acts

/-- The ids that were given up. -/
def discarded : List (Act α) → List Nat
  | [] => []
  | .discarded d :: acts => discarded acts ++ [d]
  | _ :: acts => discarded acts

/-- The attempt at which an id was last delivered; none counts as zero. -/
def attemptOf (d : Nat) : List (Act α) → Nat
  | [] => 0
  | .taken _ e :: acts => if e.id = d then e.attempt else attemptOf d acts
  | _ :: acts => attemptOf d acts

/-- **The line of stamps**: a message that is published is put in line for the first
attempt, and one that is put back for the attempt after the one at which it was delivered. -/
def enqueued : List (Act α) → List (Nat × Nat)
  | [] => []
  | .pushed e :: acts => enqueued acts ++ [(e.id, 1)]
  | .requeued d :: acts => enqueued acts ++ [(d, attemptOf d acts + 1)]
  | _ :: acts => enqueued acts

/-- The counters as the acts tell them. -/
def tally (acts : List (Act α)) : Counters where
  published := (published acts).length
  sentinels := (published acts).countP (·.payload.isSentinel)
  delivered := (delivered acts).length
  acked := (acked acts).length
  nacked := (requeued acts).length + (discarded acts).length
  requeued := (requeued acts).length
  discarded := (discarded acts).length

/-- **The acts lead to the topic.** An id is published once, what is delivered is the first
message that waits, and only what is in flight is acknowledged or refused. -/
inductive Lives : List (Act α) → Topic α → Prop
  | born : Lives [] .empty
  | push {acts : List (Act α)} {t : Topic α} {e : Envelope α} (h : Lives acts t)
      (hfirst : e.attempt = 1) (hnew : e.id ∉ (published acts).map (·.id)) :
      Lives (.pushed e :: acts) (t.push e)
  | take {acts : List (Act α)} {t t' : Topic α} {e : Envelope α} (h : Lives acts t)
      (sub : Nat) (ht : t.take = some (e, t')) : Lives (.taken sub e :: acts) t'
  | ack {acts : List (Act α)} {t : Topic α} {e : Envelope α} (h : Lives acts t)
      (he : e ∈ t.inFlight) : Lives (.acked e.id :: acts) (t.ack e.id)
  | requeue {acts : List (Act α)} {t : Topic α} {e : Envelope α} (h : Lives acts t)
      (he : e ∈ t.inFlight) : Lives (.requeued e.id :: acts) (t.requeue e)
  | discard {acts : List (Act α)} {t : Topic α} {e : Envelope α} (h : Lives acts t)
      (he : e ∈ t.inFlight) : Lives (.discarded e.id :: acts) (t.discard e.id)

/-! ### What a topic holds -/

section Holds

variable {t t' : Topic α} {e x : Envelope α} {d : Nat}

/-- The message waits or is in flight. -/
def Holds (t : Topic α) (e : Envelope α) : Prop := e ∈ t.ready ∨ e ∈ t.inFlight

theorem Holds.mem_ids (h : t.Holds e) : e.id ∈ t.ids :=
  List.mem_map_of_mem (List.mem_append.mpr h)

/-- What waits has another id than what is in flight. -/
theorem id_ne_of_nodup (hn : t.ids.Nodup) (hx : x ∈ t.ready) (he : e ∈ t.inFlight) :
    x.id ≠ e.id := by
  rw [ids, List.map_append] at hn
  exact (List.nodup_append.mp hn).2.2 _ (List.mem_map_of_mem hx) _ (List.mem_map_of_mem he)

theorem holds_push : (t.push e).Holds x ↔ t.Holds x ∨ x = e := by
  simp only [Holds, push, List.mem_append, List.mem_singleton]
  tauto

theorem holds_take (h : t.take = some (e, t')) : t'.Holds x ↔ t.Holds x := by
  obtain ⟨r, hr, rfl⟩ := take_eq_some_iff.mp h
  simp only [Holds, hr, List.mem_append, List.mem_cons, List.not_mem_nil, or_false]
  tauto

theorem Holds.of_ack (h : (t.ack d).Holds x) : t.Holds x :=
  h.imp_right List.mem_of_mem_filter

theorem Holds.of_discard (h : (t.discard d).Holds x) : t.Holds x :=
  h.imp_right List.mem_of_mem_filter

/-- A topic into which a message was put back holds that message and others. -/
theorem Holds.of_requeue (hn : t.ids.Nodup) (he : e ∈ t.inFlight) (h : (t.requeue e).Holds x) :
    t.Holds x ∧ x.id ≠ e.id ∨ x = { e with attempt := e.attempt + 1 } := by
  rcases h with h | h
  · rcases List.mem_append.mp h with h | h
    · exact .inl ⟨.inl h, id_ne_of_nodup hn h he⟩
    · exact .inr (List.mem_singleton.mp h)
  · obtain ⟨hmem, hne⟩ := List.mem_filter.mp h
    exact .inl ⟨.inr hmem, bne_iff_ne.mp hne⟩

end Holds

/-! ### Where the messages are -/

namespace Lives

variable {acts : List (Act α)} {t : Topic α} {e : Envelope α} {d : Nat}

theorem nodup_published (h : Lives acts t) : ((published acts).map (·.id)).Nodup := by
  induction h with
  | born => exact List.nodup_nil
  | @push acts t e _ _ hnew ih =>
    rw [published, List.map_append]
    refine List.nodup_append.mpr ⟨ih, List.nodup_singleton _, ?_⟩
    rintro a ha b hb rfl
    exact hnew ((List.mem_singleton.mp hb : a = e.id) ▸ ha)
  | take _ _ _ ih | ack _ _ ih | requeue _ _ ih | discard _ _ ih => exact ih

/-- **Every id that was published** waits, is in flight, was acknowledged or was given up. -/
theorem ids_perm (h : Lives acts t) :
    (t.ids ++ (acked acts ++ discarded acts)).Perm ((published acts).map (·.id)) := by
  induction h with
  | born => exact .refl _
  | @push acts t e _ _ _ ih =>
    rw [published, List.map_append]
    exact ((ids_push t e).append_right _).trans
      ((ih.cons e.id).trans (List.perm_append_singleton _ _).symm)
  | take _ _ ht ih => exact ((ids_take ht).append_right _).trans ih
  | @ack acts t e h he ih =>
    have hn := (ih.nodup_iff.mpr h.nodup_published).of_append_left
    refine .trans ?_ (((ids_ack hn he).append_right _).symm.trans ih)
    simp only [acked, discarded, List.append_assoc, List.cons_append, List.nil_append]
    exact (List.perm_middle.append_left _).trans List.perm_middle
  | @requeue acts t e h he ih =>
    have hn := (ih.nodup_iff.mpr h.nodup_published).of_append_left
    exact ((ids_requeue hn he).append_right _).symm.trans ih
  | @discard acts t e h he ih =>
    have hn := (ih.nodup_iff.mpr h.nodup_published).of_append_left
    refine .trans ?_ (((ids_discard hn he).append_right _).symm.trans ih)
    simp only [acked, discarded, ← List.append_assoc]
    exact List.perm_append_singleton _ _

theorem nodup_ids (h : Lives acts t) : t.ids.Nodup :=
  (h.ids_perm.nodup_iff.mpr h.nodup_published).of_append_left

/-- What a topic holds was published to it. -/
theorem mem_published_of_mem_ids (h : Lives acts t) (hd : d ∈ t.ids) :
    d ∈ (published acts).map (·.id) :=
  h.ids_perm.mem_iff.mp (List.mem_append_left _ hd)

/-- **What a topic holds was published as it is**, but for the attempt. -/
theorem original_mem (h : Lives acts t) (he : t.Holds e) : e.original ∈ published acts := by
  induction h generalizing e with
  | born => simp [Holds, Topic.empty] at he
  | @push acts t x _ hfirst _ ih =>
    rw [published, List.mem_append, List.mem_singleton]
    refine (holds_push.mp he).imp ih ?_
    rintro rfl
    rw [Envelope.original, ← hfirst]
  | take _ _ ht ih => exact ih ((holds_take ht).mp he)
  | ack _ _ ih => exact ih he.of_ack
  | discard _ _ ih => exact ih he.of_discard
  | @requeue acts t x h hx ih =>
    rcases he.of_requeue h.nodup_ids hx with ⟨he, -⟩ | rfl
    · exact ih he
    · have hsame : x.original ∈ published acts := ih (.inr hx)
      exact hsame

/-- **What was delivered was published as it is**, but for the attempt. -/
theorem original_mem_of_delivered (h : Lives acts t) :
    ∀ p ∈ delivered acts, p.2.original ∈ published acts := by
  induction h with
  | born => simp [delivered]
  | push _ _ _ ih => exact fun p hp => List.mem_append_left _ (ih p hp)
  | take h _ ht ih =>
    obtain ⟨r, hr, -⟩ := take_eq_some_iff.mp ht
    intro p hp
    rcases List.mem_append.mp hp with hp | hp
    · exact ih p hp
    · rw [List.mem_singleton.mp hp]
      exact h.original_mem (.inl (by simp [hr]))
  | ack _ _ ih | requeue _ _ ih | discard _ _ ih => exact ih

/-! ### What the counters say -/

/-- **The counters count the acts.** -/
theorem counters_eq (h : Lives acts t) : t.counters = tally acts := by
  induction h with
  | born => rfl
  | push _ _ _ ih =>
    simp [Topic.push, ih, tally, published, delivered, acked, requeued, discarded,
      List.countP_append, List.countP_singleton]
  | take _ _ ht ih =>
    obtain ⟨r, -, rfl⟩ := take_eq_some_iff.mp ht
    simp [ih, tally, published, delivered, acked, requeued, discarded]
  | ack _ _ ih => simp [Topic.ack, ih, tally, published, delivered, acked, requeued, discarded]
  | requeue _ _ ih =>
    simp [Topic.requeue, ih, tally, published, delivered, acked, requeued, discarded]
    omega
  | discard _ _ ih =>
    simp [Topic.discard, ih, tally, published, delivered, acked, requeued, discarded]
    omega

/-! ### In which order messages are delivered -/

/-- What is in flight is there at the attempt at which its id was last delivered. -/
theorem attemptOf_eq (h : Lives acts t) (he : e ∈ t.inFlight) :
    attemptOf e.id acts = e.attempt := by
  induction h with
  | born => simp [Topic.empty] at he
  | push _ _ _ ih => exact ih he
  | @take acts t t' x h _ ht ih =>
    obtain ⟨r, hr, rfl⟩ := take_eq_some_iff.mp ht
    rw [attemptOf]
    rcases List.mem_append.mp he with he | he
    · have hne := id_ne_of_nodup h.nodup_ids (x := x) (by simp [hr]) he
      rw [if_neg hne, ih he]
    · rw [if_pos (by rw [List.mem_singleton.mp he]), List.mem_singleton.mp he]
  | ack _ _ ih | requeue _ _ ih | discard _ _ ih => exact ih (List.mem_of_mem_filter he)

/-- **Deliveries follow the line of stamps**, and what waits is the rest of the line. -/
theorem enqueued_eq (h : Lives acts t) :
    enqueued acts = (delivered acts).map (·.2.stamp) ++ t.ready.map (·.stamp) := by
  induction h with
  | born => rfl
  | push _ hfirst _ ih => simp [enqueued, delivered, Topic.push, ih, Envelope.stamp, hfirst]
  | take _ _ ht ih =>
    obtain ⟨r, hr, rfl⟩ := take_eq_some_iff.mp ht
    simp [enqueued, delivered, ih, hr]
  | ack _ _ ih | discard _ _ ih => exact ih
  | requeue h he ih =>
    simp [enqueued, delivered, Topic.requeue, ih, h.attemptOf_eq he, Envelope.stamp]

/-! ### No stamp stands in line twice -/

/-- Only ids that were published stand in line. -/
theorem mem_published_of_mem_enqueued (h : Lives acts t) {s : Nat × Nat}
    (hs : s ∈ enqueued acts) : s.1 ∈ (published acts).map (·.id) := by
  rw [h.enqueued_eq, List.mem_append, List.mem_map, List.mem_map] at hs
  obtain ⟨p, hp, rfl⟩ | ⟨e, he, rfl⟩ := hs
  · exact List.mem_map_of_mem (f := (·.id)) (h.original_mem_of_delivered p hp)
  · exact List.mem_map_of_mem (f := (·.id)) (h.original_mem (.inl he))

/-- **What a topic holds is on the last attempt** its id was put in line for. -/
theorem attempt_le (h : Lives acts t) (he : t.Holds e) {a : Nat}
    (ha : (e.id, a) ∈ enqueued acts) : a ≤ e.attempt := by
  induction h generalizing e with
  | born => simp [enqueued] at ha
  | push h hfirst hnew ih =>
    rw [enqueued, List.mem_append, List.mem_singleton, Prod.mk.injEq] at ha
    rcases holds_push.mp he with he | rfl
    · refine ha.elim (ih he) fun ⟨hid, _⟩ => (hnew ?_).elim
      rw [← hid]
      exact h.mem_published_of_mem_ids he.mem_ids
    · rcases ha with ha | ⟨-, rfl⟩
      · exact (hnew (h.mem_published_of_mem_enqueued ha)).elim
      · exact Nat.le_of_eq hfirst.symm
  | take _ _ ht ih => exact ih ((holds_take ht).mp he) ha
  | ack _ _ ih => exact ih he.of_ack ha
  | discard _ _ ih => exact ih he.of_discard ha
  | requeue h hx ih =>
    rw [enqueued, List.mem_append, List.mem_singleton, Prod.mk.injEq, h.attemptOf_eq hx] at ha
    rcases he.of_requeue h.nodup_ids hx with ⟨he, hne⟩ | rfl
    · exact ha.elim (ih he) fun ⟨hid, _⟩ => (hne hid).elim
    · rcases ha with ha | ⟨-, rfl⟩
      · exact Nat.le_succ_of_le (ih (.inr hx) ha)
      · exact Nat.le_refl _

/-- **No stamp stands in line twice.** -/
theorem nodup_enqueued (h : Lives acts t) : (enqueued acts).Nodup := by
  have hconcat {l : List (Nat × Nat)} {s : Nat × Nat} (hl : l.Nodup) (hs : s ∉ l) :
      (l ++ [s]).Nodup :=
    (List.perm_append_singleton s l).nodup_iff.mpr (List.nodup_cons.mpr ⟨hs, hl⟩)
  induction h with
  | born => exact List.nodup_nil
  | push h _ hnew ih => exact hconcat ih fun hs => hnew (h.mem_published_of_mem_enqueued hs)
  | take _ _ _ ih | ack _ _ ih | discard _ _ ih => exact ih
  | requeue h he ih =>
    refine hconcat ih fun hs => ?_
    rw [h.attemptOf_eq he] at hs
    exact Nat.not_succ_le_self _ (h.attempt_le (.inr he) hs)

end Lives

/-! ### The books -/

/-- Every stamp in line was put there by publishing or by putting back. -/
theorem length_enqueued (acts : List (Act α)) :
    (enqueued acts).length = (published acts).length + (requeued acts).length := by
  induction acts with
  | nil => rfl
  | cons a acts ih =>
    cases a <;> simp only [enqueued, published, requeued, List.length_append,
      List.length_singleton, ih] <;> omega

/-- **The books of a topic balance**: every id that was published is in one place, the
counters count what has happened, and they agree with each other and with what the topic
holds. -/
structure Balanced (acts : List (Act α)) (t : Topic α) : Prop where
  /-- An id is published once. -/
  distinct : ((published acts).map (·.id)).Nodup
  /-- It waits, is in flight, is acknowledged or is given up: one of these, and once. -/
  places : (t.ready.map (·.id) ++ t.inFlight.map (·.id) ++ acked acts ++ discarded acts).Perm
    ((published acts).map (·.id))
  counters : t.stats.toCounters = tally acts
  published : t.stats.published =
    t.stats.acked + t.stats.discarded + t.stats.pending + t.stats.inFlight
  delivered : t.stats.delivered = t.stats.acked + t.stats.nacked + t.stats.inFlight
  nacked : t.stats.nacked = t.stats.requeued + t.stats.discarded
  requeued : t.stats.delivered + t.stats.pending = t.stats.published + t.stats.requeued

/-- **A topic that has come about by its acts has balanced books.** -/
theorem Lives.balanced {acts : List (Act α)} {t : Topic α} (h : Lives acts t) :
    Balanced acts t := by
  have hplaces := h.ids_perm
  rw [ids, List.map_append, ← List.append_assoc] at hplaces
  -- The places add up to what was published, and the line of stamps to what was delivered.
  have hpublished := hplaces.length_eq
  have hline := congrArg List.length h.enqueued_eq
  simp only [length_enqueued, List.length_append, List.length_map] at hpublished hline
  have hstats : t.stats = { tally acts with
      pending := t.ready.length, inFlight := t.inFlight.length } := by
    rw [stats, h.counters_eq]
  refine ⟨h.nodup_published, hplaces, by rw [hstats], ?_, ?_, ?_, ?_⟩ <;>
    simp only [hstats, tally] <;> omega

end Topic

end Roundtable

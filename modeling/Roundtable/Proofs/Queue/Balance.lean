import Roundtable.Proofs.Queue.Exchange

/-!
# The books of a queue

**No message is lost and none is doubled**, whatever is called on a queue and in whatever
order (`Roundtable.Queue.Exchange.balances`): the ids that were given out are the numbers from
one on, every one of them is in one place of one incarnation, the counters of each incarnation
add up, and the index lists exactly what waits or is in flight under a name in use. This holds
of incarnations that have lost their name just as well, though nothing that they hold can be
acknowledged any more.
-/

namespace Roundtable

namespace Queue

namespace Exchange

variable {α : Type}

/-- **The books of an exchange are in order.** -/
structure InBalance (x : Exchange α) (log : List (Dealing α)) : Prop where
  /-- The ids count from one on, across all topics. -/
  issued : Queue.issued log = List.range' 1 (x.queue.nextId - 1)
  /-- There is one incarnation for each era that came up. -/
  incarnations : x.queue.topics.length = (eras log).length
  eras : (eras log).Nodup
  /-- A name in use stands for the incarnation of the era it is in. -/
  names : ∀ topic i, x.queue.current? topic = some i ↔
    (Queue.eras log)[i]? = some (eraOf topic log)
  /-- Whatever was done to a message is in the books of an era. -/
  covered : ∀ a, .act a ∈ log → ∃ era ∈ Queue.eras log, a ∈ actsIn era log
  /-- The books of every incarnation balance. -/
  balanced : ∀ i era, (Queue.eras log)[i]? = some era →
    Topic.Balanced (actsIn era log) (x.queue.topicAt i)
  /-- The index lists an id once. -/
  keys : (x.queue.index.map (·.1)).Nodup
  /-- It lists what waits or is in flight under a name in use, with that name. -/
  index : ∀ d topic, (d, topic) ∈ x.queue.index ↔ ∃ i, x.queue.current? topic = some i ∧
    (d ∈ (x.queue.topicAt i).ready.map (·.id) ∨ d ∈ (x.queue.topicAt i).inFlight.map (·.id))

/-- **Whatever is called on a queue, no message is lost and none is doubled.** -/
theorem balances (calls : List (Call α)) : InBalance (run calls).1 (run calls).2 := by
  have h := told calls
  refine ⟨?_, h.placed.length, h.placed.distinct, h.placed.current, h.covered,
    fun i era hi => (h.lives i era hi).balanced, h.sound.keys, fun d topic => ?_⟩
  · rw [h.nextId, Nat.add_sub_cancel]
    exact h.issued
  · rw [h.sound.index]
    refine exists_congr fun i => and_congr h.sound.current?_eq_some_iff.symm ?_
    rw [Topic.ids, List.map_append, List.mem_append]

end Exchange

end Queue

end Roundtable

import Roundtable.Proofs.Queue.Renaming
import Roundtable.Proofs.Queue.Stalls

/-!
# The same under other numbers

Deliveries and subscriptions are numbered for all names of a queue together, so the same
doings under one name get other numbers where other things are done under the other names.
Two stalls are alike if the one is the other renumbered (`Roundtable.Queue.Stall.Alike`): then
**a call on the one and the renumbered call on the other are answered alike and leave them
alike** (`Roundtable.Queue.Stall.Alike.answer`), if what was numbered before keeps its number
for itself and what is numbered now gets the number that the other gives it.
-/

namespace Roundtable

/-- The error about a delivery under another number. -/
def QueueError.rename (f : Nat → Nat) : QueueError → QueueError
  | .unknownDelivery d => .unknownDelivery (f d)
  | .notInFlight d => .notInFlight (f d)

namespace Queue

variable {α : Type} {f g : Nat → Nat}

/-! ### Calls and replies under other numbers -/

/-- The attempt with the delivery under another number. -/
def Attempt.rename (f : Nat → Nat) : Attempt α → Attempt α
  | .message e => .message (e.rename f)
  | .pending => .pending
  | .ended => .ended

/-- The call with deliveries and subscriptions under other numbers. -/
def Call.rename (f g : Nat → Nat) : Call α → Call α
  | .next n => .next (g n)
  | .ack d => .ack (f d)
  | .nack d requeue => .nack (f d) requeue
  | .publish topic v => .publish topic v
  | .publishSentinel topic => .publishSentinel topic
  | .subscribe topic => .subscribe topic
  | .stats topic => .stats topic
  | .remove topic => .remove topic

/-- The reply with deliveries and subscriptions under other numbers. -/
def Reply.rename (f g : Nat → Nat) : Reply α → Reply α
  | .published d => .published (f d)
  | .subscribed n => .subscribed (g n)
  | .attempt a => .attempt (a.rename f)
  | .refused e => .refused (e.rename f)
  | .settled => .settled
  | .stats s => .stats s
  | .stranger => .stranger

/-- The dealing with deliveries and subscriptions under other numbers. -/
def Dealing.rename (f g : Nat → Nat) : Dealing α → Dealing α
  | .act (.pushed e) => .act (.pushed (e.rename f))
  | .act (.taken n e) => .act (.taken (g n) (e.rename f))
  | .act (.acked d) => .act (.acked (f d))
  | .act (.requeued d) => .act (.requeued (f d))
  | .act (.discarded d) => .act (.discarded (f d))
  | .subscribed topic n => .subscribed topic (g n)
  | .removed topic => .removed topic

/-- The call gives out an id. -/
def Call.publishes : Call α → Bool
  | .publish .. | .publishSentinel _ => true
  | _ => false

/-- The call gives out the number of a subscription. -/
def Call.subscribes : Call α → Bool
  | .subscribe _ => true
  | _ => false

/-- What was done by a renumbered call that got a renumbered reply. -/
theorem Dealing.of?_rename (c : Call α) (r : Reply α) :
    Dealing.of? (c.rename f g) (r.rename f g) = (Dealing.of? c r).map (Dealing.rename f g) := by
  cases c with
  | publish | publishSentinel | subscribe => cases r <;> rfl
  | next n =>
    cases r with
    | attempt a => cases a <;> rfl
    | _ => rfl
  | ack d => cases r <;> rfl
  | nack d requeue => cases requeue <;> cases r <;> rfl
  | stats topic => cases r <;> rfl
  | remove topic =>
    cases r with
    | stats s => cases s <;> rfl
    | _ => rfl

/-! ### Stalls -/

namespace Stall

variable {σ σ' : Stall α} {d id id' n n' k : Nat} {c : Call α} {topic : String}
  {t t' : Topic α}

/-- **The one stall is the other renumbered**, deliveries by `f` and subscriptions by `g`. -/
structure Alike (f g : Nat → Nat) (σ σ' : Stall α) : Prop where
  removals : σ'.removals = σ.removals
  inUse : σ'.inUse = σ.inUse
  content : ∀ k, σ'.content k = (σ.content k).rename f
  seats : ∀ n, σ'.seats (g n) = σ.seats n

namespace Alike

theorem present (h : σ.Alike f g σ') : σ'.present = σ.present.rename f := by
  rw [Stall.present, h.removals, h.content, Stall.present]

theorem put (h : σ.Alike f g σ') (ht : t' = t.rename f) :
    (σ.put k t).Alike f g (σ'.put k t') := by
  refine ⟨h.removals, h.inUse, fun j => ?_, h.seats⟩
  rcases eq_or_ne j k with rfl | hne
  · simpa [Stall.put] using ht
  · simpa [Stall.put, hne] using h.content j

/-- A subscription gets its place in both, if no other has got its number. -/
theorem seat (h : σ.Alike f g σ') (hn : ∀ m, g m = g n → m = n) (k : Nat) (finished : Bool) :
    (σ.seat n k finished).Alike f g (σ'.seat (g n) k finished) := by
  refine ⟨h.removals, h.inUse, h.content, fun m => ?_⟩
  rcases eq_or_ne m n with rfl | hne
  · simp [Stall.seat]
  · have hne' : g m ≠ g n := fun heq => hne (hn m heq)
    simpa [Stall.seat, hne, hne'] using h.seats m

theorem push (h : σ.Alike f g σ') (hid : f id = id') (p : Payload α) :
    (σ.push topic id p).Alike f g (σ'.push topic id' p) := by
  have hpush : σ'.present.push ⟨topic, p, id', 1⟩ =
      (σ.present.push ⟨topic, p, id, 1⟩).rename f := by
    rw [Topic.rename_push, h.present, ← hid]
    rfl
  have hput := h.put (k := σ.removals) hpush
  rw [Stall.push, Stall.push, h.removals]
  exact ⟨hput.removals, rfl, hput.content, hput.seats⟩

/-- **A delivery is settled alike** if no other that stands there has got its number. -/
theorem settle (h : σ.Alike f g σ') (hd : ∀ x ∈ σ.present.ids, f x = f d → x = d)
    {m m' : Envelope α → Topic α → Topic α}
    (hm : ∀ e, σ.present.held? d = some e →
      m' (e.rename f) (σ.present.rename f) = (m e σ.present).rename f) :
    (σ'.settle (f d) m').1 = (σ.settle d m).1.rename f g ∧
      (σ.settle d m).2.Alike f g (σ'.settle (f d) m').2 := by
  have hheld : σ'.present.held? (f d) = (σ.present.held? d).map (Envelope.rename f) := by
    rw [h.present, Topic.held?_rename hd]
  have hids : f d ∈ σ'.present.ids ↔ d ∈ σ.present.ids := by
    rw [h.present, Topic.ids_rename, List.mem_map]
    exact ⟨fun ⟨x, hx, hxd⟩ => hd x hx hxd ▸ hx, fun hmem => ⟨d, hmem, rfl⟩⟩
  rw [Stall.settle, Stall.settle, hheld]
  cases hh : σ.present.held? d with
  | none =>
    refine ⟨congrArg Reply.refused ?_, h⟩
    by_cases hmem : d ∈ σ.present.ids
    · rw [if_pos hmem, if_pos (hids.mpr hmem)]
      rfl
    · rw [if_neg hmem, if_neg fun hmem' => hmem (hids.mp hmem')]
      rfl
  | some e =>
    refine ⟨rfl, ?_⟩
    rw [h.removals]
    exact h.put (by rw [h.present, hm e hh])

/-- **A call and the renumbered call are answered alike** and leave the stalls alike. -/
theorem answer (h : σ.Alike f g σ') (topic : String) (id id' n n' : Nat) (c : Call α)
    (hids : ∀ k, ∀ d ∈ (σ.content k).ids, ∀ x, f x = f d → x = d)
    (hseats : ∀ n, σ.seats n ≠ none → ∀ m, g m = g n → m = n)
    (hid : c.publishes = true → f id = id')
    (hn : c.subscribes = true → g n = n' ∧ ∀ m, g m = g n → m = n) :
    (σ'.answer topic id' n' (c.rename f g)).1 = (σ.answer topic id n c).1.rename f g ∧
      (σ.answer topic id n c).2.Alike f g (σ'.answer topic id' n' (c.rename f g)).2 := by
  have hown : ∀ d, ∀ x ∈ σ.present.ids, f x = f d → x = d :=
    fun d x hx heq => (hids σ.removals x hx d heq.symm).symm
  cases c with
  | publish u v =>
    exact ⟨congrArg Reply.published (hid rfl).symm, h.push (hid rfl) (.item v)⟩
  | publishSentinel u =>
    exact ⟨congrArg Reply.published (hid rfl).symm, h.push (hid rfl) .sentinel⟩
  | subscribe u =>
    obtain ⟨rfl, hsep⟩ := hn rfl
    have hseat := h.seat hsep σ.removals false
    refine ⟨rfl, hseat.removals, rfl, hseat.content, fun m => ?_⟩
    simpa only [Call.rename, Stall.answer, h.removals] using hseat.seats m
  | next m =>
    simp only [Call.rename, Stall.answer, h.seats m]
    cases hm : σ.seats m with
    | none => exact ⟨rfl, h⟩
    | some place =>
      obtain ⟨k, finished⟩ := place
      cases finished with
      | true => exact ⟨rfl, h⟩
      | false =>
        simp only [h.content k, Topic.take_rename]
        cases (σ.content k).take with
        | none => exact ⟨rfl, h⟩
        | some taken =>
          have hsep := hseats m (by simp [hm])
          exact ⟨rfl, (h.put rfl).seat hsep k taken.1.payload.isSentinel⟩
  | ack d =>
    exact h.settle (hown d) fun e he => (Topic.rename_ack_of_inj (hown d)).symm
  | nack d requeue =>
    cases requeue with
    | true =>
      refine h.settle (hown d) fun e he => ?_
      obtain ⟨-, rfl⟩ := Topic.held?_eq_some he
      exact (Topic.rename_requeue (hown e.id)).symm
    | false => exact h.settle (hown d) fun e he => (Topic.rename_discard (hown d)).symm
  | stats u =>
    refine ⟨?_, h⟩
    simp only [Call.rename, Stall.answer, h.inUse, h.present, Topic.stats_rename, Reply.rename]
  | remove u =>
    simp only [Call.rename, Stall.answer, h.inUse, h.present, Topic.stats_rename, h.removals]
    split
    · exact ⟨rfl, rfl, rfl, h.content, h.seats⟩
    · exact ⟨rfl, h⟩

end Alike

end Stall

end Queue

end Roundtable

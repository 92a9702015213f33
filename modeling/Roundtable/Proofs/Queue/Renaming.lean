import Mathlib.Data.Set.Function
import Roundtable.Proofs.Queue.Soundness

/-!
# Deliveries under other numbers

A queue numbers its deliveries as they come, whatever their topic, so the numbers of one
topic tell how much was published to the others. Nothing else of a topic does: with its
deliveries renumbered by a function, a topic takes, holds and acknowledges the same messages
(`Roundtable.Topic.take_rename`, `Roundtable.Topic.rename_ack`), and its statistics are the
same. Only where one delivery is picked out, to be acknowledged or refused, must no other
have got its number.
-/

namespace Roundtable

variable {α : Type} {f g : Nat → Nat}

/-- The message under another number. -/
def Envelope.rename (f : Nat → Nat) (e : Envelope α) : Envelope α := { e with id := f e.id }

namespace Topic

variable {t t' : Topic α} {e : Envelope α} {d : Nat}

/-- The topic with its deliveries under other numbers. -/
def rename (f : Nat → Nat) (t : Topic α) : Topic α :=
  { t with
    ready := t.ready.map (Envelope.rename f)
    inFlight := t.inFlight.map (Envelope.rename f) }

@[simp] theorem rename_empty : (Topic.empty : Topic α).rename f = .empty := rfl

@[simp] theorem stats_rename : (t.rename f).stats = t.stats := by
  simp [stats, rename]

theorem ids_rename : (t.rename f).ids = t.ids.map f := by
  simp [ids, rename, Envelope.rename, Function.comp_def]

theorem inFlight_rename :
    (t.rename f).inFlight.map (·.id) = (t.inFlight.map (·.id)).map f := by
  simp [rename, Envelope.rename, Function.comp_def]

/-- Only the numbers of the deliveries that are there matter. -/
theorem rename_congr (h : ∀ d ∈ t.ids, f d = g d) : t.rename f = t.rename g := by
  have hall : ∀ e ∈ t.ready ++ t.inFlight, e.rename f = e.rename g := by
    intro e he
    rw [Envelope.rename, Envelope.rename, h e.id (List.mem_map_of_mem he)]
  have hready := List.map_congr_left fun e he => hall e (List.mem_append_left _ he)
  have hflight := List.map_congr_left fun e he => hall e (List.mem_append_right _ he)
  rw [rename, rename, hready, hflight]

/-- Where all keep their numbers, nothing changes. -/
theorem rename_eq_self (h : ∀ d ∈ t.ids, f d = d) : t.rename f = t := by
  have hself : t.rename id = t := by
    have hid : (Envelope.rename id : Envelope α → Envelope α) = id := rfl
    rw [rename, hid, List.map_id, List.map_id]
  rw [rename_congr h]
  exact hself

theorem rename_push : (t.push e).rename f = (t.rename f).push (e.rename f) := by
  simp only [rename, push, List.map_append, List.map_singleton]
  rfl

/-- **The same message is the first** under its other number. -/
theorem take_rename :
    (t.rename f).take = t.take.map fun p => (p.1.rename f, p.2.rename f) := by
  unfold take
  cases h : t.ready with
  | nil => simp [rename, h]
  | cons e r => simp [rename, h]

theorem take_rename_eq_some (h : (t.rename f).take = some (e, t')) :
    ∃ e₁ t₁, t.take = some (e₁, t₁) ∧ e = e₁.rename f ∧ t' = t₁.rename f := by
  rw [take_rename, Option.map_eq_some_iff] at h
  obtain ⟨⟨e₁, t₁⟩, htake, heq⟩ := h
  obtain ⟨rfl, rfl⟩ := Prod.mk.inj heq
  exact ⟨e₁, t₁, htake, rfl, rfl⟩

/-- **The same message is held** under its other number, if no other one has got it. -/
theorem held?_rename (h : ∀ x ∈ t.ids, f x = f d → x = d) :
    (t.rename f).held? (f d) = (t.held? d).map (Envelope.rename f) := by
  have hid : ∀ e ∈ t.inFlight, e.id ∈ t.ids :=
    fun e he => List.mem_map_of_mem (List.mem_append_right _ he)
  have hsame : t.inFlight.find? ((·.id == f d) ∘ Envelope.rename f) =
      t.inFlight.find? (·.id == d) := by
    rw [← List.head?_filter, ← List.head?_filter]
    refine congrArg _ (List.filter_congr fun e he => ?_)
    rw [Function.comp_apply, Envelope.rename, Bool.eq_iff_iff, beq_iff_eq, beq_iff_eq]
    exact ⟨h e.id (hid e he), congrArg f⟩
  rw [held?, held?, rename, List.find?_map, hsame]

/-- What stays in flight is the same. -/
theorem release_rename (h : ∀ x ∈ t.ids, f x = f d → x = d) :
    (t.rename f).release (f d) = (t.release d).map (Envelope.rename f) := by
  rw [release, release, rename, List.filter_map]
  refine congrArg _ (List.filter_congr fun e he => ?_)
  rw [Function.comp_apply, Envelope.rename, Bool.eq_iff_iff, bne_iff_ne, bne_iff_ne, not_iff_not]
  exact ⟨h e.id (List.mem_map_of_mem (List.mem_append_right _ he)), congrArg f⟩

theorem rename_ack_of_inj (h : ∀ x ∈ t.ids, f x = f d → x = d) :
    (t.ack d).rename f = (t.rename f).ack (f d) := by
  rw [ack, ack, release_rename h]
  rfl

theorem rename_discard (h : ∀ x ∈ t.ids, f x = f d → x = d) :
    (t.discard d).rename f = (t.rename f).discard (f d) := by
  rw [discard, discard, release_rename h]
  rfl

theorem rename_requeue (h : ∀ x ∈ t.ids, f x = f e.id → x = e.id) :
    (t.requeue e).rename f = (t.rename f).requeue (e.rename f) := by
  have hrelease : (t.rename f).release (e.rename f).id = (t.release e.id).map (Envelope.rename f) :=
    release_rename h
  rw [requeue, requeue, hrelease, rename, List.map_append]
  rfl

/-- **An acknowledgement strikes the same message**, if no other one has got its number. -/
theorem rename_ack (hn : (t.rename f).ids.Nodup) (hd : d ∈ t.inFlight.map (·.id)) :
    (t.ack d).rename f = (t.rename f).ack (f d) := by
  rw [ids_rename] at hn
  have hmem : d ∈ t.ids := by
    rw [ids, List.map_append]
    exact List.mem_append_right _ hd
  exact rename_ack_of_inj fun x hx hxd => List.inj_on_of_nodup_map hn hx hmem hxd

end Topic

end Roundtable

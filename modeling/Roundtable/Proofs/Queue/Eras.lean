import Roundtable.Proofs.Queue.Life
import Roundtable.Proofs.Queue.Neighbours

/-!
# The eras of a name

What is done with a queue is told by a log of dealings, as the callers see them, the last one
first (`Roundtable.Queue.Dealing`). **An era of a name is the time between two removals of
it** (`Roundtable.Queue.Era`). The log alone tells the eras that came up
(`Roundtable.Queue.eras`), to which era a subscription, a message or an acknowledgement
belongs (`Roundtable.Queue.eraFor`), and what happened in an era
(`Roundtable.Queue.actsIn`).

A queue keeps to that (`Roundtable.Queue.Placed`): it has one incarnation for each era, in the
order in which they began, and a name stands for the incarnation of the era it is in. Entering
a name begins an era if the name is not in use, and taking it away ends the era without
beginning the next.
-/

namespace Roundtable

namespace Queue

variable {α : Type}

/-! ### Dealings and eras -/

/-- Something that was done, as the caller sees it. -/
inductive Dealing (α : Type)
  | act (a : Topic.Act α)
  | subscribed (topic : String) (sub : Nat)
  | removed (topic : String)
deriving DecidableEq, Repr

/-- An era of a name. -/
structure Era where
  topic : String
  /-- How often the name was taken away before. -/
  number : Nat
deriving DecidableEq, Repr

/-- How often the name was taken away. -/
def removals (topic : String) : List (Dealing α) → Nat
  | [] => 0
  | .removed t :: log => removals topic log + if t = topic then 1 else 0
  | _ :: log => removals topic log

/-- The era a name is in. -/
def eraOf (topic : String) (log : List (Dealing α)) : Era := ⟨topic, removals topic log⟩

/-- The name that comes into use by a dealing if it is not in use. -/
def Dealing.entered? : Dealing α → Option String
  | .act (.pushed e) => some e.topic
  | .subscribed topic _ => some topic
  | _ => none

/-- **The eras that came up**, in the order in which they began. -/
def eras : List (Dealing α) → List Era
  | [] => []
  | d :: log =>
    match d.entered? with
    | some topic =>
      if eraOf topic log ∈ eras log then eras log else eras log ++ [eraOf topic log]
    | none => eras log

/-- The era in which a subscription was made. -/
def homeOf? (sub : Nat) : List (Dealing α) → Option Era
  | [] => none
  | .subscribed topic n :: log => if n = sub then some (eraOf topic log) else homeOf? sub log
  | _ :: log => homeOf? sub log

/-- The era in which an id was published. -/
def birthOf? (id : Nat) : List (Dealing α) → Option Era
  | [] => none
  | .act (.pushed e) :: log => if e.id = id then some (eraOf e.topic log) else birthOf? id log
  | _ :: log => birthOf? id log

/-- **The era an act belongs to**: a message is published in the era its topic is in, it is
received in that of the subscription, and all else belongs to the era its id was published
in. -/
def eraFor (log : List (Dealing α)) : Topic.Act α → Option Era
  | .pushed e => some (eraOf e.topic log)
  | .taken n _ => homeOf? n log
  | .acked d | .requeued d | .discarded d => birthOf? d log

/-- **The acts of an era**, the last one first. -/
def actsIn (era : Era) : List (Dealing α) → List (Topic.Act α)
  | [] => []
  | .act a :: log => if eraFor log a = some era then a :: actsIn era log else actsIn era log
  | _ :: log => actsIn era log

/-- The ids that were given out, in order. -/
def issued : List (Dealing α) → List Nat
  | [] => []
  | .act (.pushed e) :: log => issued log ++ [e.id]
  | _ :: log => issued log

/-! ### What the log alone tells -/

section Log

variable {log : List (Dealing α)} {d : Dealing α} {a : Topic.Act α} {era : Era} {i n : Nat}
  {topic : String}

/-- A name that is entered is not taken away, and no other is. -/
theorem eraOf_of_entered? (h : d.entered? = some topic) (other : String) :
    eraOf other (d :: log) = eraOf other log := by
  match d with
  | .act (.pushed _) | .subscribed .. => rfl
  | .removed _ | .act (.taken ..) | .act (.acked _) | .act (.requeued _)
  | .act (.discarded _) => simp [Dealing.entered?] at h

theorem eras_of_entered?_eq_none (h : d.entered? = none) : eras (d :: log) = eras log := by
  rw [eras, h]

theorem eras_of_mem (h : d.entered? = some topic) (hmem : eraOf topic log ∈ eras log) :
    eras (d :: log) = eras log := by
  simp only [eras, h, if_pos hmem]

theorem eras_of_not_mem (h : d.entered? = some topic) (hmem : eraOf topic log ∉ eras log) :
    eras (d :: log) = eras log ++ [eraOf topic log] := by
  simp only [eras, h, if_neg hmem]

/-- Eras that came up stay where they are. -/
theorem prefix_eras_cons (d : Dealing α) (log : List (Dealing α)) :
    eras log <+: eras (d :: log) := by
  cases h : d.entered? with
  | none => exact eras_of_entered?_eq_none h ▸ List.prefix_rfl
  | some topic =>
    by_cases hmem : eraOf topic log ∈ eras log
    · exact eras_of_mem h hmem ▸ List.prefix_rfl
    · rw [eras_of_not_mem h hmem]
      exact List.prefix_append _ _

theorem mem_eras_of_entered? (h : d.entered? = some topic) :
    eraOf topic log ∈ eras (d :: log) := by
  by_cases hmem : eraOf topic log ∈ eras log
  · rwa [eras_of_mem h hmem]
  · rw [eras_of_not_mem h hmem]
    exact List.mem_append_right _ (List.mem_singleton_self _)

theorem mem_eras_of_homeOf? (h : homeOf? n log = some era) : era ∈ eras log := by
  induction log with
  | nil => simp [homeOf?] at h
  | cons d log ih =>
    cases d with
    | act a | removed topic => exact (prefix_eras_cons _ log).subset (ih h)
    | subscribed topic m =>
      rw [homeOf?] at h
      split at h
      · exact Option.some.inj h ▸ mem_eras_of_entered? rfl
      · exact (prefix_eras_cons _ log).subset (ih h)

theorem mem_eras_of_birthOf? {id : Nat} (h : birthOf? id log = some era) : era ∈ eras log := by
  induction log with
  | nil => simp [birthOf?] at h
  | cons d log ih =>
    match d with
    | .subscribed .. | .removed _ | .act (.taken ..) | .act (.acked _) | .act (.requeued _)
    | .act (.discarded _) => exact (prefix_eras_cons _ log).subset (ih h)
    | .act (.pushed e) =>
      rw [birthOf?] at h
      split at h
      · exact Option.some.inj h ▸ mem_eras_of_entered? rfl
      · exact (prefix_eras_cons _ log).subset (ih h)

/-- The era of an act is one that came up. -/
theorem mem_eras_of_eraFor (h : eraFor log a = some era) : era ∈ eras (.act a :: log) := by
  cases a with
  | pushed e => exact Option.some.inj h ▸ mem_eras_of_entered? rfl
  | taken n e => exact (prefix_eras_cons _ log).subset (mem_eras_of_homeOf? h)
  | acked id | requeued id | discarded id =>
    exact (prefix_eras_cons _ log).subset (mem_eras_of_birthOf? h)

theorem actsIn_act_self (h : eraFor log a = some era) :
    actsIn era (.act a :: log) = a :: actsIn era log := by
  rw [actsIn, if_pos h]

theorem actsIn_act_ne (h : eraFor log a ≠ some era) :
    actsIn era (.act a :: log) = actsIn era log := by
  rw [actsIn, if_neg h]

theorem suffix_actsIn_cons (era : Era) (d : Dealing α) (log : List (Dealing α)) :
    actsIn era log <:+ actsIn era (d :: log) := by
  cases d with
  | act a =>
    by_cases h : eraFor log a = some era
    · exact actsIn_act_self h ▸ List.suffix_cons _ _
    · exact actsIn_act_ne h ▸ List.suffix_rfl
  | subscribed | removed => exact List.suffix_rfl

/-- **Nothing happened in an era that has not come up.** -/
theorem actsIn_eq_nil (h : era ∉ eras log) : actsIn era log = [] := by
  induction log with
  | nil => rfl
  | cons d log ih =>
    have hlog := ih fun hmem => h ((prefix_eras_cons d log).subset hmem)
    cases d with
    | act a => rw [actsIn_act_ne fun ha => h (mem_eras_of_eraFor ha), hlog]
    | subscribed | removed => exact hlog

/-- A message that is published joins what was published in the era its topic is in. -/
theorem published_actsIn_pushed (e : Envelope α) :
    Topic.published (actsIn era (.act (.pushed e) :: log)) =
      Topic.published (actsIn era log) ++ if eraOf e.topic log = era then [e] else [] := by
  have hera : eraFor log (.pushed e) = some (eraOf e.topic log) := rfl
  by_cases h : eraOf e.topic log = era
  · rw [actsIn_act_self (hera.trans (congrArg some h)), if_pos h, Topic.published]
  · rw [actsIn_act_ne fun hs => h (Option.some.inj (hera.symm.trans hs)), if_neg h,
      List.append_nil]

theorem published_actsIn_other (h : ∀ e, d ≠ .act (.pushed e)) :
    Topic.published (actsIn era (d :: log)) = Topic.published (actsIn era log) := by
  cases d with
  | subscribed | removed => rfl
  | act a =>
    rw [actsIn]
    split
    · cases a with
      | pushed e => exact (h e rfl).elim
      | taken | acked | requeued | discarded => rfl
    · rfl

/-- What was published in an era was given out. -/
theorem mem_issued_of_published {id : Nat}
    (h : id ∈ (Topic.published (actsIn era log)).map (·.id)) : id ∈ issued log := by
  induction log with
  | nil => simp [actsIn, Topic.published] at h
  | cons d log ih =>
    cases d with
    | act a =>
      cases a with
      | pushed e =>
        rw [published_actsIn_pushed, List.map_append, List.mem_append] at h
        refine List.mem_append.mpr (h.imp ih fun h => ?_)
        split at h
        · exact h
        · simp at h
      | taken | acked | requeued | discarded =>
        rw [published_actsIn_other (by simp)] at h
        exact ih h
    | subscribed | removed =>
      rw [published_actsIn_other (by simp)] at h
      exact ih h

/-- **An id that is given out once was published in the era in which it is found.** -/
theorem birthOf?_of_published {id : Nat} (hn : (issued log).Nodup)
    (h : id ∈ (Topic.published (actsIn era log)).map (·.id)) : birthOf? id log = some era := by
  induction log with
  | nil => simp [actsIn, Topic.published] at h
  | cons d log ih =>
    cases d with
    | act a =>
      cases a with
      | pushed e =>
        obtain ⟨hlog, -, hnew⟩ := List.nodup_append.mp hn
        rw [published_actsIn_pushed, List.map_append, List.mem_append] at h
        rw [birthOf?]
        rcases h with h | h
        · have hne := hnew id (mem_issued_of_published h) e.id (List.mem_singleton_self _)
          rw [if_neg hne.symm, ih hlog h]
        · split at h
          · next hera => rw [if_pos (by simpa [eq_comm] using h), hera]
          · simp at h
      | taken | acked | requeued | discarded =>
        rw [published_actsIn_other (by simp)] at h
        exact ih hn h
    | subscribed | removed =>
      rw [published_actsIn_other (by simp)] at h
      exact ih hn h

/-- An act that belongs to an era keeps the log free of acts that belong to none. -/
theorem covered_cons {log : List (Dealing α)} {d : Dealing α}
    (h : ∀ a, .act a ∈ log → ∃ era ∈ eras log, a ∈ actsIn era log)
    (hd : ∀ a, d = .act a → ∃ era, eraFor log a = some era) :
    ∀ a, .act a ∈ d :: log → ∃ era ∈ eras (d :: log), a ∈ actsIn era (d :: log) := by
  intro a ha
  rcases List.mem_cons.mp ha with rfl | ha
  · obtain ⟨era, hera⟩ := hd a rfl
    exact ⟨era, mem_eras_of_eraFor hera, by rw [actsIn_act_self hera]; exact List.mem_cons_self⟩
  · obtain ⟨era, hera, hmem⟩ := h a ha
    exact ⟨era, (prefix_eras_cons d log).subset hera, (suffix_actsIn_cons era d log).subset hmem⟩

end Log

/-! ### One incarnation for each era -/

/-- **The queue has one incarnation for each era**, in the order in which the eras began, and
a name stands for the incarnation of the era it is in. -/
structure Placed (q : Queue α) (log : List (Dealing α)) : Prop where
  length : q.topics.length = (eras log).length
  distinct : (eras log).Nodup
  /-- No era is ahead of the one its name is in. -/
  past : ∀ era ∈ eras log, era.number ≤ removals era.topic log
  current : ∀ topic i, q.current? topic = some i ↔ (eras log)[i]? = some (eraOf topic log)

namespace Placed

variable {q q' : Queue α} {log : List (Dealing α)} {d : Dealing α} {topic : String} {i : Nat}

theorem empty : Placed (Queue.empty : Queue α) [] :=
  ⟨rfl, List.nodup_nil, by simp [eras], by simp [Queue.empty, Queue.current?, eras]⟩

theorem lt_length (h : Placed q log) {era : Era} (hi : (eras log)[i]? = some era) :
    i < q.topics.length :=
  h.length ▸ (List.getElem?_eq_some_iff.mp hi).1

/-- Only the number of incarnations and the names matter. -/
theorem congr (h : Placed q log) (hl : q'.topics.length = q.topics.length)
    (hn : q'.names = q.names) : Placed q' log :=
  ⟨hl.trans h.length, h.distinct, h.past,
    fun topic i => by rw [current?, hn]; exact h.current topic i⟩

/-- An act that publishes nothing leaves the eras alone. -/
theorem act (h : Placed q log) {a : Topic.Act α} (ha : (Dealing.act a).entered? = none) :
    Placed q (.act a :: log) := by
  have heras : eras (.act a :: log) = eras log := eras_of_entered?_eq_none ha
  exact ⟨by rw [heras, h.length], heras ▸ h.distinct, heras ▸ h.past, heras ▸ h.current⟩

/-- **Entering a name** begins an era if the name is not in use. -/
theorem enter (h : Placed q log) (hd : d.entered? = some topic) :
    Placed (q.enter topic).2 (d :: log) := by
  have hsame (other : String) : eraOf other (d :: log) = eraOf other log :=
    eraOf_of_entered? hd other
  have hr (other : String) : removals other (d :: log) = removals other log :=
    congrArg Era.number (hsame other)
  have hpast : ∀ era ∈ eras log, era.number ≤ removals era.topic (d :: log) := fun era hera => by
    rw [hr]
    exact h.past era hera
  cases hc : q.current? topic with
  | some i =>
    have heras := eras_of_mem hd (List.mem_of_getElem? ((h.current topic i).mp hc))
    rw [enter_of_some hc]
    refine ⟨by rw [heras, h.length], heras ▸ h.distinct, heras ▸ hpast, fun other j => ?_⟩
    rw [heras, hsame]
    exact h.current other j
  | none =>
    have hnew : eraOf topic log ∉ eras log := fun hmem => by
      obtain ⟨i, hi⟩ := List.mem_iff_getElem?.mp hmem
      exact Option.some_ne_none i (((h.current topic i).mpr hi).symm.trans hc)
    have heras := eras_of_not_mem hd hnew
    have hfst : (q.enter topic).1 = (eras log).length := by
      simp [Queue.enter, hc, h.length]
    refine ⟨?_, ?_, fun era hera => ?_, fun other j => ?_⟩
    · simp [heras, Queue.enter, hc, h.length]
    · rw [heras]
      exact (List.perm_append_singleton _ _).nodup_iff.mpr (List.nodup_cons.mpr ⟨hnew, h.distinct⟩)
    · rw [heras, List.mem_append, List.mem_singleton] at hera
      refine hera.elim (hpast era) ?_
      rintro rfl
      exact Nat.le_of_eq (hr topic).symm
    · rw [heras, hsame, getElem?_concat_eq_some_iff]
      rcases eq_or_ne other topic with rfl | hne
      · -- The era that begins is the only one that is the present era of the name.
        rw [current?_enter, hfst, ← h.current, hc]
        simp [eq_comm]
      · have hother : eraOf topic log ≠ eraOf other log :=
          fun heq => hne (congrArg Era.topic heq).symm
        simp [current?_enter_ne hne, h.current, hother]

/-- The name that is entered stands for the incarnation of its era. -/
theorem getElem?_enter (h : Placed q log) (hd : d.entered? = some topic) :
    (eras (d :: log))[(q.enter topic).1]? = some (eraOf topic log) := by
  have hsame : eraOf topic (d :: log) = eraOf topic log := eraOf_of_entered? hd topic
  exact hsame ▸ ((h.enter hd).current topic _).mp current?_enter

/-- **Taking a name away** ends its era. -/
theorem remove (h : Placed q log) (hc : q.current? topic = some i) :
    Placed (q.remove topic).2 (.removed topic :: log) := by
  have heras : eras (.removed topic :: log) = eras log := eras_of_entered?_eq_none rfl
  have htopics : (q.remove topic).2.topics = q.topics := by
    simp [Queue.remove, hc]
  refine ⟨by rw [heras, htopics, h.length], heras ▸ h.distinct, fun era hera => ?_,
    fun other j => ?_⟩
  · rw [removals]
    exact Nat.le_add_right_of_le (h.past era (heras ▸ hera))
  · rw [heras, eraOf, removals]
    rcases eq_or_ne other topic with rfl | hne
    · -- The next era of the name has not begun.
      rw [current?_remove_self, if_pos rfl]
      refine iff_of_false (by simp) fun hj => ?_
      exact Nat.not_succ_le_self _ (h.past _ (List.mem_of_getElem? hj))
    · rw [(spares_remove hne).current, if_neg hne.symm]
      exact h.current other j

end Placed

end Queue

end Roundtable

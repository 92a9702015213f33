import Roundtable.Proofs.Queue.Alike

/-!
# What is numbered under a name

The ids of a queue are numbered from one and its subscriptions from nought, as they come,
whatever the name (`Roundtable.Queue.Exchange.Numbered`). What was done under one name is a part
of the log (`Roundtable.Queue.dealtOn`), and **the numbers that were given out there tell which
calls are about the name** (`Roundtable.Queue.Exchange.Numbered.topic?_eq_some_iff`): a
delivery and a subscription are known under one name at most, and stay so.
-/

namespace Roundtable

namespace Queue

variable {α : Type} {f g : Nat → Nat} {topic u : String}

/-! ### What was done under a name -/

/-- The id that is given out by a dealing. -/
def Dealing.id? : Dealing α → Option Nat
  | .act (.pushed e) => some e.id
  | _ => none

/-- The number of the subscription that is made by a dealing. -/
def Dealing.sub? : Dealing α → Option Nat
  | .subscribed _ n => some n
  | _ => none

/-- **What was done under a name**, the last dealing first. -/
def dealtOn (topic : String) : List (Dealing α) → List (Dealing α)
  | [] => []
  | d :: log => if d.topic? log = some topic then d :: dealtOn topic log else dealtOn topic log

/-- The numbers that dealings gave out, in order. -/
def given (number? : Dealing α → Option Nat) (log : List (Dealing α)) : List Nat :=
  (log.filterMap number?).reverse

/-- The ids that were given out under a name. -/
def issuedOn (topic : String) (log : List (Dealing α)) : List Nat :=
  given Dealing.id? (dealtOn topic log)

/-- The subscriptions that were made under a name. -/
def subscribedOn (topic : String) (log : List (Dealing α)) : List Nat :=
  given Dealing.sub? (dealtOn topic log)

section Log

variable {log log' : List (Dealing α)} {d : Dealing α} {i n : Nat}
  {number? : Dealing α → Option Nat}

theorem id?_rename (d : Dealing α) : (d.rename f g).id? = d.id?.map f := by
  match d with
  | .act (.pushed _) | .act (.taken ..) | .act (.acked _) | .act (.requeued _)
  | .act (.discarded _) | .subscribed .. | .removed _ => rfl

theorem sub?_rename (d : Dealing α) : (d.rename f g).sub? = d.sub?.map g := by
  match d with
  | .act (.pushed _) | .act (.taken ..) | .act (.acked _) | .act (.requeued _)
  | .act (.discarded _) | .subscribed .. | .removed _ => rfl

/-- What is given out by what was done under other numbers are the other numbers. -/
theorem given_rename {r : Dealing α → Dealing α} (h : ∀ d, number? (r d) = (number? d).map f)
    (log : List (Dealing α)) : given number? (log.map r) = (given number? log).map f := by
  have hpick : number? ∘ r = fun d => (number? d).map f := funext h
  rw [given, List.filterMap_map, hpick, given, List.map_reverse, List.map_filterMap]

theorem given_cons (d : Dealing α) (log : List (Dealing α)) :
    given number? (d :: log) = given number? log ++ (number? d).toList := by
  rw [given, List.filterMap_cons]
  cases number? d with
  | none => simp [given]
  | some i => simp [given]

theorem issued_eq (log : List (Dealing α)) : issued log = given Dealing.id? log := by
  induction log with
  | nil => rfl
  | cons d log ih =>
    rw [given_cons, ← ih]
    match d with
    | .act (.pushed e) => rfl
    | .act (.taken ..) | .act (.acked _) | .act (.requeued _) | .act (.discarded _)
    | .subscribed .. | .removed _ => exact (List.append_nil _).symm

theorem given_append (log log' : List (Dealing α)) :
    given number? (log ++ log') = given number? log' ++ given number? log := by
  simp [given]

theorem given_sublist (h : log.Sublist log') :
    (given number? log).Sublist (given number? log') :=
  (h.filterMap number?).reverse

theorem dealtOn_append (log log' : List (Dealing α)) :
    ∃ front, dealtOn topic (log ++ log') = front ++ dealtOn topic log' := by
  induction log with
  | nil => exact ⟨[], rfl⟩
  | cons d log ih =>
    obtain ⟨front, hfront⟩ := ih
    rw [List.cons_append, dealtOn, hfront]
    split
    · exact ⟨d :: front, rfl⟩
    · exact ⟨front, rfl⟩

/-- What was given out under a name stays where it is. -/
theorem prefix_given_dealtOn (h : log <:+ log') :
    given number? (dealtOn topic log) <+: given number? (dealtOn topic log') := by
  obtain ⟨later, rfl⟩ := h
  obtain ⟨front, hfront⟩ := dealtOn_append later log
  exact ⟨_, by rw [hfront, given_append]⟩

theorem dealtOn_sublist (topic : String) (log : List (Dealing α)) :
    (dealtOn topic log).Sublist log := by
  induction log with
  | nil => exact List.Sublist.slnil
  | cons d log ih =>
    rw [dealtOn]
    split
    · exact ih.cons_cons d
    · exact ih.cons d

/-- **A number was given out under the name** of the dealing that gave it. -/
theorem mem_given_dealtOn_iff {era? : Nat → List (Dealing α) → Option Era}
    (hnil : era? i [] = none)
    (hcons : ∀ d log, (era? i (d :: log)).map (·.topic) =
      if number? d = some i then d.topic? log else (era? i log).map (·.topic))
    (hn : (given number? log).Nodup) :
    i ∈ given number? (dealtOn topic log) ↔ (era? i log).map (·.topic) = some topic := by
  induction log with
  | nil => simp [dealtOn, given, hnil]
  | cons d log ih =>
    rw [given_cons] at hn
    have ih := ih hn.of_append_left
    rw [hcons, dealtOn]
    by_cases hd : number? d = some i
    · -- It was given out once, so not before.
      have hnew : i ∉ given number? (dealtOn topic log) := fun hmem => by
        have hold := (given_sublist (dealtOn_sublist topic log)).subset hmem
        rw [hd] at hn
        exact (List.nodup_append.mp hn).2.2 i hold i (List.mem_singleton_self i) rfl
      rw [if_pos hd]
      split
      · next htopic => simp [given_cons, hd, htopic]
      · next htopic => exact iff_of_false hnew htopic
    · have hother : i ∉ (number? d).toList := by simpa [eq_comm] using hd
      rw [if_neg hd, ← ih]
      split
      · rw [given_cons, List.mem_append, or_iff_left hother]
      · rfl

theorem mem_issuedOn_iff (hn : (issued log).Nodup) :
    i ∈ issuedOn topic log ↔ (birthOf? i log).map (·.topic) = some topic := by
  rw [issued_eq] at hn
  refine mem_given_dealtOn_iff rfl (fun d log => ?_) hn
  match d with
  | .act (.pushed e) =>
    simp only [birthOf?, Dealing.id?, Option.some.injEq]
    split <;> rfl
  | .act (.taken ..) | .act (.acked _) | .act (.requeued _) | .act (.discarded _)
  | .subscribed .. | .removed _ => rfl

theorem mem_subscribedOn_iff (hn : (given Dealing.sub? log).Nodup) :
    n ∈ subscribedOn topic log ↔ (homeOf? n log).map (·.topic) = some topic := by
  refine mem_given_dealtOn_iff rfl (fun d log => ?_) hn
  match d with
  | .subscribed u m =>
    simp only [homeOf?, Dealing.sub?, Option.some.injEq]
    split <;> rfl
  | .act _ | .removed _ => rfl

end Log

namespace Exchange

/-! ### Numbers that are given out once -/

/-- **A queue and its log, with all numbers accounted for**: subscriptions are numbered from
nought, as ids are from one. -/
structure Numbered (p : Exchange α × List (Dealing α)) : Prop where
  told : p.1.Told p.2
  subs : given Dealing.sub? p.2 = List.range p.1.subscriptions.length

variable {p : Exchange α × List (Dealing α)} {c : Call α}

/-- What a call does to the log. -/
theorem serve_log (p : Exchange α × List (Dealing α)) (c : Call α) :
    (serve p c).2 = (Dealing.of? c (p.1.call c).1).toList ++ p.2 := rfl

/-- A message that is published gets the next id. -/
theorem exists_published (x : Exchange α) (h : c.publishes = true) :
    ∃ d, Dealing.of? c (x.call c).1 = some d ∧ d.id? = some x.queue.nextId := by
  cases c with
  | publish topic v | publishSentinel topic => exact ⟨_, rfl, congrArg some nextId_enter⟩
  | _ => exact absurd h nofun

/-- A subscription that is made gets the next number. -/
theorem exists_subscribed (x : Exchange α) (h : c.subscribes = true) :
    ∃ d, Dealing.of? c (x.call c).1 = some d ∧ d.sub? = some x.subscriptions.length := by
  cases c with
  | subscribe topic => exact ⟨_, rfl, rfl⟩
  | _ => exact absurd h nofun

/-- No other call makes one. -/
theorem sub?_eq_none {r : Reply α} {d : Dealing α} (h : Dealing.of? c r = some d)
    (hc : c.subscribes = false) : d.sub? = none := by
  cases d with
  | act | removed => rfl
  | subscribed topic n =>
    unfold Dealing.of? at h
    split at h
    · exact absurd h nofun
    · exact absurd h nofun
    · exact absurd hc nofun
    all_goals exact absurd h nofun

/-- **How far the numbers are given out** after a call. -/
theorem next_serve (p : Exchange α × List (Dealing α)) (c : Call α) :
    (serve p c).1.queue.nextId = p.1.queue.nextId + c.publishes.toNat ∧
    (serve p c).1.subscriptions.length = p.1.subscriptions.length + c.subscribes.toNat := by
  cases c with
  | publish topic v => exact ⟨nextId_enqueue p.1.queue topic (.item v), rfl⟩
  | publishSentinel topic => exact ⟨nextId_enqueue p.1.queue topic .sentinel, rfl⟩
  | subscribe topic => exact ⟨nextId_enter, List.length_append⟩
  | next n =>
    cases hs : p.1.subscriptions[n]? with
    | none => simp [serve, call, hs, Call.publishes, Call.subscribes]
    | some s =>
      obtain ⟨hq, -⟩ | ⟨hq, -⟩ | ⟨e, t, hq, -, -⟩ := next_cases p.1.queue s
      all_goals simp [serve, call, hs, hq, Call.publishes, Call.subscribes, setTopic]
  | ack d =>
    cases hq : p.1.queue.ack d with
    | error e => simp [serve, call, hq, Call.publishes, Call.subscribes]
    | ok q =>
      obtain ⟨i, e, -, -, rfl⟩ := ack_eq_ok_iff.mp hq
      simp [serve, call, hq, Call.publishes, Call.subscribes, setTopic, forget]
  | nack d requeue =>
    cases hq : p.1.queue.nack d requeue with
    | error e => simp [serve, call, hq, Call.publishes, Call.subscribes]
    | ok q =>
      obtain ⟨i, e, -, -, rfl⟩ := nack_eq_ok_iff.mp hq
      cases requeue <;>
        simp [serve, call, hq, Call.publishes, Call.subscribes, setTopic, forget]
  | stats topic => exact ⟨rfl, rfl⟩
  | remove topic =>
    cases hc : p.1.queue.current? topic <;>
      simp [serve, call, Queue.remove, hc, Call.publishes, Call.subscribes]

namespace Numbered

theorem empty : Numbered ((Exchange.empty, []) : Exchange α × List (Dealing α)) :=
  ⟨.empty, rfl⟩

theorem serve (h : Numbered p) (c : Call α) : Numbered (serve p c) := by
  have hlength := (next_serve p c).2
  refine ⟨?_, ?_⟩
  · rw [serve_log]
    obtain ⟨hnone, hsame⟩ | ⟨d, hsome, hd⟩ := p.1.call_cases c
    · have hx : (Exchange.serve p c).1 = p.1 := hsame
      rw [hnone, hx]
      exact h.told
    · rw [hsome]
      exact h.told.deal hd
  · rw [serve_log, given_append, h.subs, hlength]
    cases hsub : c.subscribes with
    | true =>
      obtain ⟨d, hd, hn⟩ := exists_subscribed p.1 hsub
      simp [hd, given, hn, List.range_succ]
    | false =>
      cases hd : Dealing.of? c (p.1.call c).1 with
      | none => simp [given]
      | some d => simp [given, sub?_eq_none hd hsub]

theorem run (calls : List (Call α)) : Numbered (run calls) := by
  induction calls using List.reverseRecOn with
  | nil => exact empty
  | append_singleton calls c ih =>
    rw [run_concat]
    exact ih.serve c

theorem nodup_issued (h : Numbered p) : (issued p.2).Nodup := by
  rw [h.told.issued]
  exact List.nodup_range'

theorem nodup_subs (h : Numbered p) : (given Dealing.sub? p.2).Nodup := by
  rw [h.subs]
  exact List.nodup_range

theorem nextId_eq (h : Numbered p) : p.1.queue.nextId = (issued p.2).length + 1 := h.told.nextId

theorem length_eq (h : Numbered p) :
    p.1.subscriptions.length = (given Dealing.sub? p.2).length := by
  rw [h.subs, List.length_range]

/-- **The name a call is about** is the one its number was given out under. -/
theorem topic?_eq_some_iff (h : Numbered p) : c.topic? p.2 = some u ↔ match c with
    | .next n => n ∈ subscribedOn u p.2
    | .ack d | .nack d _ => d ∈ issuedOn u p.2
    | .publish v _ | .publishSentinel v | .subscribe v | .stats v | .remove v => v = u := by
  cases c with
  | next n => exact (mem_subscribedOn_iff h.nodup_subs).symm
  | ack d | nack d requeue => exact (mem_issuedOn_iff h.nodup_issued).symm
  | publish | publishSentinel | subscribe | stats | remove => exact Option.some_inj

/-- What was done by a call was done under some name. -/
theorem exists_topic? (h : Numbered p) {x : Exchange α} {d : Dealing α} (hd : Deals p.1 d x) :
    ∃ u, d.topic? p.2 = some u := by
  cases hd with
  | publish topic | subscribe topic => exact ⟨topic, rfl⟩
  | receive hs =>
    obtain ⟨era, -, hhome⟩ := h.told.home _ _ hs
    exact ⟨era.topic, by rw [Dealing.topic?, eraFor, hhome, Option.map_some]⟩
  | ack hq =>
    obtain ⟨i, e, ho, -, -⟩ := ack_eq_ok_iff.mp hq
    obtain ⟨era, -, hbirth⟩ := h.told.exists_of_owner? ho
    exact ⟨era.topic, by rw [Dealing.topic?, eraFor, hbirth, Option.map_some]⟩
  | requeue hq | discard hq =>
    obtain ⟨i, e, ho, -, -⟩ := nack_eq_ok_iff.mp hq
    obtain ⟨era, -, hbirth⟩ := h.told.exists_of_owner? ho
    exact ⟨era.topic, by rw [Dealing.topic?, eraFor, hbirth, Option.map_some]⟩
  | @remove topic => exact ⟨topic, rfl⟩

/-- **A call on a name** is noted under it. -/
theorem dealtOn_own (h : Numbered p) (hc : ∀ u ∈ c.topic? p.2, u = topic) :
    dealtOn topic (Exchange.serve p c).2 =
      (Dealing.of? c (p.1.call c).1).toList ++ dealtOn topic p.2 := by
  rw [serve_log]
  obtain ⟨hnone, -⟩ | ⟨d, hsome, hd⟩ := p.1.call_cases c
  · rw [hnone]
    rfl
  · obtain ⟨u, hu⟩ := h.exists_topic? hd
    obtain rfl : u = topic := hc u ((Dealing.topic?_of hsome).symm.trans hu)
    rw [hsome, Option.toList_some, List.singleton_append, dealtOn, if_pos hu]
    rfl

/-- **A call on another name** is not. -/
theorem dealtOn_other (hc : c.topic? p.2 = some u) (hne : u ≠ topic) :
    dealtOn topic (Exchange.serve p c).2 = dealtOn topic p.2 := by
  rw [serve_log]
  cases hd : Dealing.of? c (p.1.call c).1 with
  | none => rfl
  | some d =>
    have hu : d.topic? p.2 ≠ some topic := fun htopic => by
      rw [Dealing.topic?_of hd, hc] at htopic
      exact hne (Option.some.inj htopic)
    rw [Option.toList_some, List.singleton_append, dealtOn, if_neg hu]

/-- What stands in the eras of a name was given out under it. -/
theorem mem_issuedOn_of_mem_ids (h : Numbered p) {k i : Nat}
    (hi : i ∈ ((stall topic p).content k).ids) : i ∈ issuedOn topic p.2 := by
  by_cases hmem : (⟨topic, k⟩ : Era) ∈ eras p.2
  · obtain ⟨j, hj⟩ := List.mem_iff_getElem?.mp hmem
    have hbirth := h.told.birthOf?_eq hj ((congrArg (i ∈ Topic.ids ·) (h.told.inEra_eq hj)).mp hi)
    exact (mem_issuedOn_iff h.nodup_issued).mpr (by rw [hbirth]; rfl)
  · have hempty : (stall topic p).content k = .empty := h.told.inEra_of_not_mem hmem
    simp [hempty, Topic.ids, Topic.empty] at hi

/-- A subscription that has a place under a name was made under it. -/
theorem mem_subscribedOn_of_seats (h : Numbered p) {n : Nat}
    (hn : (stall topic p).seats n ≠ none) : n ∈ subscribedOn topic p.2 := by
  refine (mem_subscribedOn_iff h.nodup_subs).mpr ?_
  by_contra hne
  refine hn ?_
  cases hh : homeOf? n p.2 with
  | none => cases hs : p.1.subscriptions[n]? <;> simp [stall, seat?, hh, hs]
  | some era =>
    exact Told.seat?_eq_none hh fun heq => hne (by rw [hh, Option.map_some, heq])

theorem lt_nextId (h : Numbered p) {d : Nat} (hd : d ∈ issuedOn topic p.2) :
    d < p.1.queue.nextId := by
  have hmem := (given_sublist (dealtOn_sublist topic p.2)).subset hd
  rw [← issued_eq, h.told.issued, List.mem_range'_1] at hmem
  have := h.nextId_eq
  omega

theorem lt_length (h : Numbered p) {n : Nat} (hn : n ∈ subscribedOn topic p.2) :
    n < p.1.subscriptions.length := by
  have hmem := (given_sublist (dealtOn_sublist topic p.2)).subset hn
  rwa [h.subs, List.mem_range] at hmem

/-- A call on a name keeps to numbers that were given out. -/
theorem rename_eq_self (h : Numbered p) (hc : c.topic? p.2 = some u)
    (hf : ∀ d < p.1.queue.nextId, f d = d) (hg : ∀ n < p.1.subscriptions.length, g n = n) :
    c.rename f g = c := by
  have hmem := h.topic?_eq_some_iff.mp hc
  cases c with
  | next n => rw [Call.rename, hg n (h.lt_length hmem)]
  | ack d => rw [Call.rename, hf d (h.lt_nextId hmem)]
  | nack d requeue => rw [Call.rename, hf d (h.lt_nextId hmem)]
  | publish | publishSentinel | subscribe | stats | remove => rfl

/-- A call on a name is on the same name after any other call. -/
theorem topic?_serve (h : Numbered p) (hc : c.topic? p.2 = some u) (c' : Call α) :
    c.topic? (Exchange.serve p c').2 = some u := by
  have hpast : p.2 <:+ (Exchange.serve p c').2 := List.suffix_append _ _
  have hmem := h.topic?_eq_some_iff.mp hc
  refine (h.serve c').topic?_eq_some_iff.mpr ?_
  cases c with
  | next n => exact (prefix_given_dealtOn hpast).subset hmem
  | ack d | nack d requeue => exact (prefix_given_dealtOn hpast).subset hmem
  | publish | publishSentinel | subscribe | stats | remove => exact hmem

end Numbered

end Exchange

end Queue

end Roundtable

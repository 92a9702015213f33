import Roundtable.Proofs.Course.Journey
import Roundtable.Proofs.Pool.Turn

/-!
# The ledger of a drain

What a round puts on its topic is a list of orders, and while the pool drains the topic
every order can be accounted for: **it waits, or it is in flight in the hands of one
worker, or it is acknowledged**, and never two of these. `Roundtable.Pool.Ledger` is that
account, with what is known of results beside it: a result is in the collection exactly
when its order is acknowledged or about to be, and it came from the one delegation of that
order.

Sentinels stand behind all tasks, and those that still wait are as many as the workers
that have not had theirs (`Roundtable.Pool.Ledger.sentinels`). So a worker that seeks
always finds something, which is why no drain gets stuck.

No turn upsets the ledger (`Roundtable.Pool.Ledger.turn`). In particular no
acknowledgement is refused.
-/

namespace Roundtable

/-! ### Counting the messages of a delivery -/

namespace Topic

variable {α : Type} {t t' : Topic α} {e : Envelope α}

/-- How many messages of a delivery wait. -/
def waiting (t : Topic α) (d : Nat) : Nat := t.ready.countP (·.id == d)

/-- How many messages of a delivery are in flight. -/
def flying (t : Topic α) (d : Nat) : Nat := t.inFlight.countP (·.id == d)

theorem waiting_take (h : t.take = some (e, t')) (d : Nat) :
    t'.waiting d + (if e.id = d then 1 else 0) = t.waiting d := by
  obtain ⟨r, hr, rfl⟩ := take_eq_some_iff.mp h
  simp [waiting, hr, List.countP_cons]

theorem flying_take (h : t.take = some (e, t')) (d : Nat) :
    t'.flying d = t.flying d + (if e.id = d then 1 else 0) := by
  obtain ⟨r, -, rfl⟩ := take_eq_some_iff.mp h
  simp [flying, List.countP_append, List.countP_singleton]

theorem flying_ack (hn : t.ids.Nodup) (he : e ∈ t.inFlight) (d : Nat) :
    (t.ack e.id).flying d + (if e.id = d then 1 else 0) = t.flying d := by
  have := (inFlight_perm_release hn he).countP_eq (·.id == d)
  simp only [List.countP_cons, beq_iff_eq] at this
  exact this.symm

/-- Something is in flight where messages of the delivery are counted. -/
theorem exists_inFlight_of_flying {d : Nat} (h : 0 < t.flying d) :
    ∃ e, e ∈ t.inFlight ∧ e.id = d := by
  obtain ⟨e, he, hd⟩ := List.countP_pos_iff.mp h
  exact ⟨e, he, by simpa using hd⟩

end Topic

/-! ### Counting what was collected -/

namespace Deed

variable {deeds : List Deed} {d : Nat} {r : TaskResult}

theorem mem_collected : (d, r) ∈ deeds.filterMap collected? ↔ .collected d r ∈ deeds := by
  simp only [List.mem_filterMap]
  constructor
  · rintro ⟨x, hx, hxr⟩
    cases x <;> simp [collected?] at hxr
    obtain ⟨rfl, rfl⟩ := hxr
    exact hx
  · exact fun hx => ⟨_, hx, rfl⟩

theorem count_collected :
    ((deeds.filterMap collected?).map (·.1)).count d = deeds.countP (isCollected d) := by
  rw [List.count, List.countP_map, List.countP_filterMap]
  refine congrArg (deeds.countP ·) (funext fun x => ?_)
  cases x <;> rfl

theorem filterMap_result :
    deeds.filterMap result? = (deeds.filterMap collected?).map (·.2) := by
  rw [List.map_filterMap]
  rfl

end Deed

/-! ### Where a task stands -/

/-- Where the message of a delivery is, and what has come of it. -/
structure Standing where
  /-- How many messages of the delivery wait. -/
  waiting : Nat
  /-- How many are in flight. -/
  inFlight : Nat
  /-- How many results of it are in the collection. -/
  results : Nat
  /-- How often it was acknowledged. -/
  acks : Nat
deriving DecidableEq, Repr

namespace Standing

/-- The standing of a delivery on a topic. -/
def of (t : Topic Task) (deeds : List Deed) (d : Nat) : Standing where
  waiting := t.waiting d
  inFlight := t.flying d
  results := deeds.countP (Deed.isCollected d)
  acks := deeds.countP (Deed.isAcked d)

/-- The task waits. -/
def pending : Standing := ⟨1, 0, 0, 0⟩

/-- The task is in flight, and its result is not in the collection. -/
def underWay : Standing := ⟨0, 1, 0, 0⟩

/-- The task is in flight, and its result is in the collection. -/
def collected : Standing := ⟨0, 1, 1, 0⟩

/-- The task is acknowledged, and its result is in the collection. -/
def settled : Standing := ⟨0, 0, 1, 1⟩

end Standing

/-! ### What a worker may say of its order -/

/-- A result of a delivery that its delegation has brought. -/
def Brought (orders : List (Envelope Task)) (deeds : List Deed) (d : Nat) (r : TaskResult) :
    Prop :=
  ∃ e ∈ orders, ∃ a res, e.id = d ∧ e.payload = .item a ∧ .delegated d res ∈ deeds ∧
    r = .ofSubAgent a.id res

theorem Brought.mono {orders : List (Envelope Task)} {deeds deeds' : List Deed} {d : Nat}
    {r : TaskResult} (hd : deeds ⊆ deeds') (h : Brought orders deeds d r) :
    Brought orders deeds' d r := by
  obtain ⟨e, he, a, res, hid, hp, hres, hr⟩ := h
  exact ⟨e, he, a, res, hid, hp, hd hres, hr⟩

/-- What stands behind the stage of a worker that has had its sentinel or has not. -/
def PoolStage.Fits (orders : List (Envelope Task)) (deeds : List Deed) (served : Bool) :
    PoolStage → Prop
  | seeking => True
  | delegating d a => served = false ∧ ∃ e ∈ orders, e.id = d ∧ e.payload = .item a
  | announcing d r | collecting d r => served = false ∧ Brought orders deeds d r
  | acknowledging d => ∃ e ∈ orders, e.id = d ∧ e.payload.isSentinel = served
  | left => served = true
  | lost => False

theorem PoolStage.Fits.mono {orders : List (Envelope Task)} {deeds deeds' : List Deed}
    {served : Bool} {s : PoolStage} (hd : deeds ⊆ deeds') (h : s.Fits orders deeds served) :
    s.Fits orders deeds' served := by
  cases s with
  | announcing | collecting => exact ⟨h.1, h.2.mono hd⟩
  | seeking | delegating | acknowledging | left | lost => exact h

/-- A worker of the incarnation whose stage and count of sentinels fit together. -/
structure PoolWorker.Fits (i : Nat) (orders : List (Envelope Task)) (deeds : List Deed)
    (w : PoolWorker) : Prop where
  incarnation : w.subscription.incarnation = i
  sentinels : w.sentinels = if w.isServed then 1 else 0
  stage : w.stage.Fits orders deeds w.isServed

theorem PoolWorker.Fits.mono {i : Nat} {orders : List (Envelope Task)} {deeds deeds' : List Deed}
    {w : PoolWorker} (hd : deeds ⊆ deeds') (h : w.Fits i orders deeds) : w.Fits i orders deeds' :=
  ⟨h.incarnation, h.sentinels, h.stage.mono hd⟩

/-! ### The ledger -/

namespace Pool

/-- **The ledger of a drain**: orders on the topic `t` of the incarnation `i`, a pool that
has `left` workers still to be hired, and what its workers have done. -/
structure Ledger (orders : List (Envelope Task)) (i left : Nat) (t : Topic Task) (p : Pool)
    (deeds : List Deed) : Prop where
  /-- What waits is the end of the orders. -/
  ready : t.ready <:+ orders
  inFlight : ∀ e ∈ t.inFlight, e ∈ orders
  workers : ∀ w ∈ p.workers, w.Fits i orders deeds
  /-- An order waits, is in flight or is acknowledged. -/
  place : ∀ e ∈ orders,
    t.waiting e.id + t.flying e.id + deeds.countP (Deed.isAcked e.id) = 1
  /-- What is in flight is in the hands of a worker. -/
  hands : ∀ d, t.flying d = p.workers.countP (PoolWorker.holds d)
  /-- A task's result is collected when it is acknowledged or about to be. -/
  results : ∀ e ∈ orders, e.payload.isSentinel = false →
    deeds.countP (Deed.isCollected e.id) =
      deeds.countP (Deed.isAcked e.id) + p.workers.countP (PoolWorker.settles e.id)
  /-- What was delegated is collected or on its way into the collection. -/
  delegations : ∀ d, deeds.countP (Deed.isDelegated d) =
    deeds.countP (Deed.isCollected d) + p.workers.countP (PoolWorker.carries d)
  /-- The collection holds what was collected, in that order. -/
  collection : p.results = deeds.filterMap Deed.result?
  brought : ∀ d r, .collected d r ∈ deeds → Brought orders deeds d r
  /-- As many sentinels wait as workers are without one. -/
  sentinels : t.ready.countP (·.payload.isSentinel) + p.workers.countP PoolWorker.isServed =
    p.workers.length + left

namespace Ledger

variable {orders : List (Envelope Task)} {i left k : Nat} {t t' : Topic Task} {p p' : Pool}
  {deeds : List Deed} {w : PoolWorker} {e : Envelope Task} {q q' : Queue Task}

/-- An id that is told apart stands on one order. -/
theorem countP_id (hn : (orders.map (·.id)).Nodup) (he : e ∈ orders) :
    orders.countP (·.id == e.id) = 1 := by
  have := List.count_eq_one_of_mem hn (List.mem_map_of_mem (f := (·.id)) he)
  rwa [List.count, List.countP_map] at this

/-- **A round that has published its orders** and has hired nobody. -/
theorem published (hn : (orders.map (·.id)).Nodup) (hr : t.ready = orders) (hf : t.inFlight = [])
    (hw : p.workers = []) (hp : p.results = [])
    (hs : orders.countP (·.payload.isSentinel) = left) : Ledger orders i left t p [] := by
  refine ⟨by simp [hr], by simp [hf], by simp [hw], fun e he => ?_, by simp [Topic.flying, hf, hw],
    by simp [hw], by simp [hw], by simp [hp], by simp, by simp [hr, hw, hs]⟩
  have hone := countP_id hn he
  simp only [Topic.waiting, Topic.flying, hr, hf, List.countP_nil]
  omega

/-- **A worker is hired.** -/
theorem hire (h : Ledger orders i (left + 1) t p deeds) :
    Ledger orders i left t (p.hire ⟨i, false⟩) deeds := by
  have hcount : ∀ P : PoolWorker → Bool, P ⟨⟨i, false⟩, 0, .seeking⟩ = false →
      (p.hire ⟨i, false⟩).workers.countP P = p.workers.countP P := by
    intro P hP
    simp [Pool.hire, List.countP_append, hP]
  refine ⟨h.ready, h.inFlight, fun w hw => ?_, h.place, fun d => ?_, fun e he hs => ?_,
    fun d => ?_, h.collection, h.brought, ?_⟩
  · rcases List.mem_append.mp hw with hw | hw
    · exact h.workers w hw
    · obtain rfl := List.mem_singleton.mp hw
      exact ⟨rfl, rfl, trivial⟩
  · rw [hcount _ rfl]
    exact h.hands d
  · rw [hcount _ rfl]
    exact h.results e he hs
  · rw [hcount _ rfl]
    exact h.delegations d
  · rw [hcount _ rfl]
    have := h.sentinels
    simp only [Pool.hire, List.length_append, List.length_singleton]
    omega

/-- What waits was ordered. -/
theorem mem_of_ready (h : Ledger orders i left t p deeds) (he : e ∈ t.ready) : e ∈ orders :=
  h.ready.subset he

/-- A message that is taken was ordered. -/
theorem mem_of_take (h : Ledger orders i left t p deeds) (ht : t.take = some (e, t')) :
    e ∈ orders := by
  obtain ⟨r, hr, -⟩ := Topic.take_eq_some_iff.mp ht
  exact h.mem_of_ready (hr ▸ List.mem_cons_self)

/-- Two orders of one id are one order. -/
theorem order_unique (hn : (orders.map (·.id)).Nodup) {e e' : Envelope Task} (he : e ∈ orders)
    (he' : e' ∈ orders) (hid : e.id = e'.id) : e = e' :=
  List.inj_on_of_nodup_map hn he he' hid

/-! ### Turns in the ledger -/

/-- **What one worker may change.** Its stage moves on, at most one message moves with it,
and `done` is what it does; the account still fits if each count changes as the worker
does. -/
theorem change {w' : PoolWorker} {done : List Deed} (h : Ledger orders i left t p deeds)
    (hw : p.workers[k]? = some w) (hset : p'.workers = p.workers.set k w')
    (hcollection : p'.results = p.results ++ done.filterMap Deed.result?)
    (hready : t'.ready <:+ t.ready) (hflight : ∀ e ∈ t'.inFlight, e ∈ orders)
    (hfits : w'.Fits i orders (deeds ++ done))
    (hplace : ∀ d, t'.waiting d + t'.flying d + done.countP (Deed.isAcked d) =
      t.waiting d + t.flying d)
    (hhands : ∀ d, t'.flying d + (if w.holds d then 1 else 0) =
      t.flying d + (if w'.holds d then 1 else 0))
    (hresults : ∀ e ∈ orders, e.payload.isSentinel = false →
      done.countP (Deed.isCollected e.id) + (if w.settles e.id then 1 else 0) =
        done.countP (Deed.isAcked e.id) + (if w'.settles e.id then 1 else 0))
    (hdelegations : ∀ d, done.countP (Deed.isDelegated d) + (if w.carries d then 1 else 0) =
      done.countP (Deed.isCollected d) + (if w'.carries d then 1 else 0))
    (hbrought : ∀ d r, .collected d r ∈ done → Brought orders (deeds ++ done) d r)
    (hsentinels : t'.ready.countP (·.payload.isSentinel) + (if w'.isServed then 1 else 0) =
      t.ready.countP (·.payload.isSentinel) + (if w.isServed then 1 else 0)) :
    Ledger orders i left t' p' (deeds ++ done) := by
  have hsub : deeds ⊆ deeds ++ done := List.subset_append_left _ _
  -- Each account counts the worker once: what it did before is off, what it does now is on.
  refine ⟨hready.trans h.ready, hflight, ?_, fun e he => ?_, fun d => ?_, fun e he hs => ?_,
    fun d => ?_, ?_, fun d r hd => ?_, ?_⟩
  · rw [hset]
    exact forall_mem_set hfits fun x hx => (h.workers x hx).mono hsub
  · have := h.place e he
    have := hplace e.id
    rw [List.countP_append]
    omega
  · have := h.hands d
    have := hhands d
    have := countP_set_add (P := PoolWorker.holds d) (b := w') hw
    rw [hset]
    omega
  · have := h.results e he hs
    have := hresults e he hs
    have := countP_set_add (P := PoolWorker.settles e.id) (b := w') hw
    rw [hset, List.countP_append, List.countP_append]
    omega
  · have := h.delegations d
    have := hdelegations d
    have := countP_set_add (P := PoolWorker.carries d) (b := w') hw
    rw [hset, List.countP_append, List.countP_append]
    omega
  · rw [hcollection, h.collection, List.filterMap_append]
  · rcases List.mem_append.mp hd with hd | hd
    · exact (h.brought d r hd).mono hsub
    · exact hbrought d r hd
  · have := h.sentinels
    have := countP_set_add (P := PoolWorker.isServed) (b := w') hw
    rw [hset, List.length_set]
    omega

/-- **A message is taken**, by a worker that holds it from now on. -/
theorem take {stage : PoolStage} {finished : Bool} {n : Nat}
    (h : Ledger orders i left t p deeds) (hw : p.workers[k]? = some w) (hs : w.stage = .seeking)
    (hf : w.subscription.finished = false) (ht : t.take = some (e, t'))
    (hheld : stage.held? = some e.id) (hcarried : stage.carried? = none)
    (hsettled : ∀ x ∈ orders, x.payload.isSentinel = false → stage.settled? ≠ some x.id)
    (hfin : e.payload.isSentinel = finished)
    (hfits : PoolWorker.Fits i orders deeds ⟨⟨i, finished⟩, n, stage⟩) :
    Ledger orders i left t' (p.setWorker k ⟨⟨i, finished⟩, n, stage⟩) deeds := by
  have hmem := h.mem_of_take ht
  obtain ⟨r, hr, ht'⟩ := Topic.take_eq_some_iff.mp ht
  -- Nothing is done with the message yet, so there are no new deeds.
  rw [← List.append_nil deeds] at hfits ⊢
  refine h.change hw rfl (by simp [Pool.setWorker]) ?_ ?_ hfits ?_ ?_ ?_ ?_ (by simp) ?_
  · rw [ht', hr]
    exact List.suffix_cons e r
  · intro x hx
    rw [ht'] at hx
    rcases List.mem_append.mp hx with hx | hx
    · exact h.inFlight x hx
    · exact List.mem_singleton.mp hx ▸ hmem
  · intro d
    have := Topic.waiting_take ht d
    have := Topic.flying_take ht d
    simp only [List.countP_nil]
    omega
  · intro d
    have hnone : w.stage.held? = none := by rw [hs]; rfl
    simp [PoolWorker.holds, hnone, hheld, Topic.flying_take ht d]
  · intro x hx hxs
    have hnone : w.stage.settled? = none := by rw [hs]; rfl
    simp [PoolWorker.settles, hnone, hsettled x hx hxs]
  · intro d
    have hnone : w.stage.carried? = none := by rw [hs]; rfl
    simp [PoolWorker.carries, hnone, hcarried]
  · have hserved : w.isServed = false := hf
    rw [ht', hr, List.countP_cons, hserved, hfin]
    rfl

/-- **A worker goes on without touching the topic.** -/
theorem goOn {stage : PoolStage} {done : List Deed} {results : List TaskResult}
    (h : Ledger orders i left t p deeds) (hw : p.workers[k]? = some w)
    (hcollection : results = p.results ++ done.filterMap Deed.result?)
    (hfits : stage.Fits orders (deeds ++ done) w.isServed)
    (hheld : stage.held? = w.stage.held?)
    (hacked : ∀ d, done.countP (Deed.isAcked d) = 0)
    (hresults : ∀ e ∈ orders, e.payload.isSentinel = false →
      done.countP (Deed.isCollected e.id) + (if w.stage.settled? = some e.id then 1 else 0) =
        if stage.settled? = some e.id then 1 else 0)
    (hdelegations : ∀ d, done.countP (Deed.isDelegated d) +
      (if w.stage.carried? = some d then 1 else 0) =
        done.countP (Deed.isCollected d) + if stage.carried? = some d then 1 else 0)
    (hbrought : ∀ d r, .collected d r ∈ done → Brought orders (deeds ++ done) d r) :
    Ledger orders i left t { p.goOn k w stage with results } (deeds ++ done) := by
  have hfit := h.workers w (List.mem_of_getElem? hw)
  refine h.change hw rfl hcollection List.suffix_rfl h.inFlight
    ⟨hfit.incarnation, hfit.sentinels, hfits⟩ (fun d => by simp [hacked]) (fun d => ?_)
    (fun e he hs => ?_) (fun d => ?_) hbrought rfl
  · simp [PoolWorker.holds, hheld]
  · simpa [PoolWorker.settles, hacked] using hresults e he hs
  · simpa [PoolWorker.carries] using hdelegations d

/-- What a worker holds is in flight. -/
theorem exists_inFlight (h : Ledger orders i left t p deeds) (hw : p.workers[k]? = some w)
    {d : Nat} (hd : w.stage.held? = some d) : ∃ e, e ∈ t.inFlight ∧ e.id = d := by
  refine Topic.exists_inFlight_of_flying ?_
  rw [h.hands d]
  refine List.countP_pos_iff.mpr ⟨w, List.mem_of_getElem? hw, ?_⟩
  simp [PoolWorker.holds, hd]

/-- **No acknowledgement is refused**: it strikes the order from the topic. -/
theorem ack_eq {topic : String} (hq : q.Sound) (hi : q.current? topic = some i)
    (h : Ledger orders i left (q.topicAt i) p deeds) (hw : p.workers[k]? = some w) {d : Nat}
    (hd : w.stage.held? = some d) :
    q.ack d = .ok ((q.setTopic i ((q.topicAt i).ack d)).forget d) := by
  obtain ⟨e, he, rfl⟩ := h.exists_inFlight hw hd
  have hmem : e.id ∈ (q.topicAt i).inFlight.map (·.id) := List.mem_map_of_mem he
  obtain ⟨x, hx⟩ := Option.ne_none_iff_exists'.mp (mt Topic.held?_eq_none_iff.mp (not_not.mpr hmem))
  refine Queue.ack_eq_ok_iff.mpr ⟨i, x, hq.owner?_of_mem hi ?_, hx, rfl⟩
  rw [Topic.ids, List.map_append]
  exact List.mem_append_right _ hmem

/-- A worker acknowledges its order. -/
theorem ack (h : Ledger orders i left t p deeds) (hn : t.ids.Nodup)
    (hw : p.workers[k]? = some w) {d : Nat} (hs : w.stage = .acknowledging d) :
    Ledger orders i left (t.ack d) (p.goOn k w .seeking) (deeds ++ [.acked d]) := by
  have hfit := h.workers w (List.mem_of_getElem? hw)
  obtain ⟨e, he, rfl⟩ := h.exists_inFlight hw (d := d) (by rw [hs]; rfl)
  refine h.change hw rfl (List.append_nil _).symm List.suffix_rfl
    (fun x hx => h.inFlight x (List.mem_of_mem_filter hx))
    ⟨hfit.incarnation, hfit.sentinels, trivial⟩ (fun d => ?_) (fun d => ?_) (fun x hx hxs => ?_)
    (fun d => ?_) (by simp) rfl
  · have hflying := Topic.flying_ack hn he d
    have hwaiting : (t.ack e.id).waiting d = t.waiting d := rfl
    simp only [hwaiting, List.countP_singleton, Deed.isAcked, beq_iff_eq]
    omega
  · simpa [PoolWorker.holds, hs, PoolStage.held?] using Topic.flying_ack hn he d
  · simp [PoolWorker.settles, hs, PoolStage.settled?, Deed.isCollected, Deed.isAcked,
      List.countP_singleton]
  · simp [PoolWorker.carries, hs, PoolStage.carried?, Deed.isCollected, Deed.isDelegated]

/-- **No turn upsets the ledger.** -/
theorem turn {topic : String} {now : Instant} {ns : List Notice} {deed : Option Deed}
    (hn : (orders.map (·.id)).Nodup) (hq : q.Sound) (hi : q.current? topic = some i)
    (h : Ledger orders i left (q.topicAt i) p deeds) (ht : p.Turn k q now p' q' ns deed) :
    Ledger orders i left (q'.topicAt i) p' (deeds ++ deed.toList) := by
  -- Only taking and acknowledging touch the topic; a worker that leaves, announces or collects
  -- goes on by itself.
  cases ht with
  | @task w e t a hw hs hf ht he =>
    have hfit := h.workers w (List.mem_of_getElem? hw)
    obtain rfl := hfit.incarnation
    have hsub : w.subscription = ⟨w.subscription.incarnation, false⟩ := by rw [← hf]
    rw [Queue.topicAt_setTopic_self (Queue.lt_length_of_take ht)]
    have hmem := h.mem_of_take ht
    have hfits : PoolWorker.Fits w.subscription.incarnation orders deeds
        ⟨⟨w.subscription.incarnation, false⟩, w.sentinels, .delegating e.id a⟩ := by
      refine ⟨rfl, ?_, rfl, e, hmem, rfl, he⟩
      simpa [PoolWorker.isServed, hf] using hfit.sentinels
    have htake := h.take hw hs hf ht (by rfl) (by rfl) (fun _ _ _ => by simp [PoolStage.settled?])
      (by rw [he]; rfl) hfits
    rw [← hsub] at htake
    simpa using htake
  | @sentinel w e t hw hs hf ht he =>
    have hfit := h.workers w (List.mem_of_getElem? hw)
    obtain rfl := hfit.incarnation
    rw [Queue.topicAt_setTopic_self (Queue.lt_length_of_take ht)]
    have hmem := h.mem_of_take ht
    have hfits : PoolWorker.Fits w.subscription.incarnation orders deeds
        ⟨⟨w.subscription.incarnation, true⟩, w.sentinels + 1, .acknowledging e.id⟩ := by
      refine ⟨rfl, ?_, e, hmem, rfl, by rw [he]; rfl⟩
      simpa [PoolWorker.isServed, hf] using hfit.sentinels
    -- A task has another id than the sentinel that is taken.
    have hother : ∀ x ∈ orders, x.payload.isSentinel = false →
        (PoolStage.acknowledging e.id).settled? ≠ some x.id := by
      intro x hx hxs hid
      obtain rfl := order_unique hn hmem hx (Option.some.inj hid)
      simp [he, Payload.isSentinel] at hxs
    simpa using h.take hw hs hf ht (by rfl) (by rfl) hother (by rw [he]; rfl) hfits
  | @leave w hw hs hf =>
    exact h.goOn hw (by simp) hf (by rw [hs]; rfl) (by simp) (by simp [hs, PoolStage.settled?])
      (by simp [hs, PoolStage.carried?]) (by simp)
  | @announce w d r hw hs =>
    have hfit := (h.workers w (List.mem_of_getElem? hw)).stage
    rw [hs] at hfit
    refine h.goOn hw (by simp) ?_ (by rw [hs]; rfl) (by simp) (by simp [hs, PoolStage.settled?])
      (by simp [hs, PoolStage.carried?]) (by simp)
    exact ⟨hfit.1, hfit.2.mono (List.subset_append_left _ _)⟩
  | @collect w d r hw hs =>
    have hfit := (h.workers w (List.mem_of_getElem? hw)).stage
    rw [hs] at hfit
    obtain ⟨hserved, hbrought⟩ := hfit
    have hall := hbrought.mono (List.subset_append_left deeds [.collected d r])
    obtain ⟨e, he, a, -, hid, hp, -⟩ := hbrought
    refine h.goOn hw rfl
      ⟨e, he, hid, by rw [hp, hserved]; rfl⟩ (by rw [hs]; rfl) (by simp [Deed.isAcked])
      (fun x _ _ => ?_) (fun x => ?_) (fun x y hx => ?_)
    · simp [hs, PoolStage.settled?, Deed.isCollected, List.countP_singleton]
    · simp [hs, PoolStage.carried?, Deed.isCollected, Deed.isDelegated, List.countP_singleton]
    · obtain ⟨rfl, rfl⟩ : x = d ∧ y = r := by simpa using hx
      exact hall
  | @ack w d q' hw hs ha =>
    have hok := ack_eq hq hi h hw (d := d) (by rw [hs]; rfl)
    obtain rfl := Except.ok.inj (ha.symm.trans hok)
    have htopic : ((q.setTopic i ((q.topicAt i).ack d)).forget d).topicAt i =
        (q.topicAt i).ack d := Queue.topicAt_setTopic_self (hq.lt_length hi) _
    rw [htopic]
    exact h.ack (Queue.nodup_ids_topicAt hq.ids i) hw hs
  | @refused w d e hw hs ha =>
    -- What the worker holds is in flight, so its acknowledgement is not refused.
    have hok := ack_eq hq hi h hw (d := d) (by rw [hs]; rfl)
    rw [ha] at hok
    cases hok

/-- **No delegation that comes back upsets the ledger.** -/
theorem delegated {d : Nat} (h : Ledger orders i left t p deeds) (hd : p.delegating? k = some d)
    (r : SubAgentResult) :
    Ledger orders i left t (p.delegated k r) (deeds ++ [.delegated d r]) := by
  obtain ⟨w, a, hw, hs⟩ := delegating?_eq_some hd
  have hfit := (h.workers w (List.mem_of_getElem? hw)).stage
  rw [hs] at hfit
  obtain ⟨hserved, e, he, hid, hp⟩ := hfit
  rw [delegated_eq hw hs]
  refine h.goOn hw (List.append_nil _).symm
    ⟨hserved, e, he, a, r, hid, hp, by simp, rfl⟩ (by rw [hs]; rfl) (by simp [Deed.isAcked])
    (fun x _ _ => ?_) (fun x => ?_) (by simp)
  · simp [hs, PoolStage.settled?, Deed.isCollected]
  · simp [hs, PoolStage.carried?, Deed.isCollected, Deed.isDelegated, List.countP_singleton]

/-! ### Reading the ledger -/

/-- A worker that carries a result and one that is about to acknowledge hold a delivery
each. -/
theorem carries_add_settles_le (ws : List PoolWorker) (d : Nat) :
    ws.countP (PoolWorker.carries d) + ws.countP (PoolWorker.settles d) ≤
      ws.countP (PoolWorker.holds d) := by
  induction ws with
  | nil => simp
  | cons w ws ih =>
    have hw : (if w.carries d then 1 else 0) + (if w.settles d then 1 else 0) ≤
        if w.holds d then 1 else 0 := by
      cases hs : w.stage <;>
        simp [PoolWorker.carries, PoolWorker.settles, PoolWorker.holds, hs, PoolStage.held?,
          PoolStage.carried?, PoolStage.settled?]
    simp only [List.countP_cons]
    omega

/-- **A task's order has one of four standings.** -/
theorem standing (h : Ledger orders i left t p deeds) (he : e ∈ orders)
    (hs : e.payload.isSentinel = false) :
    Standing.of t deeds e.id ∈
      [Standing.pending, Standing.underWay, Standing.collected, Standing.settled] := by
  have := h.place e he
  have := h.hands e.id
  have := h.results e he hs
  have := carries_add_settles_le p.workers e.id
  simp only [Standing.of, Standing.pending, Standing.underWay, Standing.collected,
    Standing.settled, List.mem_cons, Standing.mk.injEq, List.not_mem_nil, or_false]
  omega

/-- **Nothing is delegated twice.** -/
theorem delegated_le_one (h : Ledger orders i left t p deeds) (he : e ∈ orders)
    (hs : e.payload.isSentinel = false) : deeds.countP (Deed.isDelegated e.id) ≤ 1 := by
  have := h.place e he
  have := h.hands e.id
  have := h.results e he hs
  have := h.delegations e.id
  have := carries_add_settles_le p.workers e.id
  omega

/-- **A worker without a sentinel finds a message.** -/
theorem ready_ne_nil (h : Ledger orders i left t p deeds) (hw : p.workers[k]? = some w)
    (hf : w.isServed = false) : t.ready ≠ [] := by
  intro hr
  have hall := h.sentinels
  rw [hr, List.countP_nil] at hall
  have hlt : p.workers.countP PoolWorker.isServed < p.workers.length := by
    refine Nat.lt_of_le_of_ne List.countP_le_length fun heq => ?_
    have := List.countP_eq_length.mp heq w (List.mem_of_getElem? hw)
    simp [hf] at this
  omega

/-! ### When all workers are gone -/

/-- A worker that is gone has left with its sentinel. -/
theorem left_of_isGone (h : Ledger orders i left t p deeds) (hw : w ∈ p.workers)
    (hg : w.stage.isGone = true) : w.stage = .left ∧ w.isServed = true := by
  have hfit := (h.workers w hw).stage
  cases hs : w.stage with
  | left => exact ⟨rfl, by rwa [hs] at hfit⟩
  | lost => rw [hs] at hfit; exact hfit.elim
  | seeking | delegating | announcing | collecting | acknowledging =>
    simp [hs, PoolStage.isGone] at hg

/-- A pool of workers that are gone holds nothing. -/
theorem countP_holds_eq_zero (hg : p.isDrained = true) (d : Nat) :
    p.workers.countP (PoolWorker.holds d) = 0 := by
  refine List.countP_eq_zero.mpr fun w hw => ?_
  have := List.all_eq_true.mp hg w hw
  cases hs : w.stage <;> simp [PoolWorker.holds, hs, PoolStage.held?, PoolStage.isGone] at this ⊢

/-- **Nothing waits** once all workers are hired and gone, if a sentinel came last. -/
theorem ready_eq_nil (h : Ledger orders i 0 t p deeds) (hg : p.isDrained = true)
    (hlast : ∀ e ∈ orders.getLast?, e.payload.isSentinel = true) : t.ready = [] := by
  -- Every worker has had its sentinel, so none waits, and nothing stands behind the last one.
  have hserved : p.workers.countP PoolWorker.isServed = p.workers.length :=
    List.countP_eq_length.mpr fun w hw =>
      (h.left_of_isGone hw (List.all_eq_true.mp hg w hw)).2
  have hnone : t.ready.countP (·.payload.isSentinel) = 0 := by
    have := h.sentinels
    omega
  by_contra hne
  obtain ⟨e, he⟩ := List.getLast?_isSome.mpr hne |> Option.isSome_iff_exists.mp
  have hsent : e.payload.isSentinel = true := by
    refine hlast e ?_
    obtain ⟨l, hl⟩ := h.ready
    rw [← hl, List.getLast?_append, he]
    rfl
  exact List.countP_eq_zero.mp hnone e (List.mem_of_getLast? he) hsent

/-- **Nothing is in flight** once all workers are gone. -/
theorem inFlight_eq_nil (h : Ledger orders i left t p deeds) (hg : p.isDrained = true) :
    t.inFlight = [] := by
  refine List.eq_nil_iff_forall_not_mem.mpr fun e he => ?_
  have hpos : 0 < t.flying e.id := List.countP_pos_iff.mpr ⟨e, he, by simp⟩
  rw [h.hands e.id, countP_holds_eq_zero hg] at hpos
  omega

/-- **The report of a pool that is drained**: nobody is lost, and each worker has had one
sentinel. -/
theorem report_eq (h : Ledger orders i left t p deeds) (hg : p.isDrained = true) :
    p.report = ⟨p.results, List.replicate p.workers.length 1, 0⟩ := by
  have hleft : ∀ w ∈ p.workers, w.stage.isLost = false ∧ w.sentinels = 1 := by
    intro w hw
    obtain ⟨hs, hserved⟩ := h.left_of_isGone hw (List.all_eq_true.mp hg w hw)
    exact ⟨by rw [hs]; rfl, by rw [(h.workers w hw).sentinels, hserved]; rfl⟩
  have hkeep : (p.workers.filter fun w => !w.stage.isLost) = p.workers :=
    List.filter_eq_self.mpr fun w hw => by simp [(hleft w hw).1]
  have hlost : (p.workers.filter fun w => w.stage.isLost) = [] :=
    List.filter_eq_nil_iff.mpr fun w hw => by simp [(hleft w hw).1]
  have hones : p.workers.map (·.sentinels) = List.replicate p.workers.length 1 := by
    refine List.eq_replicate_iff.mpr ⟨List.length_map _, fun n hmem => ?_⟩
    obtain ⟨w, hw, rfl⟩ := List.mem_map.mp hmem
    exact (hleft w hw).2
  simp only [Pool.report, hkeep, hlost, hones, List.length_nil]

/-- Every task's result is collected once when nothing waits and all workers are gone. -/
theorem countP_isCollected (h : Ledger orders i left t p deeds) (hg : p.isDrained = true)
    (hr : t.ready = []) (he : e ∈ orders) (hs : e.payload.isSentinel = false) :
    deeds.countP (Deed.isCollected e.id) = 1 := by
  have hw : t.waiting e.id = 0 := by simp [Topic.waiting, hr]
  have hf : t.flying e.id = 0 := by simp [Topic.flying, h.inFlight_eq_nil hg]
  have := h.place e he
  have := h.hands e.id
  have := h.results e he hs
  have := carries_add_settles_le p.workers e.id
  omega

/-- Nothing is collected twice. -/
theorem nodup_collected (h : Ledger orders i left t p deeds) (hg : p.isDrained = true)
    (hr : t.ready = []) : ((deeds.filterMap Deed.collected?).map (·.1)).Nodup := by
  refine List.nodup_iff_count_le_one.mpr fun d => ?_
  rcases Nat.eq_zero_or_pos (((deeds.filterMap Deed.collected?).map (·.1)).count d) with hz | hpos
  · omega
  · obtain ⟨⟨d, r⟩, hp, rfl⟩ := List.mem_map.mp (List.count_pos_iff.mp hpos)
    obtain ⟨e, he, a, res, rfl, hpay, -⟩ := h.brought d r (Deed.mem_collected.mp hp)
    rw [Deed.count_collected]
    exact Nat.le_of_eq (h.countP_isCollected hg hr he (by rw [hpay]; rfl))

/-- **The deliveries that were collected** are those of the tasks. -/
theorem collected_perm (h : Ledger orders i left t p deeds) (hn : (orders.map (·.id)).Nodup)
    (hg : p.isDrained = true) (hr : t.ready = []) :
    ((deeds.filterMap Deed.collected?).map (·.1)).Perm
      ((orders.filter fun e => !e.payload.isSentinel).map (·.id)) := by
  refine (List.perm_ext_iff_of_nodup (h.nodup_collected hg hr)
    (hn.sublist (List.filter_sublist.map _))).mpr fun d => ⟨fun hd => ?_, fun hd => ?_⟩
  · obtain ⟨⟨d, r⟩, hp, rfl⟩ := List.mem_map.mp hd
    obtain ⟨e, he, a, res, rfl, hpay, -⟩ := h.brought d r (Deed.mem_collected.mp hp)
    exact List.mem_map_of_mem (List.mem_filter.mpr ⟨he, by simp [hpay, Payload.isSentinel]⟩)
  · obtain ⟨e, he, rfl⟩ := List.mem_map.mp hd
    obtain ⟨he, hs⟩ := List.mem_filter.mp he
    rw [← List.count_pos_iff, Deed.count_collected,
      h.countP_isCollected hg hr he (by simpa using hs)]
    exact Nat.one_pos

/-- **The collection of a pool that is drained** holds one result for each task, in some
order, and each came from the delegation of its task. -/
theorem results_perm (h : Ledger orders i left t p deeds) (hn : (orders.map (·.id)).Nodup)
    (hg : p.isDrained = true) (hr : t.ready = []) :
    ∃ f : Nat → TaskResult,
      p.results.Perm ((orders.filter fun e => !e.payload.isSentinel).map fun e => f e.id) ∧
      ∀ e ∈ orders, ∀ a, e.payload = .item a →
        ∃ res, .delegated e.id res ∈ deeds ∧ f e.id = .ofSubAgent a.id res := by
  set pairs := deeds.filterMap Deed.collected? with hpairs
  -- Each task's result is what its id stands for among the pairs.
  let f : Nat → TaskResult := fun d => (pairs.lookup d).getD default
  have hf : ∀ x ∈ pairs, f x.1 = x.2 := by
    intro x hx
    have hlookup : pairs.lookup x.1 = some x.2 := lookup_of_mem (h.nodup_collected hg hr) hx
    simp [f, hlookup]
  refine ⟨f, ?_, fun e he a hpay => ?_⟩
  · have hvalues : pairs.map (·.2) = (pairs.map (·.1)).map f := by
      rw [List.map_map]
      exact List.map_congr_left fun x hx => (hf x hx).symm
    rw [h.collection, Deed.filterMap_result, ← hpairs, hvalues]
    simpa [List.map_map, Function.comp_def] using (h.collected_perm hn hg hr).map f
  · have hone := h.countP_isCollected hg hr he (by rw [hpay]; rfl)
    have hpos : 0 < (pairs.map (·.1)).count e.id := by
      rw [hpairs, Deed.count_collected, hone]
      exact Nat.one_pos
    obtain ⟨⟨d, r⟩, hp, hd⟩ := List.mem_map.mp (List.count_pos_iff.mp hpos)
    obtain ⟨e', he', b, res, hid, hpay', hres, rfl⟩ := h.brought d r (Deed.mem_collected.mp hp)
    obtain rfl := order_unique hn he he' (hd.symm.trans hid.symm)
    obtain rfl : a = b := by simpa [hpay] using hpay'
    obtain rfl := hid
    exact ⟨res, hres, hf _ hp⟩

end Ledger

end Pool

end Roundtable

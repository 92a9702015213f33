import Roundtable.Proofs.Queue.Exchange

/-!
# The order of deliveries

A topic delivers in the order in which stamps were put in line, whoever takes
(`Roundtable.Queue.Exchange.InOrder`): a message that is put back stands behind all that were
published meanwhile, under the stamp of its next attempt. Competing subscriptions share the
line out among themselves, and each stamp goes to one of them.

**A sentinel is the last thing a subscription receives.** Which sentinel that is depends on who
takes first; what is certain is that a subscription that has received one takes nothing any
more, whatever happens later.
-/

namespace Roundtable

namespace Topic

variable {α : Type}

theorem pushed_mem_of_published {acts : List (Act α)} {e : Envelope α} (h : e ∈ published acts) :
    .pushed e ∈ acts := by
  induction acts with
  | nil => simp [published] at h
  | cons a acts ih =>
    cases a with
    | pushed x =>
      rw [published, List.mem_append, List.mem_singleton] at h
      rcases h with h | rfl
      · exact List.mem_cons_of_mem _ (ih h)
      · exact List.mem_cons_self
    | taken | acked | requeued | discarded => exact List.mem_cons_of_mem _ (ih h)

theorem taken_mem_of_delivered {acts : List (Act α)} {p : Nat × Envelope α}
    (h : p ∈ delivered acts) : .taken p.1 p.2 ∈ acts := by
  induction acts with
  | nil => simp [delivered] at h
  | cons a acts ih =>
    cases a with
    | taken n x =>
      rw [delivered, List.mem_append, List.mem_singleton] at h
      rcases h with h | rfl
      · exact List.mem_cons_of_mem _ (ih h)
      · exact List.mem_cons_self
    | pushed | acked | requeued | discarded => exact List.mem_cons_of_mem _ (ih h)

/-- **The line of stamps is delivered in order**: what was delivered is its front and what
waits is the rest, no stamp stands in it twice, and every message carries what was
published. -/
structure InLine (acts : List (Act α)) (t : Topic α) : Prop where
  line : enqueued acts = (delivered acts).map (·.2.stamp) ++ t.ready.map (·.stamp)
  distinct : (enqueued acts).Nodup
  faithful : ∀ p ∈ delivered acts, .pushed p.2.original ∈ acts

theorem Lives.inLine {acts : List (Act α)} {t : Topic α} (h : Lives acts t) : InLine acts t :=
  ⟨h.enqueued_eq, h.nodup_enqueued, fun p hp =>
    pushed_mem_of_published (h.original_mem_of_delivered p hp)⟩

/-- What a subscription got of what was delivered. -/
def shareOf (n : Nat) (l : List (Nat × Envelope α)) : List (Envelope α) :=
  (l.filter (·.1 == n)).map (·.2)

end Topic

namespace Queue

variable {α : Type} {log : List (Dealing α)} {d : Dealing α} {era : Era} {n : Nat}

/-- What a subscription has received, in order. -/
def received (n : Nat) : List (Dealing α) → List (Envelope α)
  | [] => []
  | .act (.taken m e) :: log => if m = n then received n log ++ [e] else received n log
  | _ :: log => received n log

/-- What is in the books of an era was done. -/
theorem mem_of_mem_actsIn {a : Topic.Act α} (h : a ∈ actsIn era log) : .act a ∈ log := by
  induction log with
  | nil => simp [actsIn] at h
  | cons d log ih =>
    cases d with
    | act b =>
      rw [actsIn] at h
      split at h
      · rcases List.mem_cons.mp h with rfl | h
        · exact List.mem_cons_self
        · exact List.mem_cons_of_mem _ (ih h)
      · exact List.mem_cons_of_mem _ (ih h)
    | subscribed | removed => exact List.mem_cons_of_mem _ (ih h)

/-- A subscription that takes a message has received it. -/
theorem received_taken (m : Nat) (e : Envelope α) (log : List (Dealing α)) :
    received n (.act (.taken m e) :: log) = received n log ++ if m = n then [e] else [] := by
  rw [received]
  split
  · rfl
  · rw [List.append_nil]

theorem received_other (h : ∀ m e, d ≠ .act (.taken m e)) :
    received n (d :: log) = received n log := by
  match d with
  | .act (.taken m e) => exact (h m e rfl).elim
  | .act (.pushed _) | .act (.acked _) | .act (.requeued _) | .act (.discarded _)
  | .subscribed .. | .removed _ => rfl

theorem delivered_actsIn_other (h : ∀ m e, d ≠ .act (.taken m e)) :
    Topic.delivered (actsIn era (d :: log)) = Topic.delivered (actsIn era log) := by
  cases d with
  | subscribed | removed => rfl
  | act a =>
    rw [actsIn]
    split
    · cases a with
      | taken m e => exact (h m e rfl).elim
      | pushed | acked | requeued | discarded => rfl
    · rfl

/-- A subscription that took nothing has received nothing. -/
theorem received_eq_nil (h : ∀ e, .act (.taken n e) ∉ log) : received n log = [] := by
  induction log with
  | nil => rfl
  | cons d log ih =>
    have hlog := ih fun e he => h e (List.mem_cons_of_mem _ he)
    match d with
    | .act (.taken m e) =>
      rw [received_taken, if_neg, hlog, List.append_nil]
      rintro rfl
      exact h e List.mem_cons_self
    | .act (.pushed _) | .act (.acked _) | .act (.requeued _) | .act (.discarded _)
    | .subscribed .. | .removed _ => exact hlog

theorem shareOf_eq_nil (h : ∀ e, .act (.taken n e) ∉ log) :
    Topic.shareOf n (Topic.delivered (actsIn era log)) = [] := by
  refine List.map_eq_nil_iff.mpr (List.filter_eq_nil_iff.mpr fun p hp hn => h p.2 ?_)
  have htaken := mem_of_mem_actsIn (Topic.taken_mem_of_delivered hp)
  rwa [beq_iff_eq.mp hn] at htaken

namespace Exchange

variable {x y : Exchange α}

/-- **What the subscriptions of an exchange have received**: a subscription has finished with
its first sentinel, and its share of what was delivered in its era is all it has received. -/
structure Seated (x : Exchange α) (log : List (Dealing α)) : Prop where
  /-- Only subscriptions take. -/
  bound : ∀ n e, .act (.taken n e) ∈ log → n < x.subscriptions.length
  finished : ∀ (n : Nat) (s : Subscription), x.subscriptions[n]? = some s →
    s.finished = (received n log).any (·.payload.isSentinel)
  last : ∀ n, ∀ e ∈ (received n log).dropLast, e.payload.isSentinel = false
  share : ∀ n era, homeOf? n log = some era →
    Topic.shareOf n (Topic.delivered (actsIn era log)) = received n log

theorem Seated.empty : Seated (empty : Exchange α) [] :=
  ⟨by simp, by simp [Exchange.empty], by simp [received], by simp [homeOf?]⟩

/-- Only taking and subscribing change what subscriptions have. -/
theorem Seated.other (h : x.Seated log) (hd : ∀ n e, d ≠ .act (.taken n e))
    (hhome : ∀ n, homeOf? n (d :: log) = homeOf? n log) {q : Queue α} :
    Seated ⟨q, x.subscriptions⟩ (d :: log) where
  bound n e he := h.bound n e ((List.mem_cons.mp he).resolve_left fun heq => hd n e heq.symm)
  finished n s hs := by
    rw [received_other hd]
    exact h.finished n s hs
  last n := by
    rw [received_other hd]
    exact h.last n
  share n era hera := by
    rw [received_other hd, delivered_actsIn_other hd]
    exact h.share n era (hhome n ▸ hera)

/-- **A new subscription** has received nothing. -/
theorem Seated.subscribe (h : x.Seated log) (topic : String) {q : Queue α} {s : Subscription}
    (hs : s.finished = false) :
    Seated ⟨q, x.subscriptions ++ [s]⟩ (.subscribed topic x.subscriptions.length :: log) := by
  have hother : ∀ n e, (.subscribed topic x.subscriptions.length : Dealing α) ≠ .act (.taken n e) :=
    by simp
  have hnew : ∀ e, .act (.taken x.subscriptions.length e) ∉ log :=
    fun e he => Nat.lt_irrefl _ (h.bound _ e he)
  refine ⟨fun n e he => ?_, fun n s' hs' => ?_, fun n => ?_, fun n era hera => ?_⟩
  · have hlt := h.bound n e ((List.mem_cons.mp he).resolve_left fun heq => hother n e heq.symm)
    simpa using Nat.lt_succ_of_lt hlt
  · rw [received_other hother]
    rcases getElem?_concat_eq_some_iff.mp hs' with hs' | ⟨rfl, rfl⟩
    · exact h.finished n s' hs'
    · rw [hs, received_eq_nil hnew, List.any_nil]
  · rw [received_other hother]
    exact h.last n
  · rw [received_other hother, delivered_actsIn_other hother]
    rw [homeOf?] at hera
    split at hera
    · next heq =>
      subst heq
      rw [received_eq_nil hnew, shareOf_eq_nil hnew]
    · exact h.share n era hera

/-- **A subscription takes a message** as long as it has received no sentinel. -/
theorem Seated.receive (h : x.Seated log) {s : Subscription} {e : Envelope α} {q : Queue α}
    (hs : x.subscriptions[n]? = some s) (hf : s.finished = false) :
    Seated ⟨q, x.subscriptions.set n { s with finished := e.payload.isSentinel }⟩
      (.act (.taken n e) :: log) := by
  have hlt : n < x.subscriptions.length := (List.getElem?_eq_some_iff.mp hs).1
  have hnone : (received n log).any (·.payload.isSentinel) = false := h.finished n s hs ▸ hf
  refine ⟨fun m x he => ?_, fun m s' hs' => ?_, fun m x hx => ?_, fun m era hera => ?_⟩
  · rw [List.length_set]
    rcases List.mem_cons.mp he with heq | he
    · cases heq
      exact hlt
    · exact h.bound m x he
  · rw [received_taken]
    rcases eq_or_ne m n with rfl | hne
    · rw [List.getElem?_set_self hlt] at hs'
      rw [if_pos rfl, List.any_append, hnone, ← Option.some.inj hs']
      simp
    · rw [List.getElem?_set_ne hne.symm] at hs'
      rw [if_neg hne.symm, List.append_nil]
      exact h.finished m s' hs'
  · rw [received_taken] at hx
    rcases eq_or_ne m n with rfl | hne
    · rw [if_pos rfl, List.dropLast_concat] at hx
      exact Bool.not_eq_true _ ▸ List.any_eq_false.mp hnone x hx
    · rw [if_neg hne.symm, List.append_nil] at hx
      exact h.last m x hx
  · have hshare : Topic.shareOf m (Topic.delivered (actsIn era log)) = received m log :=
      h.share m era hera
    rw [received_taken, ← hshare]
    rcases eq_or_ne m n with rfl | hne
    · have hfor : eraFor log (.taken m e) = some era := hera
      rw [actsIn_act_self hfor, Topic.delivered, if_pos rfl]
      simp [Topic.shareOf]
    · rw [if_neg hne.symm, List.append_nil, actsIn]
      split
      · simp [Topic.delivered, Topic.shareOf, hne.symm]
      · rfl

theorem Seated.deal (h : x.Seated log) (hd : Deals x d y) : y.Seated (d :: log) := by
  cases hd with
  | publish topic p => exact h.other (by simp) fun _ => rfl
  | subscribe topic => exact h.subscribe topic rfl
  | receive hs hf _ => exact h.receive hs hf
  | ack | requeue | discard | remove => exact h.other (by simp) fun _ => rfl

theorem seated (calls : List (Call α)) : Seated (run calls).1 (run calls).2 :=
  run_induction .empty (fun h hd => h.deal hd) calls

/-! ### After a sentinel -/

/-- A subscription that has finished stays as it is. -/
theorem Deals.finished (hd : Deals x d y) {s : Subscription} (hs : x.subscriptions[n]? = some s)
    (hf : s.finished = true) : y.subscriptions[n]? = some s := by
  cases hd with
  | subscribe topic => exact getElem?_of_isPrefix (List.prefix_append _ _) hs
  | @receive m s' e t hs' hf' ht =>
    have hne : m ≠ n := by
      rintro rfl
      obtain rfl : s' = s := Option.some.inj (hs'.symm.trans hs)
      simp [hf] at hf'
    exact (List.getElem?_set_ne hne).trans hs
  | publish | ack | requeue | discard | remove => exact hs

theorem finished_run_append {calls : List (Call α)} {s : Subscription}
    (hs : (run calls).1.subscriptions[n]? = some s) (hf : s.finished = true)
    (more : List (Call α)) : (run (calls ++ more)).1.subscriptions[n]? = some s := by
  induction more using List.reverseRecOn with
  | nil => rwa [List.append_nil]
  | append_singleton more c ih =>
    rw [← List.append_assoc, run_concat, serve]
    obtain ⟨-, hsame⟩ | ⟨d, -, hd⟩ := (run (calls ++ more)).1.call_cases c
    · rwa [hsame]
    · exact hd.finished ih hf

/-- A subscription that has finished is given nothing and takes nothing. -/
theorem call_next_of_finished {s : Subscription} (hs : x.subscriptions[n]? = some s)
    (hf : s.finished = true) : x.call (.next n) = (.attempt .ended, x) := by
  have hsame : x.subscriptions.set n s = x.subscriptions := by
    obtain ⟨hn, rfl⟩ := List.getElem?_eq_some_iff.mp hs
    exact List.set_getElem_self hn
  simp [call, hs, Queue.next, hf, hsame]

/-! ### The order -/

/-- **Messages are delivered in order** in every era, and shared out among the subscriptions
of the era. -/
structure InOrder (x : Exchange α) (log : List (Dealing α)) : Prop where
  /-- In every era deliveries follow the line of stamps, and what waits is the rest of it. -/
  inLine : ∀ i era, (eras log)[i]? = some era →
    Topic.InLine (actsIn era log) (x.queue.topicAt i)
  /-- What a subscription has received is its share of what was delivered in its era. -/
  share : ∀ n era, homeOf? n log = some era →
    Topic.shareOf n (Topic.delivered (actsIn era log)) = received n log
  /-- Only the last message a subscription has received may be a sentinel. -/
  last : ∀ n, ∀ e ∈ (received n log).dropLast, e.payload.isSentinel = false

/-- **Whatever is called on a queue, messages are delivered in order**, and once a
subscription has received a sentinel it is given nothing any more and takes nothing, whatever
is called later. -/
theorem in_order (calls : List (Call α)) :
    InOrder (run calls).1 (run calls).2 ∧
    ∀ n, (∃ e ∈ received n (run calls).2, e.payload.isSentinel = true) →
      ∀ more, (run (calls ++ more)).1.call (.next n) =
        (.attempt .ended, (run (calls ++ more)).1) := by
  have hseated := seated calls
  refine ⟨⟨fun i era hi => ((told calls).lives i era hi).inLine, hseated.share, hseated.last⟩, ?_⟩
  rintro n ⟨e, he, hsentinel⟩ more
  -- Who has received something is a subscription, and it has finished with the sentinel.
  have hlt : n < (run calls).1.subscriptions.length := by
    by_contra hge
    rw [received_eq_nil fun x hx => hge (hseated.bound n x hx)] at he
    simp at he
  have hs := List.getElem?_eq_getElem hlt
  have hf := (hseated.finished n _ hs).trans (List.any_eq_true.mpr ⟨e, he, hsentinel⟩)
  exact call_next_of_finished (finished_run_append hs hf more) hf

/-- Two subscriptions take in turn from a topic on which a message is put back. -/
def rivals : List (Call Nat) :=
  [.publish "t" 7, .publish "t" 8, .subscribe "t", .subscribe "t", .next 0, .next 1, .nack 1 true,
    .publishSentinel "t", .publish "t" 9, .next 1, .next 0]

theorem in_order_rivals :
    let log := (run rivals).2
    (eras log)[0]? = some ⟨"t", 0⟩ ∧
    Topic.enqueued (actsIn ⟨"t", 0⟩ log) = [(1, 1), (2, 1), (1, 2), (3, 1), (4, 1)] ∧
    Topic.InLine (actsIn ⟨"t", 0⟩ log) ((run rivals).1.queue.topicAt 0) ∧
    received 0 log = [⟨"t", .item 7, 1, 1⟩, ⟨"t", .sentinel, 3, 1⟩] ∧
    ∀ more, (run (rivals ++ more)).1.call (.next 0) =
      (.attempt .ended, (run (rivals ++ more)).1) := by
  have hera : (eras (run rivals).2)[0]? = some ⟨"t", 0⟩ := by decide +kernel
  have hreceived : received 0 (run rivals).2 =
      [⟨"t", .item 7, 1, 1⟩, ⟨"t", .sentinel, 3, 1⟩] := by decide +kernel
  exact ⟨hera, by decide +kernel, (in_order rivals).1.inLine 0 _ hera, hreceived,
    (in_order rivals).2 0 ⟨_, by rw [hreceived]; exact List.mem_cons_of_mem _ List.mem_cons_self,
      rfl⟩⟩

end Exchange

end Queue

end Roundtable

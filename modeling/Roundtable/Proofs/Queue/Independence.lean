import Mathlib.Logic.Equiv.Basic
import Mathlib.Order.Monotone.Defs
import Roundtable.Proofs.Queue.Numbers

/-!
# Topics are independent

All names of a queue share one counter of ids and one index of deliveries, and taking a name
away goes through the whole index. **For those who call on one name the others might as well
not be there** (`Roundtable.Queue.Exchange.topics_independent`): with all calls on other names
left out, each of theirs is answered as before, only the deliveries are numbered more closely.
For by each call on the name, the two queues stay alike under it, and no other call changes
what there is of it (`Roundtable.Queue.Exchange.abridged`).

Two calls on two names therefore lead to the same queue in either order, under each of the two
names because the other call leaves it alone. What they number changes places
(`Roundtable.Queue.Exchange.exists_twins`), and whatever is asked behind them is answered alike
(`Roundtable.Queue.Exchange.Twins.replies`).
-/

namespace Roundtable

namespace Queue

variable {α : Type} {f g : Nat → Nat} {topic u : String}

namespace Exchange

variable {p p' : Exchange α × List (Dealing α)} {c : Call α}

/-! ### Two queues alike under a name -/

/-- **What there is of a name in the one queue, and what was given out under it, is that of
the other renumbered.** -/
structure AlikeOn (topic : String) (f g : Nat → Nat)
    (p p' : Exchange α × List (Dealing α)) : Prop where
  stall : (stall topic p).Alike f g (stall topic p')
  issued : issuedOn topic p'.2 = (issuedOn topic p.2).map f
  subscribed : subscribedOn topic p'.2 = (subscribedOn topic p.2).map g

namespace AlikeOn

/-- A call on another name on the one side leaves them alike. -/
theorem other_left (h : AlikeOn topic f g p p') (hp : Numbered p)
    (hc : c.topic? p.2 = some u) (hne : u ≠ topic) : AlikeOn topic f g (serve p c) p' := by
  have hlog := Numbered.dealtOn_other hc hne
  refine ⟨?_, ?_, ?_⟩
  · rw [hp.told.other hc hne]
    exact h.stall
  · rw [issuedOn, issuedOn, hlog]
    exact h.issued
  · rw [subscribedOn, subscribedOn, hlog]
    exact h.subscribed

/-- And so does one on the other side. -/
theorem other_right (h : AlikeOn topic f g p p') (hp' : Numbered p')
    (hc : c.topic? p'.2 = some u) (hne : u ≠ topic) : AlikeOn topic f g p (serve p' c) := by
  have hlog := Numbered.dealtOn_other hc hne
  refine ⟨?_, ?_, ?_⟩
  · rw [hp'.told.other hc hne]
    exact h.stall
  · rw [issuedOn, hlog]
    exact h.issued
  · rw [subscribedOn, hlog]
    exact h.subscribed

/-- **A call on the name on the one side, and the renumbered call on the other**, are answered
alike and leave them alike. -/
theorem own (h : AlikeOn topic f g p p') (hp : Numbered p) (hp' : Numbered p')
    (hc : ∀ u ∈ c.topic? p.2, u = topic) (hc' : ∀ u ∈ (c.rename f g).topic? p'.2, u = topic)
    (hf : ∀ d ∈ issuedOn topic p.2, ∀ x, f x = f d → x = d)
    (hg : ∀ n ∈ subscribedOn topic p.2, ∀ m, g m = g n → m = n)
    (hid : c.publishes = true → f p.1.queue.nextId = p'.1.queue.nextId)
    (hn : c.subscribes = true → g p.1.subscriptions.length = p'.1.subscriptions.length ∧
      ∀ m, g m = g p.1.subscriptions.length → m = p.1.subscriptions.length) :
    (p'.1.call (c.rename f g)).1 = (p.1.call c).1.rename f g ∧
      AlikeOn topic f g (serve p c) (serve p' (c.rename f g)) := by
  obtain ⟨x, log⟩ := p
  obtain ⟨x', log'⟩ := p'
  have hown := hp.told.own hc
  have hown' := hp'.told.own hc'
  have hanswer := h.stall.answer topic x.queue.nextId x'.queue.nextId x.subscriptions.length
    x'.subscriptions.length c (fun k d hd => hf d (hp.mem_issuedOn_of_mem_ids hd))
    (fun n hn => hg n (hp.mem_subscribedOn_of_seats hn))
  rw [← hown, ← hown'] at hanswer
  obtain ⟨hreply, hafter⟩ := hanswer hid hn
  -- What is noted is the same under the other numbers.
  have hof : Dealing.of? (c.rename f g) (x'.call (c.rename f g)).1 =
      (Dealing.of? c (x.call c).1).map (Dealing.rename f g) := by
    rw [hreply, Dealing.of?_rename]
  have hlog := hp.dealtOn_own hc
  have hlog' := hp'.dealtOn_own hc'
  refine ⟨hreply, hafter, ?_, ?_⟩
  · rw [issuedOn, issuedOn, hlog, hlog', hof, given_append, given_append, List.map_append,
      Option.toList_map, given_rename id?_rename]
    exact congrArg (· ++ _) h.issued
  · rw [subscribedOn, subscribedOn, hlog, hlog', hof, given_append, given_append, List.map_append,
      Option.toList_map, given_rename sub?_rename]
    exact congrArg (· ++ _) h.subscribed

end AlikeOn

/-! ### Minutes -/

/-- A call, the name it was about when it was made, and its reply. -/
structure Minute (α : Type) where
  topic? : Option String
  call : Call α
  reply : Reply α

/-- The call was about no other name. -/
def Minute.concerns (topic : String) (m : Minute α) : Bool := m.topic?.all (· == topic)

/-- The minutes of some calls, the first one first. -/
def minutesFrom (p : Exchange α × List (Dealing α)) : List (Call α) → List (Minute α)
  | [] => []
  | c :: cs => ⟨c.topic? p.2, c, (p.1.call c).1⟩ :: minutesFrom (serve p c) cs

/-- **The minutes of all that is asked of a new queue.** -/
def minutes (calls : List (Call α)) : List (Minute α) := minutesFrom (empty, []) calls

/-- What the calls are answered. -/
def replies (calls : List (Call α)) : List (Reply α) := (minutes calls).map (·.reply)

theorem Minute.concerns_iff {m : Minute α} :
    m.concerns topic = true ↔ ∀ u ∈ m.topic?, u = topic := by
  cases h : m.topic? <;> simp [concerns, h]

theorem suffix_foldl_serve (cs : List (Call α)) (p : Exchange α × List (Dealing α)) :
    p.2 <:+ (cs.foldl serve p).2 := by
  induction cs generalizing p with
  | nil => exact List.suffix_rfl
  | cons c cs ih => exact (List.suffix_append _ _).trans (ih (serve p c))

/-! ### The calls on one name, by themselves -/

/-- **The number of a delivery among those of a name**, which is the id it gets if nothing is
done under other names; whatever was not published to the name gets the first id that is not
given out then. -/
def localId (topic : String) (log : List (Dealing α)) (d : Nat) : Nat :=
  (issuedOn topic log).idxOf d + 1

/-- The number of a subscription among those of a name. -/
def localSub (topic : String) (log : List (Dealing α)) (n : Nat) : Nat :=
  (subscribedOn topic log).idxOf n

/-- Where nothing was done but under one name, nothing was done under another. -/
theorem dealtOn_eq_nil {log : List (Dealing α)} (h : dealtOn topic log = log)
    (hne : u ≠ topic) : dealtOn u log = [] := by
  induction log with
  | nil => rfl
  | cons d log ih =>
    rw [dealtOn] at h
    split at h
    · next htopic =>
      have hu : d.topic? log ≠ some u := fun hu => hne (Option.some.inj (hu.symm.trans htopic))
      rw [dealtOn, if_neg hu, ih (List.cons.inj h).2]
    · have := (dealtOn_sublist topic log).length_le
      rw [h, List.length_cons] at this
      omega

/-- A number that is given out under a name is, among those of the name, the next one. -/
theorem idxOf_given_dealtOn {number? : Dealing α → Option Nat} {i : Nat} {d : Dealing α}
    {log : List (Dealing α)} (hp : Numbered p) (hc : ∀ u ∈ c.topic? p.2, u = topic)
    (hd : Dealing.of? c (p.1.call c).1 = some d) (hi : number? d = some i)
    (hn : (given number? (serve p c).2).Nodup) (hlog : (serve p c).2 <:+ log) :
    (given number? (dealtOn topic log)).idxOf i = (given number? (dealtOn topic p.2)).length ∧
      i ∈ given number? (dealtOn topic log) := by
  have hown : given number? (dealtOn topic (serve p c).2) =
      given number? (dealtOn topic p.2) ++ [i] := by
    rw [hp.dealtOn_own hc, hd, Option.toList_some, List.singleton_append, given_cons, hi,
      Option.toList_some]
  have hnew : i ∉ given number? (dealtOn topic p.2) := fun hmem => by
    have hnodup := hn.sublist (given_sublist (dealtOn_sublist topic _))
    rw [hown] at hnodup
    exact (List.nodup_append.mp hnodup).2.2 i hmem i (List.mem_singleton_self i) rfl
  obtain ⟨later, hlater⟩ := prefix_given_dealtOn hlog
  rw [← hlater, hown]
  refine ⟨?_, by simp⟩
  rw [List.append_assoc, List.idxOf_append_of_notMem hnew, List.singleton_append,
    List.idxOf_cons_self, Nat.add_zero]

/-- Where calls were made on one name only, a renumbered call on it is about no other. -/
theorem topic?_rename (hp' : Numbered p') (honly : dealtOn topic p'.2 = p'.2)
    (hc : ∀ u ∈ c.topic? p.2, u = topic) : ∀ u ∈ (c.rename f g).topic? p'.2, u = topic := by
  intro u hu
  by_contra hne
  have hnone : dealtOn u p'.2 = [] := dealtOn_eq_nil honly hne
  have hmem := hp'.topic?_eq_some_iff.mp hu
  cases c with
  | publish v | publishSentinel v | subscribe v | stats v | remove v =>
    exact hne (hmem.symm.trans (hc v rfl))
  | next n => simp [Call.rename, subscribedOn, hnone, given] at hmem
  | ack d | nack d requeue => simp [Call.rename, issuedOn, hnone, given] at hmem

/-- A call on the name and the call under the numbers of the name are answered alike. -/
theorem AlikeOn.own_local {log : List (Dealing α)} (hp : Numbered p) (hp' : Numbered p')
    (h : AlikeOn topic (localId topic log) (localSub topic log) p p')
    (honly : dealtOn topic p'.2 = p'.2) (hc : ∀ u ∈ c.topic? p.2, u = topic)
    (hlog : (serve p c).2 <:+ log) :
    let c' := c.rename (localId topic log) (localSub topic log)
    ((p'.1.call c').1 = (p.1.call c).1.rename (localId topic log) (localSub topic log) ∧
      AlikeOn topic (localId topic log) (localSub topic log) (serve p c) (serve p' c')) ∧
    dealtOn topic (serve p' c').2 = (serve p' c').2 := by
  intro c'
  have hc' : ∀ u ∈ c'.topic? p'.2, u = topic := topic?_rename hp' honly hc
  have hpast : p.2 <:+ log := (List.suffix_append _ _).trans hlog
  have hsep {l : List Nat} {i : Nat} (hi : i ∈ l) (x : Nat) (hx : l.idxOf x = l.idxOf i) : x = i :=
    ((List.idxOf_inj hi).mp hx.symm).symm
  have hnext := hp.serve c
  refine ⟨h.own hp hp' hc hc' (fun d hd x hx => ?_) (fun n hn m hm => ?_) (fun hpub => ?_)
    (fun hsub => ?_), by rw [hp'.dealtOn_own hc', honly, serve_log]⟩
  · exact hsep ((prefix_given_dealtOn hpast).subset hd) x (Nat.succ.inj hx)
  · exact hsep ((prefix_given_dealtOn hpast).subset hn) m hm
  · obtain ⟨d, hd, hid⟩ := exists_published p.1 hpub
    obtain ⟨hplace, -⟩ := idxOf_given_dealtOn hp hc hd hid (issued_eq _ ▸ hnext.nodup_issued) hlog
    have hcount := congrArg List.length h.issued
    rw [List.length_map, issuedOn, honly, ← issued_eq] at hcount
    rw [hp'.nextId_eq, hcount]
    exact congrArg (· + 1) hplace
  · obtain ⟨d, hd, hn⟩ := exists_subscribed p.1 hsub
    obtain ⟨hplace, hmem⟩ := idxOf_given_dealtOn hp hc hd hn hnext.nodup_subs hlog
    have hcount := congrArg List.length h.subscribed
    rw [List.length_map, subscribedOn, honly] at hcount
    rw [hp'.length_eq, hcount]
    exact ⟨hplace, hsep hmem⟩

/-- **Calls on one name are answered by themselves as they are among others**, under the
numbers of that name. -/
theorem abridged {log : List (Dealing α)} (cs : List (Call α)) (hp : Numbered p)
    (hp' : Numbered p') (hlog : (cs.foldl serve p).2 = log)
    (h : AlikeOn topic (localId topic log) (localSub topic log) p p')
    (honly : dealtOn topic p'.2 = p'.2) :
    let kept := (minutesFrom p cs).filter (·.concerns topic)
    let calls := kept.map fun m => m.call.rename (localId topic log) (localSub topic log)
    (minutesFrom p' calls).map (·.reply) =
        kept.map (·.reply.rename (localId topic log) (localSub topic log)) ∧
      issued (calls.foldl serve p').2 = (issuedOn topic log).map (localId topic log) := by
  induction cs generalizing p p' with
  | nil =>
    obtain rfl : p.2 = log := hlog
    refine ⟨rfl, ?_⟩
    rw [← h.issued, issuedOn, honly, issued_eq]
    rfl
  | cons c cs ih =>
    have hsuffix := suffix_foldl_serve cs (serve p c)
    rw [List.foldl_cons] at hlog
    rw [hlog] at hsuffix
    rw [minutesFrom]
    by_cases hc : ∀ u ∈ c.topic? p.2, u = topic
    · rw [List.filter_cons_of_pos (Minute.concerns_iff.mpr hc)]
      obtain ⟨⟨hreply, hnext⟩, honly'⟩ := h.own_local hp hp' honly hc hsuffix
      obtain ⟨hreplies, hissued⟩ := ih (hp.serve c) (hp'.serve _) hlog hnext honly'
      exact ⟨congrArg₂ List.cons hreply hreplies, hissued⟩
    · rw [List.filter_cons_of_neg (fun hm => hc (Minute.concerns_iff.mp hm))]
      push Not at hc
      obtain ⟨u, hu, hne⟩ := hc
      exact ih (hp.serve c) hp' hlog (h.other_left hp hu hne) honly

/-! ### Two orders -/

/-- **Two queues alike under every name**, that number what comes next alike. -/
structure Twins (f g : Equiv.Perm Nat) (p p' : Exchange α × List (Dealing α)) : Prop where
  left : Numbered p
  right : Numbered p'
  alike : ∀ topic, AlikeOn topic f g p p'
  nextId : p'.1.queue.nextId = p.1.queue.nextId
  length : p'.1.subscriptions.length = p.1.subscriptions.length
  ids : ∀ d, p.1.queue.nextId ≤ d → f d = d
  subs : ∀ n, p.1.subscriptions.length ≤ n → g n = n

namespace Twins

variable {f g : Equiv.Perm Nat}

/-- A renumbered call is about the name that the call is about. -/
theorem topic?_eq (h : Twins f g p p') (c : Call α) :
    (c.rename f g).topic? p'.2 = c.topic? p.2 := by
  refine Option.ext fun u => ?_
  rw [h.right.topic?_eq_some_iff, h.left.topic?_eq_some_iff]
  cases c with
  | next n =>
    simp only [Call.rename, (h.alike u).subscribed, List.mem_map_of_injective g.injective]
  | ack d | nack d requeue =>
    simp only [Call.rename, (h.alike u).issued, List.mem_map_of_injective f.injective]
  | publish | publishSentinel | subscribe | stats | remove => rfl

theorem publishes_rename (f g : Nat → Nat) (c : Call α) :
    (c.rename f g).publishes = c.publishes ∧ (c.rename f g).subscribes = c.subscribes := by
  cases c <;> exact ⟨rfl, rfl⟩

/-- A call on a name leaves them alike under it, and is answered alike. -/
theorem own (h : Twins f g p p') (topic : String) (hc : ∀ u ∈ c.topic? p.2, u = topic) :
    (p'.1.call (c.rename f g)).1 = (p.1.call c).1.rename f g ∧
      AlikeOn topic f g (serve p c) (serve p' (c.rename f g)) :=
  (h.alike topic).own h.left h.right hc (h.topic?_eq c ▸ hc) (fun _ _ _ hx => f.injective hx)
    (fun _ _ _ hx => g.injective hx) (fun _ => (h.ids _ (Nat.le_refl _)).trans h.nextId.symm)
    (fun _ => ⟨(h.subs _ (Nat.le_refl _)).trans h.length.symm, fun _ hx => g.injective hx⟩)

/-- **Twins answer alike and stay twins.** -/
theorem step (h : Twins f g p p') (c : Call α) :
    (p'.1.call (c.rename f g)).1 = (p.1.call c).1.rename f g ∧
      Twins f g (serve p c) (serve p' (c.rename f g)) := by
  obtain ⟨hpub, hsub⟩ := publishes_rename f g c
  obtain ⟨hid, hlength⟩ := next_serve p c
  obtain ⟨hid', hlength'⟩ := next_serve p' (c.rename f g)
  refine ⟨?_, h.left.serve c, h.right.serve _, fun topic => ?_, ?_, ?_, fun d hd => ?_,
    fun n hn => ?_⟩
  · cases hc : c.topic? p.2 with
    | none => exact (h.own "" (by simp [hc])).1
    | some u => exact (h.own u (by simp [hc])).1
  · by_cases hc : ∀ u ∈ c.topic? p.2, u = topic
    · exact (h.own topic hc).2
    · push Not at hc
      obtain ⟨u, hu, hne⟩ := hc
      exact ((h.alike topic).other_left h.left hu hne).other_right h.right
        ((h.topic?_eq c).trans hu) hne
  · rw [hid, hid', hpub, h.nextId]
  · rw [hlength, hlength', hsub, h.length]
  · exact h.ids d (by omega)
  · exact h.subs n (by omega)

/-- **Whatever is asked of twins** is answered alike. -/
theorem replies (h : Twins f g p p') (cs : List (Call α)) :
    (minutesFrom p' (cs.map (·.rename f g))).map (·.reply) =
      (minutesFrom p cs).map (·.reply.rename f g) := by
  induction cs generalizing p p' with
  | nil => rfl
  | cons c cs ih =>
    obtain ⟨hreply, hnext⟩ := h.step c
    exact congrArg₂ List.cons hreply (ih hnext)

end Twins

/-! ### Two calls on two names -/

/-- **A queue is like itself**, if all numbers that were given out stay. -/
theorem Numbered.alikeOn_self {f g : Equiv.Perm Nat} (h : Numbered p) (topic : String)
    (hf : ∀ d < p.1.queue.nextId, f d = d) (hg : ∀ n < p.1.subscriptions.length, g n = n) :
    AlikeOn topic f g p p := by
  refine ⟨⟨rfl, rfl, fun k => ?_, fun n => ?_⟩, ?_, ?_⟩
  · exact (Topic.rename_eq_self fun d hd => hf d (h.lt_nextId (h.mem_issuedOn_of_mem_ids hd))).symm
  · rcases Nat.lt_or_ge n p.1.subscriptions.length with hn | hn
    · rw [hg n hn]
    · -- What keeps the numbers that were given out takes no other to one of them.
      have hge : p.1.subscriptions.length ≤ g n := by
        by_contra hlt
        have := g.injective (hg (g n) (Nat.not_le.mp hlt))
        omega
      simp [stall, seat?, List.getElem?_eq_none hn, List.getElem?_eq_none hge]
  · exact ((List.map_congr_left fun d hd => hf d (h.lt_nextId hd)).trans (List.map_id' _)).symm
  · exact ((List.map_congr_left fun n hn => hg n (h.lt_length hn)).trans (List.map_id' _)).symm

/-- The change of places of the next two numbers, if two are given out. -/
def change (next : Nat) (first second : Bool) : Equiv.Perm Nat :=
  if first && second then Equiv.swap next (next + 1) else Equiv.refl Nat

theorem change_of_lt {next d : Nat} (first second : Bool) (h : d < next) :
    change next first second d = d := by
  unfold change
  split
  · exact Equiv.swap_apply_of_ne_of_ne (by omega) (by omega)
  · rfl

theorem change_of_le {next d : Nat} {first second : Bool}
    (h : next + first.toNat + second.toNat ≤ d) : change next first second d = d := by
  unfold change
  split
  · next hboth =>
    obtain ⟨rfl, rfl⟩ := Bool.and_eq_true_iff.mp hboth
    rw [Bool.toNat_true] at h
    exact Equiv.swap_apply_of_ne_of_ne (by omega) (by omega)
  · rfl

/-- What is numbered first is numbered behind the second then, -/
theorem change_first (next : Nat) (second : Bool) :
    change next true second next = next + second.toNat := by
  cases second <;> simp [change]

/-- and the second as if there were no first. -/
theorem change_second (next : Nat) (first : Bool) :
    change next first true (next + first.toNat) = next := by
  cases first <;> simp [change]

/-- A call that keeps its numbers, on a name under which two queues are alike. -/
theorem AlikeOn.own_kept {f g : Equiv.Perm Nat} (h : AlikeOn u f g p p') (hp : Numbered p)
    (hp' : Numbered p') (hc : c.topic? p.2 = some u) (hc' : c.topic? p'.2 = some u)
    (hself : c.rename f g = c)
    (hid : c.publishes = true → f p.1.queue.nextId = p'.1.queue.nextId)
    (hn : c.subscribes = true → g p.1.subscriptions.length = p'.1.subscriptions.length) :
    (p'.1.call c).1 = (p.1.call c).1.rename f g ∧ AlikeOn u f g (serve p c) (serve p' c) := by
  have hown := h.own (c := c) hp hp' (by simp [hc]) (by simp [hself, hc'])
    (fun _ _ _ hx => f.injective hx) (fun _ _ _ hx => g.injective hx) hid
    fun hsub => ⟨hn hsub, fun _ hx => g.injective hx⟩
  rwa [hself] at hown

/-- **Two calls on two names lead to twins in either order**, where the two numbers that are
given out, if there are two, change places. -/
theorem exists_twins {c' : Call α} {u' : String} (hp : Numbered p)
    (hc : c.topic? p.2 = some u) (hc' : c'.topic? p.2 = some u') (hne : u ≠ u') :
    ∃ f g : Equiv.Perm Nat, (∀ d < p.1.queue.nextId, f d = d) ∧
      (∀ n < p.1.subscriptions.length, g n = n) ∧
      ((serve p c').1.call c).1 = (p.1.call c).1.rename f g ∧
      (p.1.call c').1 = ((serve p c).1.call c').1.rename f g ∧
      Twins f g (serve (serve p c) c') (serve (serve p c') c) := by
  obtain ⟨hid, hlength⟩ := next_serve p c
  obtain ⟨hid', hlength'⟩ := next_serve p c'
  obtain ⟨hids, hlengths⟩ := next_serve (serve p c) c'
  obtain ⟨hids', hlengths'⟩ := next_serve (serve p c') c
  rw [hid] at hids
  rw [hid'] at hids'
  rw [hlength] at hlengths
  rw [hlength'] at hlengths'
  set f := change p.1.queue.nextId c.publishes c'.publishes with hf
  set g := change p.1.subscriptions.length c.subscribes c'.subscribes with hg
  have hold : ∀ d < p.1.queue.nextId, f d = d := fun d hd => change_of_lt _ _ hd
  have hsubs : ∀ n < p.1.subscriptions.length, g n = n := fun n hn => change_of_lt _ _ hn
  have hself (topic : String) : AlikeOn topic f g p p := hp.alikeOn_self topic hold hsubs
  have hcq : c'.topic? (serve p c).2 = some u' := hp.topic?_serve hc' c
  have hcq' : c.topic? (serve p c').2 = some u := hp.topic?_serve hc c'
  -- Under the name of the one call, the other changes nothing.
  have hown := ((hself u).other_right hp hc' hne.symm).own_kept hp (hp.serve c') hc hcq'
    (hp.rename_eq_self hc hold hsubs)
    (fun hpub => by rw [hf, hpub, change_first, hid'])
    (fun hsub => by rw [hg, hsub, change_first, hlength'])
  have hown' := ((hself u').other_left hp hc hne).own_kept (hp.serve c) hp hcq hc'
    (hp.rename_eq_self hc' hold hsubs)
    (fun hpub => by rw [hf, hpub, hid, change_second])
    (fun hsub => by rw [hg, hsub, hlength, change_second])
  refine ⟨f, g, hold, hsubs, hown.1, hown'.1, (hp.serve c).serve c', (hp.serve c').serve c,
    fun topic => ?_, ?_, ?_, fun d hd => ?_, fun n hn => ?_⟩
  · rcases eq_or_ne u topic with rfl | hu
    · exact hown.2.other_left (hp.serve c) hcq hne.symm
    rcases eq_or_ne u' topic with rfl | hu'
    · exact hown'.2.other_right (hp.serve c') hcq' hne
    · exact ((((hself topic).other_left hp hc hu).other_left (hp.serve c) hcq hu').other_right hp
        hc' hu').other_right (hp.serve c') hcq' hu
  · omega
  · omega
  · exact change_of_le (by omega)
  · exact change_of_le (by omega)

/-! ### Independence -/

theorem minutesFrom_append (p : Exchange α × List (Dealing α)) (cs cs' : List (Call α)) :
    minutesFrom p (cs ++ cs') = minutesFrom p cs ++ minutesFrom (cs.foldl serve p) cs' := by
  induction cs generalizing p with
  | nil => rfl
  | cons c cs ih => rw [List.cons_append, minutesFrom, ih, minutesFrom]; rfl

theorem replies_append (cs cs' : List (Call α)) :
    replies (cs ++ cs') = replies cs ++ (minutesFrom (run cs) cs').map (·.reply) := by
  rw [replies, minutes, minutesFrom_append, List.map_append]
  rfl

/-- New queues are alike under any name and any numbers. -/
theorem AlikeOn.empty (topic : String) (f g : Nat → Nat) :
    AlikeOn topic f g ((Exchange.empty, []) : Exchange α × List (Dealing α)) (Exchange.empty, []) :=
  ⟨⟨rfl, rfl, fun _ => rfl, fun _ => rfl⟩, rfl, rfl⟩

/-- **The numbers of a name follow the ids**: the map keeps their order. -/
theorem strictMonoOn_localId (hp : Numbered p) (topic : String) :
    StrictMonoOn (localId topic p.2) {d | d ∈ issuedOn topic p.2} := by
  have hsorted : (issuedOn topic p.2).Pairwise (· < ·) := by
    have hsub : (issuedOn topic p.2).Sublist (issued p.2) := by
      rw [issued_eq]
      exact given_sublist (dealtOn_sublist topic p.2)
    rw [hp.told.issued] at hsub
    exact (List.pairwise_lt_range' 1).sublist hsub
  intro d hd d' hd' hlt
  refine Nat.succ_lt_succ (Nat.lt_of_not_le fun hle => ?_)
  have hget {i : Nat} (hi : i ∈ issuedOn topic p.2) :=
    List.getElem_idxOf (List.idxOf_lt_length_of_mem hi)
  rcases hle.eq_or_lt with heq | hless
  · exact absurd ((List.idxOf_inj hd').mp heq) hlt.ne'
  · have := List.pairwise_iff_getElem.mp hsorted _ _ (List.idxOf_lt_length_of_mem hd')
      (List.idxOf_lt_length_of_mem hd) hless
    rw [hget hd, hget hd'] at this
    omega

/-- **Topics are independent.** Of all that is asked of a new queue, let only the calls stay that
are not about another name than `topic`, with deliveries and subscriptions under their numbers
among those of the name: they are answered as before, under these numbers. The numbers follow
the order of the ids, and are the ids that are given out then.

Hence two calls on two names can be made in either order. What they are answered, and what is
answered to whatever is asked behind them, is the same but for the two numbers they are given:
none that was given out before changes. -/
theorem topics_independent (α : Type) :
    (∀ (topic : String) (calls : List (Call α)),
      let log := (run calls).2
      let f := localId topic log
      let g := localSub topic log
      let kept := (minutes calls).filter (·.concerns topic)
      let abridged := kept.map fun m => m.call.rename f g
      replies abridged = kept.map (·.reply.rename f g) ∧
      StrictMonoOn f {d | d ∈ issuedOn topic log} ∧
      issued (run abridged).2 = (issuedOn topic log).map f) ∧
    (∀ (calls : List (Call α)) (c c' : Call α) (u u' : String),
      c.topic? (run calls).2 = some u → c'.topic? (run calls).2 = some u' → u ≠ u' →
      ∃ f g : Equiv.Perm Nat, (∀ d ∈ issued (run calls).2, f d = d) ∧
        (∀ n < (run calls).1.subscriptions.length, g n = n) ∧
        ∀ rest, ∃ r r' rs,
          replies (calls ++ c :: c' :: rest) = replies calls ++ r :: r' :: rs ∧
          replies (calls ++ c' :: c :: rest.map (·.rename f g)) =
            replies calls ++ r'.rename f g :: r.rename f g :: rs.map (·.rename f g)) := by
  refine ⟨fun topic calls => ?_, fun calls c c' u u' hc hc' hne => ?_⟩
  · obtain ⟨hreplies, hissued⟩ := abridged calls .empty .empty rfl
      (AlikeOn.empty topic (localId topic (run calls).2) (localSub topic (run calls).2)) rfl
    exact ⟨hreplies, strictMonoOn_localId (.run calls) topic, hissued⟩
  · obtain ⟨f, g, hf, hg, hr, hr', htwins⟩ := exists_twins (.run calls) hc hc' hne
    refine ⟨f, g, fun d hd => hf d ?_, hg, fun rest => ⟨((run calls).1.call c).1,
      ((serve (run calls) c).1.call c').1,
      (minutesFrom (serve (serve (run calls) c) c') rest).map (·.reply), ?_, ?_⟩⟩
    · have := (Numbered.run calls).nextId_eq
      rw [(Numbered.run calls).told.issued, List.mem_range'_1] at hd
      omega
    · rw [replies_append]
      rfl
    · rw [replies_append, ← hr, ← hr', List.map_map]
      exact congrArg (replies calls ++ _ :: _ :: ·) (htwins.replies rest)

/-- With a message of each of two topics published, and that of the second one taken. -/
theorem topics_independent_pair :
    let calls : List (Call Nat) := [.publish "a" 1, .publish "b" 2, .subscribe "b", .next 0]
    let log := (run calls).2
    ((minutes calls).filter (·.concerns "b")).map (fun m =>
      m.call.rename (localId "b" log) (localSub "b" log)) =
        [.publish "b" 2, .subscribe "b", .next 0] ∧
    localId "b" log 2 = 1 ∧
    (Call.ack 2 : Call Nat).topic? log = some "b" ∧
    (Call.publish "a" 3).topic? log = some "a" ∧ "b" ≠ "a" ∧
    ∃ f g : Equiv.Perm Nat, (∀ d ∈ issued log, f d = d) ∧
      (∀ n < (run calls).1.subscriptions.length, g n = n) ∧ ∀ rest, ∃ r r' rs,
        replies (calls ++ .ack 2 :: .publish "a" 3 :: rest) = replies calls ++ r :: r' :: rs ∧
        replies (calls ++ .publish "a" 3 :: .ack 2 :: rest.map (·.rename f g)) =
          replies calls ++ r'.rename f g :: r.rename f g :: rs.map (·.rename f g) := by
  intro calls log
  have htopic : (Call.ack 2 : Call Nat).topic? log = some "b" := by decide
  have hne : "b" ≠ "a" := by decide
  exact ⟨by decide, by decide, htopic, rfl, hne,
    (topics_independent Nat).2 calls (.ack 2) (.publish "a" 3) "b" "a" htopic rfl hne⟩

end Exchange

end Queue

end Roundtable

import Mathlib.Data.List.Induction
import Roundtable.Proofs.Lists
import Roundtable.Proofs.EventBus.Stream

/-!
# Minutes of a bus

What is asked of a bus and what it answers is written down (`BusDesk.run`), and the minutes
tell of each receiver since when it listens, which events it heard of, which it was given and
how many it was told it missed.

`BusDesk.follows` is the one theorem here: **a receiver of a run is given the events of that
run that were published while it listened, in order, each once and nothing else, up to as
many as it was told it missed**, and when it is left waiting it has been given the last of
them. It rests on what a request does to each receiver (`BusDesk.Keeps.answer`), with the
stream behind the bus as the invariant.

The invariant does not say what is kept of what a receiver reads, only how books are kept of
it (`EventBus.Books`): those of a run are an `EventBus.Account`, and those of a receiver of all
events, as long as it takes them one at a time, an exact `EventBus.Tally`.
-/

namespace Roundtable

namespace EventBus

/-- The receiver that a request reads for. -/
def Request.reader? : Request → Option Nat
  | .receive rx | .tryReceive rx | .drain rx => some rx
  | _ => none

/-- The events in an answer. -/
def Answer.told : Answer → List Event
  | .event e => [e]
  | .events es => es
  | _ => []

/-- How many events an answer says were missed. -/
def Answer.lost : Answer → Nat
  | .refused (.lagged n) => n
  | _ => 0

/-- What became of the events that a receiver of `run` has read: it was given those of its
run, in order, but for as many as it missed at most. -/
structure Account (run : RunId) (read given : List Event) (missed : Nat) : Prop where
  sublist : given.Sublist (read.filter (·.belongsTo run))
  length_le : (read.filter (·.belongsTo run)).length ≤ given.length + missed

namespace Account

variable {run : RunId} {read given l : List Event} {missed : Nat} {e : Event}

theorem nil : Account run [] [] 0 := ⟨.slnil, Nat.le_refl _⟩

theorem lose (h : Account run read given missed) (l : List Event) :
    Account run (read ++ l) given (missed + l.length) := by
  constructor
  · rw [List.filter_append]
    exact h.sublist.trans (List.sublist_append_left _ _)
  · have := h.length_le
    have := List.length_filter_le (·.belongsTo run) l
    rw [List.filter_append, List.length_append]
    omega

theorem pass (h : Account run read given missed) (hl : ∀ x ∈ l, x.belongsTo run = false) :
    Account run (read ++ l) given missed := by
  have hnone : l.filter (·.belongsTo run) = [] := by simpa using hl
  constructor
  · simpa [hnone] using h.sublist
  · simpa [hnone] using h.length_le

theorem give (h : Account run read given missed) (he : e.belongsTo run = true) :
    Account run (read ++ [e]) (given ++ [e]) missed := by
  constructor
  · simpa [he] using h.sublist.append_right [e]
  · have hone : [e].filter (·.belongsTo run) = [e] := by simpa using he
    have := h.length_le
    simp only [List.filter_append, hone, List.length_append, List.length_singleton]
    omega

/-- Who missed nothing was given every event of its run. -/
theorem eq_filter (h : Account run read given 0) : given = read.filter (·.belongsTo run) :=
  h.sublist.eq_of_length_le h.length_le

end Account

/-- What became of the events that a receiver of all events has read: it was given them, in
order, but for those it missed. -/
structure Tally (read given : List Event) (missed : Nat) : Prop where
  sublist : given.Sublist read
  length_eq : given.length + missed = read.length

/-- **Books of what a receiver for `run` reads**: what it loses is missed, what it does not want
is passed over, and the rest is given to it. -/
structure Books (run : Option RunId) (P : List Event → List Event → Nat → Prop) : Prop where
  nil : P [] [] 0
  lose : ∀ {read given missed}, P read given missed → ∀ l : List Event,
    P (read ++ l) given (missed + l.length)
  pass : ∀ {read given missed l}, P read given missed → (∀ x ∈ l, x.wantedBy run = false) →
    P (read ++ l) given missed
  give : ∀ {read given missed e}, P read given missed → e.wantedBy run = true →
    P (read ++ [e]) (given ++ [e]) missed

theorem Account.books (run : RunId) : Books (some run) (Account run) :=
  ⟨.nil, .lose, .pass, .give⟩

theorem Tally.books : Books none Tally where
  nil := ⟨.slnil, rfl⟩
  lose h l := by
    refine ⟨h.sublist.trans (List.sublist_append_left _ _), ?_⟩
    rw [List.length_append, ← h.length_eq, Nat.add_assoc]
  pass {read given missed l} h hl := by
    -- A receiver of all events wants each one, so that nothing is passed over.
    obtain rfl : l = [] := List.eq_nil_iff_forall_not_mem.mpr fun x hx => absurd (hl x hx) (by
      simp [Event.wantedBy])
    simpa using h
  give h _ := by
    refine ⟨h.sublist.append_right _, ?_⟩
    rw [List.length_append, List.length_append, ← h.length_eq, Nat.add_right_comm]

end EventBus

namespace BusDesk

open EventBus

/-! ### Minutes -/

/-- What was asked and answered, the latest first. -/
abbrev Minutes := List (Request × Answer)

/-- Answers a request and writes both down. -/
def serve (p : BusDesk × Minutes) (q : Request) : BusDesk × Minutes :=
  ((p.1.answer q).2, (q, (p.1.answer q).1) :: p.2)

/-- **The bus after some requests, and the minutes.** -/
def run (capacity : Nat) (qs : List Request) : BusDesk × Minutes :=
  qs.foldl serve (new capacity, [])

theorem run_concat (capacity : Nat) (qs : List Request) (q : Request) :
    run capacity (qs ++ [q]) = serve (run capacity qs) q := by
  simp [run]

/-- Receiver `n` listens. -/
def listens (n : Nat) : Minutes → Bool
  | [] => false
  | (.subscribe _, .number k) :: m => if k = n then true else listens n m
  | (.unsubscribe k, _) :: m => if k = n then false else listens n m
  | _ :: m => listens n m

/-- The events published while receiver `n` listened. -/
def heard (n : Nat) : Minutes → List Event
  | [] => []
  | (.publish e, .done) :: m => if listens n m then heard n m ++ [e] else heard n m
  | _ :: m => heard n m

/-- The events receiver `n` was given. -/
def given (n : Nat) : Minutes → List Event
  | [] => []
  | (q, a) :: m => if q.reader? = some n then given n m ++ a.told else given n m

/-- How many events receiver `n` was told it missed. -/
def missed (n : Nat) : Minutes → Nat
  | [] => 0
  | (q, a) :: m => if q.reader? = some n then missed n m + a.lost else missed n m

section Entries

variable {q : Request} {a : Answer} {m : Minutes} {n k : Nat}

theorem listens_of_reader? (h : q.reader? = some k) (n : Nat) (a : Answer) :
    listens n ((q, a) :: m) = listens n m := by
  cases q <;> first | rfl | simp [Request.reader?] at h

theorem heard_of_reader? (h : q.reader? = some k) (n : Nat) (a : Answer) :
    heard n ((q, a) :: m) = heard n m := by
  cases q <;> first | rfl | simp [Request.reader?] at h

theorem given_of_ne (h : q.reader? ≠ some n) : given n ((q, a) :: m) = given n m := if_neg h

theorem missed_of_ne (h : q.reader? ≠ some n) : missed n ((q, a) :: m) = missed n m := if_neg h

theorem given_of_eq (h : q.reader? = some n) :
    given n ((q, a) :: m) = given n m ++ a.told := if_pos h

theorem missed_of_eq (h : q.reader? = some n) :
    missed n ((q, a) :: m) = missed n m + a.lost := if_pos h

end Entries

/-! ### What the minutes say of a bus -/

variable {d d' : BusDesk} {m : Minutes} {stream : List Event} {q : Request} {a : Answer}
  {n : Nat} {rx : Receiver}

/-- Receiver `n` takes its events one at a time. -/
def Undrained (m : Minutes) (n : Nat) : Prop := ∀ a, (.drain n, a) ∉ m

theorem Undrained.of_cons {x : Request × Answer} (h : Undrained (x :: m) n) : Undrained m n :=
  fun a ha => h a (List.mem_cons_of_mem x ha)

/-- What the minutes say of a receiver. -/
structure Attends (m : Minutes) (stream : List Event) (n : Nat) (rx : Receiver) : Prop where
  listens_eq : listens n m = rx.open_
  reads : (rx.run = none → Undrained m n) → ∀ P, Books rx.run P → ∃ read ahead,
    heard n m = read ++ ahead ∧ P read (given n m) (missed n m) ∧
    (rx.open_ = true → ahead = stream.drop rx.position)

/-- What the minutes say of a receiver of a run. -/
theorem Attends.account (h : Attends m stream n rx) (run : RunId) (hrun : rx.run = some run) :
    ∃ read ahead, heard n m = read ++ ahead ∧ Account run read (given n m) (missed n m) ∧
      (rx.open_ = true → ahead = stream.drop rx.position) :=
  h.reads (fun hnone => absurd (hnone.symm.trans hrun) (by simp)) _ (hrun ▸ Account.books run)

/-- What the minutes say of a receiver of all events that takes them one at a time. -/
theorem Attends.tally (h : Attends m stream n rx) (hrun : rx.run = none) (hn : Undrained m n) :
    ∃ read ahead, heard n m = read ++ ahead ∧ Tally read (given n m) (missed n m) ∧
      (rx.open_ = true → ahead = stream.drop rx.position) :=
  h.reads (fun _ => hn) _ (hrun ▸ Tally.books)

/-- The minutes say nothing of a receiver. -/
structure Silent (m : Minutes) (n : Nat) : Prop where
  listens_eq : listens n m = false
  heard_eq : heard n m = []
  given_eq : given n m = []
  missed_eq : missed n m = 0

/-- An entry that tells nothing new of receiver `n`. -/
structure Irrelevant (q : Request) (a : Answer) (m : Minutes) (n : Nat) : Prop where
  listens_eq : listens n ((q, a) :: m) = listens n m
  heard_eq : heard n ((q, a) :: m) = heard n m
  given_eq : given n ((q, a) :: m) = given n m
  missed_eq : missed n ((q, a) :: m) = missed n m

theorem Attends.entry (h : Attends m stream n rx) (hq : Irrelevant q a m n) :
    Attends ((q, a) :: m) stream n rx := by
  refine ⟨hq.listens_eq.trans h.listens_eq, fun hn P hP => ?_⟩
  rw [hq.heard_eq, hq.given_eq, hq.missed_eq]
  exact h.reads (fun hrun => (hn hrun).of_cons) P hP

theorem Silent.entry (h : Silent m n) (hq : Irrelevant q a m n) : Silent ((q, a) :: m) n :=
  ⟨hq.listens_eq.trans h.listens_eq, hq.heard_eq.trans h.heard_eq, hq.given_eq.trans h.given_eq,
    hq.missed_eq.trans h.missed_eq⟩

theorem irrelevant_of_reader? {k : Nat} (h : q.reader? = some k) (hk : k ≠ n) :
    Irrelevant q a m n where
  listens_eq := listens_of_reader? h n a
  heard_eq := heard_of_reader? h n a
  given_eq := given_of_ne (by rw [h]; simpa using hk)
  missed_eq := missed_of_ne (by rw [h]; simpa using hk)

/-- A request that reads nothing tells nothing new. -/
theorem irrelevant_of_nothing {k : Nat} (h : q.reader? = some k) (htold : a.told = [])
    (hlost : a.lost = 0) (n : Nat) : Irrelevant q a m n := by
  by_cases hk : k = n
  · subst hk
    refine ⟨listens_of_reader? h k a, heard_of_reader? h k a, ?_, ?_⟩
    · rw [given_of_eq h, htold, List.append_nil]
    · rw [missed_of_eq h, hlost, Nat.add_zero]
  · exact irrelevant_of_reader? h hk

/-- The answer says that nothing is there. -/
def IsDry (a : Answer) : Prop := a = .pending ∨ a = .refused .closed

/-- **The minutes of a bus with this stream.** -/
structure Keeps (d : BusDesk) (m : Minutes) (stream : List Event) : Prop where
  carries : d.bus.Carries stream
  attends : ∀ n rx, d.bus.receivers[n]? = some rx → Attends m stream n rx
  silent : ∀ n, d.bus.receivers[n]? = none → Silent m n
  subscribed : ∀ n run, (.subscribe run, .number n) ∈ m →
    ∃ rx, d.bus.receivers[n]? = some rx ∧ rx.run = run
  dry : ∀ n a, m.head? = some (.receive n, a) → IsDry a →
    ∃ rx, d.bus.receivers[n]? = some rx ∧ rx.open_ = true ∧ rx.position = stream.length

theorem keeps_new (capacity : Nat) : Keeps (new capacity) [] [] where
  carries := ⟨rfl, by simp [new, EventBus.new], by simp [new, EventBus.new]⟩
  attends := by simp [new, EventBus.new]
  silent := fun _ _ => ⟨rfl, rfl, rfl, rfl⟩
  subscribed := by simp
  dry := by simp

/-! ### What a request does -/

namespace Keeps

/-- Requests that concern no receiver. -/
theorem still (h : Keeps d m stream) (hc : d'.bus.Carries stream)
    (hr : d'.bus.receivers = d.bus.receivers) (hq : ∀ n, Irrelevant q a m n)
    (hsub : ∀ run n, (q, a) ≠ (.subscribe run, .number n)) (hdry : ¬ IsDry a) :
    Keeps d' ((q, a) :: m) stream where
  carries := hc
  attends := fun n rx hrx => (h.attends n rx (hr ▸ hrx)).entry (hq n)
  silent := fun n hn => (h.silent n (hr ▸ hn)).entry (hq n)
  subscribed := fun n run hn => by
    rcases List.mem_cons.mp hn with heq | hn
    · exact absurd heq.symm (hsub run n)
    · exact hr ▸ h.subscribed n run hn
  dry := fun n a' hhead ha' => by
    obtain ⟨-, rfl⟩ : q = .receive n ∧ a = a' := by simpa using hhead
    exact absurd ha' hdry

/-- Requests that change one receiver, but not whose events it wants. -/
theorem modify (h : Keeps d m stream) {f : Receiver → Receiver} (hrun : ∀ rx, (f rx).run = rx.run)
    (hle : ∀ rx, rx.position ≤ stream.length → (f rx).position ≤ stream.length)
    (hn : ∀ rx, d.bus.receivers[n]? = some rx → Attends ((q, a) :: m) stream n (f rx))
    (hnone : d.bus.receivers[n]? = none → Silent ((q, a) :: m) n)
    (hne : ∀ k, n ≠ k → Irrelevant q a m k)
    (hsub : ∀ run k, (q, a) ≠ (.subscribe run, .number k))
    (hdry : ∀ k, q = .receive k → IsDry a → k = n ∧ ∃ rx, d.bus.receivers[n]? = some rx ∧
      (f rx).open_ = true ∧ (f rx).position = stream.length) :
    Keeps { d with bus := { d.bus with receivers := d.bus.receivers.modify n f } } ((q, a) :: m)
      stream := by
  constructor
  case carries =>
    refine ⟨h.carries.sent, h.carries.kept, fun hr => ?_⟩
    obtain ⟨r, hr', rfl⟩ := getElem?_modify_eq_some_iff.mp hr
    have hposition := h.carries.position_le hr'
    split
    · exact hle r hposition
    · exact hposition
  case attends =>
    intro k r hr
    obtain ⟨r, hr', rfl⟩ := getElem?_modify_eq_some_iff.mp hr
    split
    · next hk => exact hk ▸ hn r (hk ▸ hr')
    · next hk => exact (h.attends k r hr').entry (hne k hk)
  case silent =>
    intro k hk
    have hk' : d.bus.receivers[k]? = none := by simpa [List.getElem?_modify] using hk
    by_cases hkn : n = k
    · exact hkn ▸ hnone (hkn ▸ hk')
    · exact (h.silent k hk').entry (hne k hkn)
  case subscribed =>
    intro k run hk
    rcases List.mem_cons.mp hk with heq | hk
    · exact absurd heq.symm (hsub run k)
    · obtain ⟨r, hr, hr'⟩ := h.subscribed k run hk
      refine ⟨_, getElem?_modify_eq_some_iff.mpr ⟨r, hr, rfl⟩, ?_⟩
      split
      · exact (hrun r).trans hr'
      · exact hr'
  case dry =>
    intro k a' hhead ha'
    obtain ⟨rfl, rfl⟩ : q = .receive k ∧ a = a' := by simpa using hhead
    obtain ⟨rfl, rx, hrx, hopen, hposition⟩ := hdry k rfl ha'
    exact ⟨_, getElem?_modify_eq_some_iff.mpr ⟨rx, hrx, if_pos rfl⟩, hopen, hposition⟩

/-- Requests that move one receiver. -/
theorem move (h : Keeps d m stream) (hrx : d.bus.receivers[n]? = some rx) {position : Nat}
    (hle : position ≤ stream.length) (hq : q.reader? = some n)
    (hn : Attends ((q, a) :: m) stream n { rx with position })
    (hdry : ∀ k, q = .receive k → IsDry a → rx.open_ = true ∧ position = stream.length) :
    Keeps { d with bus := d.bus.move n position } ((q, a) :: m) stream := by
  refine h.modify (fun _ => rfl) (fun _ _ => hle) ?_ (fun hnone => ?_)
    (fun k hk => irrelevant_of_reader? hq hk) ?_ ?_
  · intro r hr
    obtain rfl := Option.some.inj (hrx.symm.trans hr)
    exact hn
  · simp [hrx] at hnone
  · rintro run k heq
    obtain ⟨rfl, -⟩ := Prod.mk.inj heq
    simp [Request.reader?] at hq
  · rintro k rfl ha
    exact ⟨by simpa [Request.reader?] using hq, rx, hrx, hdry k rfl ha⟩

/-- Publishing while nobody listens. -/
theorem unheard (h : Keeps d m stream) (hnone : d.bus.subscriberCount = 0) (e : Event) :
    Keeps d ((.publish e, .done) :: m) stream := by
  refine h.still h.carries rfl (fun n => ⟨rfl, ?_, rfl, rfl⟩) (by simp) (by simp [IsDry])
  have hlistens : listens n m = false := by
    cases hr : d.bus.receivers[n]? with
    | none => exact (h.silent n hr).listens_eq
    | some rx =>
      have hclosed : ∀ r ∈ d.bus.receivers, r.open_ = false := by
        simpa [subscriberCount] using hnone
      exact (h.attends n rx hr).listens_eq.trans (hclosed rx (List.mem_of_getElem? hr))
  rw [heard, hlistens, if_neg Bool.false_ne_true]

/-- Publishing while somebody listens: the stream grows, and so does what everybody who
listens has in front of them. -/
theorem publish (h : Keeps d m stream) (hsome : d.bus.subscriberCount ≠ 0) (e : Event) :
    Keeps { d with bus := d.bus.publish e } ((.publish e, .done) :: m) (stream ++ [e]) := by
  have hbus : (d.bus.publish e).receivers = d.bus.receivers := by
    rw [EventBus.publish, if_neg hsome]
  constructor
  case carries => exact h.carries.publish hsome e
  case attends =>
    intro n rx hrx
    rw [hbus] at hrx
    have hrx' := h.attends n rx hrx
    refine ⟨hrx'.listens_eq, fun hdrain P hP => ?_⟩
    obtain ⟨read, ahead, hheard, hread, hahead⟩ :=
      hrx'.reads (fun hrun => (hdrain hrun).of_cons) P hP
    cases hopen : rx.open_ with
    | false =>
      refine ⟨read, ahead, ?_, hread, fun h => absurd h Bool.false_ne_true⟩
      rw [heard, hrx'.listens_eq, hopen, if_neg Bool.false_ne_true, hheard]
    | true =>
      refine ⟨read, ahead ++ [e], ?_, hread, fun _ => ?_⟩
      · rw [heard, hrx'.listens_eq, hopen, if_pos rfl, hheard, List.append_assoc]
      · rw [hahead hopen, List.drop_append_of_le_length (h.carries.position_le hrx)]
  case silent =>
    intro n hn
    have hsilent := h.silent n (hbus ▸ hn)
    refine hsilent.entry ⟨rfl, ?_, rfl, rfl⟩
    rw [heard, hsilent.listens_eq, if_neg Bool.false_ne_true]
  case subscribed =>
    intro n run hn
    exact hbus ▸ h.subscribed n run (by simpa using hn)
  case dry => simp

/-- A new receiver has heard nothing and stands at the end of the stream. -/
theorem subscribe (h : Keeps d m stream) (run : Option RunId) :
    Keeps { d with bus := (d.bus.subscribe run).2 }
      ((.subscribe run, .number d.bus.receivers.length) :: m) stream := by
  have hcases : ∀ n rx, (d.bus.receivers ++ [⟨d.bus.sent, run, true⟩])[n]? = some rx →
      d.bus.receivers[n]? = some rx ∨
        n = d.bus.receivers.length ∧ rx = ⟨stream.length, run, true⟩ := by
    intro n rx hrx
    rw [h.carries.sent] at hrx
    exact (getElem?_concat_eq_some_iff.mp hrx).imp_right fun ⟨hn, hrx⟩ => ⟨hn, hrx.symm⟩
  have hne : ∀ {n : Nat}, n ≠ d.bus.receivers.length →
      Irrelevant (.subscribe run) (.number d.bus.receivers.length) m n := fun hn =>
    ⟨by rw [listens, if_neg (Ne.symm hn)], rfl, rfl, rfl⟩
  constructor
  case carries =>
    refine ⟨h.carries.sent, h.carries.kept, fun hrx => ?_⟩
    rcases hcases _ _ hrx with hrx | ⟨-, rfl⟩
    · exact h.carries.position_le hrx
    · exact Nat.le_refl _
  case attends =>
    intro n rx hrx
    rcases hcases _ _ hrx with hrx | ⟨rfl, rfl⟩
    · exact (h.attends n rx hrx).entry (hne (Nat.ne_of_lt (List.getElem?_eq_some_iff.mp hrx).1))
    · have hsilent := h.silent d.bus.receivers.length (by simp)
      refine ⟨by rw [listens, if_pos rfl],
        fun _ P hP => ⟨[], [], hsilent.heard_eq, ?_, by simp⟩⟩
      show P [] (given _ m) (missed _ m)
      rw [hsilent.given_eq, hsilent.missed_eq]
      exact hP.nil
  case silent =>
    intro n hn
    have hlen : d.bus.receivers.length + 1 ≤ n := by
      simpa [EventBus.subscribe] using hn
    exact (h.silent n (List.getElem?_eq_none (Nat.le_of_succ_le hlen))).entry
      (hne (Nat.ne_of_gt hlen))
  case subscribed =>
    intro n r hn
    rcases List.mem_cons.mp hn with heq | hn
    · obtain ⟨hr, rfl⟩ : r = run ∧ n = d.bus.receivers.length := by simpa using heq
      exact ⟨⟨d.bus.sent, run, true⟩, by simp [EventBus.subscribe], hr.symm⟩
    · obtain ⟨rx, hrx, hrun⟩ := h.subscribed n r hn
      exact ⟨rx, getElem?_concat_eq_some_iff.mpr (.inl hrx), hrun⟩
  case dry => simp

/-- A receiver that stops listening has heard what it has heard. -/
theorem unsubscribe (h : Keeps d m stream) (n : Nat) :
    Keeps { d with bus := d.bus.unsubscribe n } ((.unsubscribe n, .done) :: m) stream := by
  refine h.modify (fun _ => rfl) (fun _ hle => hle) ?_ (fun hnone => ?_)
    (fun k hk => ⟨by rw [listens, if_neg hk], rfl, rfl, rfl⟩) (by simp) (by simp [IsDry])
  · intro rx hrx
    refine ⟨by rw [listens, if_pos rfl], fun hdrain P hP => ?_⟩
    obtain ⟨read, ahead, hheard, hread, -⟩ :=
      (h.attends n rx hrx).reads (fun hrun => (hdrain hrun).of_cons) P hP
    exact ⟨read, ahead, hheard, hread, fun hopen => absurd hopen Bool.false_ne_true⟩
  · have hsilent := h.silent n hnone
    exact ⟨by rw [listens, if_pos rfl], hsilent.heard_eq, hsilent.given_eq, hsilent.missed_eq⟩

end Keeps

theorem receiver?_eq_some_iff {k : Nat} :
    d.receiver? k = some rx ↔ d.bus.receivers[k]? = some rx ∧ rx.open_ = true := by
  simp [receiver?, Option.filter_eq_some_iff]

/-- The answer for what a receiver finds. -/
def answerOf : Except BusError Event → Answer
  | .ok e => .event e
  | .error .empty => .pending
  | .error x => .refused x

/-- The answer for what a receiver finds that does not wait. -/
def promptly : Except BusError Event → Answer
  | .ok e => .event e
  | .error x => .refused x

theorem told_promptly (x : Except BusError Event) : (promptly x).told = (answerOf x).told := by
  rcases x with (_ | _ | _) | _ <;> rfl

theorem lost_promptly (x : Except BusError Event) : (promptly x).lost = (answerOf x).lost := by
  rcases x with (_ | _ | _) | _ <;> rfl

section Answers

theorem answer_receive (h : d.receiver? n = some rx) {x : Except BusError Event × Nat}
    (hx : d.bus.readFor rx.run d.bus.kept.length rx.position = x) :
    d.answer (.receive n) = (answerOf x.1, { d with bus := d.bus.move n x.2 }) := by
  obtain ⟨hat, -⟩ := receiver?_eq_some_iff.mp h
  rw [answer, h]
  simp only [EventBus.receive, hat, hx]
  rcases x with ⟨(_ | _ | _) | _, _⟩ <;> rfl

theorem answer_tryReceive (h : d.receiver? n = some rx) (hrun : rx.run = none)
    {x : Except BusError Event × Nat}
    (hx : d.bus.readFor none d.bus.kept.length rx.position = x) :
    d.answer (.tryReceive n) = (promptly x.1, { d with bus := d.bus.move n x.2 }) := by
  obtain ⟨hat, -⟩ := receiver?_eq_some_iff.mp h
  obtain ⟨position, run, open_⟩ := rx
  obtain rfl : run = none := hrun
  rw [answer, h]
  simp only [EventBus.receive, hat, hx]
  rcases x with ⟨_ | _, _⟩ <;> rfl

theorem answer_drain (h : d.receiver? n = some rx) (hrun : rx.run = none) {x : List Event × Nat}
    (hx : d.bus.readAll (d.bus.kept.length + 2) rx.position = x) :
    d.answer (.drain n) = (.events x.1, { d with bus := d.bus.move n x.2 }) := by
  obtain ⟨hat, -⟩ := receiver?_eq_some_iff.mp h
  obtain ⟨position, run, open_⟩ := rx
  obtain rfl : run = none := hrun
  rw [answer, h]
  simp only [EventBus.drain, hat, hx]

/-- A receiver of a run has no other way to get its events than one after another. -/
theorem answer_of_run (h : d.receiver? n = some rx) {run : RunId} (hrun : rx.run = some run) :
    d.answer (.tryReceive n) = (.unavailable, d) ∧ d.answer (.drain n) = (.unavailable, d) := by
  obtain ⟨position, run', open_⟩ := rx
  obtain rfl : run' = some run := hrun
  exact ⟨by rw [answer, h], by rw [answer, h]⟩

theorem answer_of_gone (h : d.receiver? n = none) (hq : q.reader? = some n) :
    d.answer q = (.unavailable, d) := by
  cases q with
  | receive _ | tryReceive _ | drain _ =>
    obtain rfl := Option.some.inj hq
    rw [answer, h]
  | _ => simp [Request.reader?] at hq

end Answers

/-- What a receiver reads is added to what it has read, and given to it if it wants it. -/
theorem Attends.receive (h : Attends m stream n rx) (hopen : rx.open_ = true)
    (hold : d.bus.oldest ≤ stream.length) {x : Except BusError Event × Nat}
    (hx : Finds d.bus rx.run rx.position (stream.drop rx.position) x)
    (hq : q.reader? = some n) (htold : a.told = (answerOf x.1).told)
    (hlost : a.lost = (answerOf x.1).lost) :
    Attends ((q, a) :: m) stream n { rx with position := x.2 } := by
  refine ⟨(listens_of_reader? hq n _).trans h.listens_eq, fun hn P hP => ?_⟩
  obtain ⟨read, ahead, hheard, hread, hahead⟩ := h.reads (fun hrun => (hn hrun).of_cons) P hP
  obtain rfl := hahead hopen
  rw [heard_of_reader? hq, given_of_eq hq, missed_of_eq hq, hheard, htold, hlost]
  cases hx with
  | lagged hlt =>
    refine ⟨read ++ (stream.drop rx.position).take (d.bus.oldest - rx.position),
      stream.drop d.bus.oldest, ?_, ?_, fun _ => rfl⟩
    · have hrest : (stream.drop rx.position).drop (d.bus.oldest - rx.position) =
          stream.drop d.bus.oldest := by
        rw [List.drop_drop, Nat.add_sub_cancel' (Nat.le_of_lt hlt)]
      rw [← hrest, List.append_assoc, List.take_append_drop]
    · have hlength : ((stream.drop rx.position).take (d.bus.oldest - rx.position)).length =
          d.bus.oldest - rx.position := by
        rw [List.length_take, List.length_drop]
        omega
      simpa [answerOf, Answer.told, Answer.lost, hlength] using
        hP.lose hread ((stream.drop rx.position).take (d.bus.oldest - rx.position))
  | @event passed rest e _ hsplit hpassed he =>
    refine ⟨read ++ passed ++ [e], rest, by simp [hsplit], hP.give (hP.pass hread hpassed) he,
      fun _ => ?_⟩
    have hrest : (stream.drop rx.position).drop (passed.length + 1) = rest := by
      rw [hsplit, ← List.drop_drop, List.drop_left]
      rfl
    rw [← hrest, List.drop_drop, Nat.add_assoc]
  | dry _ hnone =>
    have hend : stream.drop (rx.position + (stream.drop rx.position).length) = [] := by
      rw [← List.drop_drop, List.drop_length]
    refine ⟨read ++ stream.drop rx.position, [], by simp, ?_, fun _ => hend.symm⟩
    split <;> simpa [answerOf, Answer.told, Answer.lost] using hP.pass hread hnone

/-- A receiver of all events that takes them all at once is left out of its books. -/
theorem Attends.drain (h : Attends m stream n rx) (hrun : rx.run = none) (a : Answer)
    (position : Nat) : Attends ((.drain n, a) :: m) stream n { rx with position } :=
  ⟨(listens_of_reader? rfl n a).trans h.listens_eq,
    fun hn => absurd List.mem_cons_self (hn hrun a)⟩

namespace Keeps

/-- Where a receiver is when it has read for its next event. -/
theorem finds (h : Keeps d m stream) (hrx : d.bus.receivers[n]? = some rx) :
    Finds d.bus rx.run rx.position (stream.drop rx.position)
      (d.bus.readFor rx.run d.bus.kept.length rx.position) := by
  refine h.carries.finds rx.run (h.carries.position_le hrx) fun hold => ?_
  have := h.carries.oldest_eq
  rw [h.carries.kept, List.length_drop]
  omega

/-- Requests of which a receiver hears nothing. -/
theorem unavailable (h : Keeps d m stream) (hq : q.reader? = some n)
    (ha : d.answer q = (.unavailable, d)) :
    Keeps (d.answer q).2 ((q, (d.answer q).1) :: m) stream := by
  rw [ha]
  refine h.still h.carries rfl (irrelevant_of_nothing hq rfl rfl) (fun run k heq => ?_)
    (by simp [IsDry])
  obtain ⟨rfl, -⟩ := Prod.mk.inj heq
  simp [Request.reader?] at hq

/-- Taking the next event of a receiver. -/
theorem receive (h : Keeps d m stream) (n : Nat) :
    Keeps (d.answer (.receive n)).2 ((.receive n, (d.answer (.receive n)).1) :: m) stream := by
  cases hrx : d.receiver? n with
  | none => exact h.unavailable rfl (answer_of_gone hrx rfl)
  | some rx =>
    obtain ⟨hat, hopen⟩ := receiver?_eq_some_iff.mp hrx
    obtain ⟨x, hx⟩ : ∃ x, d.bus.readFor rx.run d.bus.kept.length rx.position = x := ⟨_, rfl⟩
    have hfinds := hx ▸ h.finds hat
    have hle := h.carries.position_le hat
    rw [answer_receive hrx hx]
    have hattends : Attends ((.receive n, answerOf x.1) :: m) stream n
        { rx with position := x.2 } :=
      (h.attends n rx hat).receive hopen (h.carries.oldest_eq ▸ Nat.sub_le _ _) hfinds rfl rfl rfl
    refine h.move hat (hfinds.le h.carries hle) rfl hattends fun k _ hdry => ⟨hopen, ?_⟩
    cases hfinds with
    | lagged _ => simp [answerOf, IsDry] at hdry
    | event _ _ _ _ => simp [answerOf, IsDry] at hdry
    | dry _ _ =>
      rw [List.length_drop]
      exact Nat.add_sub_cancel' hle

/-- Taking the next event of a receiver of all events without waiting. -/
theorem tryReceive (h : Keeps d m stream) (n : Nat) :
    Keeps (d.answer (.tryReceive n)).2 ((.tryReceive n, (d.answer (.tryReceive n)).1) :: m)
      stream := by
  cases hrx : d.receiver? n with
  | none => exact h.unavailable rfl (answer_of_gone hrx rfl)
  | some rx =>
    cases hrun : rx.run with
    | some run => exact h.unavailable rfl (answer_of_run hrx hrun).1
    | none =>
      obtain ⟨hat, hopen⟩ := receiver?_eq_some_iff.mp hrx
      have hfinds := h.finds hat
      rw [answer_tryReceive hrx hrun (by rw [← hrun])]
      have hattends := (h.attends n rx hat).receive hopen (h.carries.oldest_eq ▸ Nat.sub_le _ _)
        hfinds (q := .tryReceive n) rfl (told_promptly _) (lost_promptly _)
      exact h.move hat (hfinds.le h.carries (h.carries.position_le hat)) rfl hattends
        fun k hk => absurd hk (by simp)

/-- Taking all events of a receiver. -/
theorem drain (h : Keeps d m stream) (n : Nat) :
    Keeps (d.answer (.drain n)).2 ((.drain n, (d.answer (.drain n)).1) :: m) stream := by
  cases hrx : d.receiver? n with
  | none => exact h.unavailable rfl (answer_of_gone hrx rfl)
  | some rx =>
    cases hrun : rx.run with
    | some run => exact h.unavailable rfl (answer_of_run hrx hrun).2
    | none =>
      obtain ⟨hat, -⟩ := receiver?_eq_some_iff.mp hrx
      rw [answer_drain hrx hrun rfl]
      have hle := h.carries.readAll_le (d.bus.kept.length + 2) (h.carries.position_le hat)
      exact h.move hat hle rfl ((h.attends n rx hat).drain hrun _ _)
        fun k hk => absurd hk (by simp)

/-- Requests that are refused or concern the handles. -/
theorem aside (h : Keeps d m stream) {handles clones : Nat} {first : Bool}
    (hq : ∀ n, Irrelevant q a m n) (hsub : ∀ run n, (q, a) ≠ (.subscribe run, .number n))
    (hdry : ¬ IsDry a) : Keeps ⟨{ d.bus with handles }, first, clones⟩ ((q, a) :: m) stream :=
  h.still ⟨h.carries.sent, h.carries.kept, h.carries.position_le⟩ rfl hq hsub hdry

/-- **A request keeps the minutes right**, with the stream it leads to. -/
theorem answer (h : Keeps d m stream) (q : Request) :
    ∃ stream', Keeps (d.answer q).2 ((q, (d.answer q).1) :: m) stream' := by
  cases q with
  | publish e =>
    rw [BusDesk.answer]
    split
    · by_cases hnone : d.bus.subscriberCount = 0
      · rw [EventBus.publish, if_pos hnone]
        exact ⟨stream, h.unheard hnone e⟩
      · exact ⟨stream ++ [e], h.publish hnone e⟩
    · exact ⟨stream, h.aside (fun n => ⟨rfl, rfl, rfl, rfl⟩) (by simp) (by simp [IsDry])⟩
  | subscribe run =>
    rw [BusDesk.answer]
    split
    · exact ⟨stream, h.subscribe run⟩
    · exact ⟨stream, h.aside (fun n => ⟨rfl, rfl, rfl, rfl⟩) (by simp) (by simp [IsDry])⟩
  | clone | close | dropClone =>
    rw [BusDesk.answer]
    refine ⟨stream, ?_⟩
    split <;> exact h.aside (fun n => ⟨rfl, rfl, rfl, rfl⟩) (by simp) (by simp [IsDry])
  | unsubscribe k => exact ⟨stream, h.unsubscribe k⟩
  | receive k => exact ⟨stream, h.receive k⟩
  | tryReceive k => exact ⟨stream, h.tryReceive k⟩
  | drain k => exact ⟨stream, h.drain k⟩

end Keeps

/-- The minutes of every bus are right. -/
theorem keeps_run (capacity : Nat) (qs : List Request) :
    ∃ stream, Keeps (run capacity qs).1 (run capacity qs).2 stream := by
  induction qs using List.reverseRecOn with
  | nil => exact ⟨[], keeps_new capacity⟩
  | append_singleton qs q ih =>
    obtain ⟨stream, h⟩ := ih
    rw [run_concat]
    exact h.answer q

/-! ### Receivers of a run -/

/-- Receiver `n` follows run `r`: of what it has heard it has read a part, and been given what
of that part belongs to `r`; left waiting, it has read everything. -/
def Follows (m : Minutes) (n : Nat) (r : RunId) : Prop :=
  ∃ read ahead, heard n m = read ++ ahead ∧ Account r read (given n m) (missed n m) ∧
    ∀ a, m.head? = some (.receive n, a) → IsDry a → ahead = []

/-- **Who subscribed for a run follows it.** -/
theorem follows (capacity : Nat) (qs : List Request) {n : Nat} {r : RunId}
    (h : (.subscribe (some r), .number n) ∈ (run capacity qs).2) :
    Follows (run capacity qs).2 n r := by
  obtain ⟨stream, hkeeps⟩ := keeps_run capacity qs
  obtain ⟨rx, hrx, hrun⟩ := hkeeps.subscribed n (some r) h
  obtain ⟨read, ahead, hheard, haccount, hahead⟩ := (hkeeps.attends n rx hrx).account r hrun
  refine ⟨read, ahead, hheard, haccount, fun a hhead ha => ?_⟩
  obtain ⟨rx', hrx', hopen, hposition⟩ := hkeeps.dry n a hhead ha
  obtain rfl := Option.some.inj (hrx.symm.trans hrx')
  rw [hahead hopen, hposition, List.drop_length]

namespace Follows

variable {r : RunId} {e : Event}

/-- It is given events of the run only. -/
theorem belongsTo (h : Follows m n r) (he : e ∈ given n m) : e.belongsTo r = true := by
  obtain ⟨read, ahead, -, haccount, -⟩ := h
  exact (List.mem_filter.mp (haccount.sublist.subset he)).2

/-- Left waiting and having missed nothing, it was given all events of the run. -/
theorem given_eq (h : Follows m n r) (hhead : m.head? = some (.receive n, a)) (ha : IsDry a)
    (hmissed : missed n m = 0) : given n m = (heard n m).filter (·.belongsTo r) := by
  obtain ⟨read, ahead, hheard, haccount, hdry⟩ := h
  rw [hheard, hdry a hhead ha, List.append_nil]
  rw [hmissed] at haccount
  exact haccount.eq_filter

end Follows

end BusDesk

end Roundtable

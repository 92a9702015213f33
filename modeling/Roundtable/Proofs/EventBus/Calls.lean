import Roundtable.Proofs.EventBus.Minutes

/-!
# The calls behind a request

What can be asked of a receiver is made of calls on the stream itself: a receiver of a run
calls for one event after another until it gets one of its run, and who takes all events
at once calls until nothing more is there. `BusDesk.Spells` writes a request out as these
calls, made of a bus all of whose receivers want all events (`BusDesk.plain`).

**Every request can be written out** (`BusDesk.exists_spells`): there is a last call, be it
that the event is one of the run (`BusDesk.Loop.receive`) or that nothing is left
(`BusDesk.Loop.drain`).
-/

namespace Roundtable

/-- The receiver, wanting all events. -/
def Receiver.plain (rx : Receiver) : Receiver := { rx with run := none }

namespace EventBus

/-- The bus with all its receivers wanting all events. -/
def plain (b : EventBus) : EventBus := { b with receivers := b.receivers.map Receiver.plain }

/-- How many events of the stream are still in front of a receiver. -/
def unread (b : EventBus) (rx : Receiver) : Nat := b.sent - rx.position

/-- The request, made of a bus whose receivers want all events. -/
def Request.plain : Request → Request
  | .subscribe _ => .subscribe none
  | q => q

/-- It is made of a bus whose receivers want all events, and asks for one at most. -/
def Request.isCall : Request → Bool
  | .subscribe (some _) | .drain _ => false
  | _ => true

/-- There may be more behind this answer. -/
def Answer.isMore : Answer → Bool
  | .event _ | .refused (.lagged _) => true
  | _ => false

/-- The answer is an event that a receiver for `run` does not want. -/
def Answer.isForeign (run : Option RunId) : Answer → Bool
  | .event e => !e.wantedBy run
  | _ => false

theorem told_events (es : List Event) : (es.map Answer.event).flatMap Answer.told = es := by
  induction es with
  | nil => rfl
  | cons e es ih => rw [List.map_cons, List.flatMap_cons, ih]; rfl

end EventBus

namespace BusDesk

open EventBus

/-- The desk of a bus whose receivers want all events. -/
def plain (d : BusDesk) : BusDesk := { d with bus := d.bus.plain }

/-- **Calling again** while the answers tell to: what was answered, and the desk behind it. -/
inductive Loop (goOn : Answer → Bool) (q : Request) : BusDesk → List Answer → BusDesk → Prop
  | last {d : BusDesk} : goOn (d.answer q).1 = false →
      Loop goOn q d [(d.answer q).1] (d.answer q).2
  | again {d d' : BusDesk} {as : List Answer} : goOn (d.answer q).1 = true →
      Loop goOn q (d.answer q).2 as d' → Loop goOn q d ((d.answer q).1 :: as) d'

/-- **A request written out** as the calls it makes of a bus whose receivers want all
events. -/
inductive Spells (d : BusDesk) : Request → List Request → Prop
  /-- What reads nothing is one call. -/
  | once {q : Request} : q.reader? = none → Spells d q [q.plain]
  /-- The receiver is gone, or cannot do this. -/
  | unavailable {q : Request} {n : Nat} : q.reader? = some n → d.answer q = (.unavailable, d) →
      Spells d q []
  /-- Events of other runs are thrown away. -/
  | receive {n : Nat} {rx : Receiver} {as : List Answer} {d' : BusDesk} :
      d.receiver? n = some rx → Loop (·.isForeign rx.run) (.receive n) d.plain as d' →
      Spells d (.receive n) (.replicate as.length (.receive n))
  | tryReceive {n : Nat} {rx : Receiver} : d.receiver? n = some rx → rx.run = none →
      Spells d (.tryReceive n) [.tryReceive n]
  /-- Taking all goes on behind a loss. -/
  | drain {n : Nat} {rx : Receiver} {as : List Answer} {d' : BusDesk} :
      d.receiver? n = some rx → rx.run = none → Loop (·.isMore) (.tryReceive n) d.plain as d' →
      Spells d (.drain n) (.replicate as.length (.tryReceive n))

/-- **Requests written out**, each where the ones before it lead. -/
inductive SpellsOut (capacity : Nat) : List Request → List Request → Prop
  | nil : SpellsOut capacity [] []
  | concat {qs qs' calls : List Request} {q : Request} : SpellsOut capacity qs qs' →
      Spells (run capacity qs).1 q calls → SpellsOut capacity (qs ++ [q]) (qs' ++ calls)

variable {d d' c c' : BusDesk} {m m' : Minutes} {stream : List Event} {q : Request} {a : Answer}
  {n k p : Nat} {rx : Receiver} {as : List Answer}

/-! ### A desk with one receiver moved -/

/-- The desk with receiver `n` at another position. -/
def moved (d : BusDesk) (n p : Nat) : BusDesk := { d with bus := d.bus.move n p }

theorem moved_moved (d : BusDesk) (n p p' : Nat) : (d.moved n p).moved n p' = d.moved n p' := by
  simp only [moved, EventBus.move, List.modify_modify_eq, Function.comp_def]

theorem moved_self (h : d.bus.receivers[n]? = some rx) : d.moved n rx.position = d := by
  have hsame : d.bus.receivers.modify n (fun r => { r with position := rx.position }) =
      d.bus.receivers := by
    refine List.ext_getElem? fun i => ?_
    rw [List.getElem?_modify]
    split
    · next hi => rw [← hi, h]; rfl
    · simp
  simp only [moved, EventBus.move, hsame]

theorem receiver?_moved (h : d.receiver? n = some rx) (p : Nat) :
    (d.moved n p).receiver? n = some { rx with position := p } := by
  obtain ⟨hat, hopen⟩ := receiver?_eq_some_iff.mp h
  refine receiver?_eq_some_iff.mpr ⟨?_, hopen⟩
  exact getElem?_modify_eq_some_iff.mpr ⟨rx, hat, if_pos rfl⟩

theorem plain_moved (d : BusDesk) (n p : Nat) : (d.moved n p).plain = d.plain.moved n p := by
  have hmap : (d.bus.receivers.modify n fun r => { r with position := p }).map Receiver.plain =
      (d.bus.receivers.map Receiver.plain).modify n fun r => { r with position := p } :=
    map_modify (fun rx => by rfl) d.bus.receivers n
  simp only [moved, plain, EventBus.plain, EventBus.move, hmap]

theorem getElem?_plain (d : BusDesk) (n : Nat) :
    d.plain.bus.receivers[n]? = (d.bus.receivers[n]?).map Receiver.plain := List.getElem?_map

theorem receiver?_plain (h : d.receiver? n = some rx) : d.plain.receiver? n = some rx.plain := by
  obtain ⟨hat, hopen⟩ := receiver?_eq_some_iff.mp h
  exact receiver?_eq_some_iff.mpr ⟨by rw [getElem?_plain, hat]; rfl, hopen⟩

theorem readFor_none (b : EventBus) (steps p : Nat) : b.readFor none steps p = b.read p := by
  cases steps with
  | zero => rfl
  | succ s =>
    rw [readFor]
    rintro e next r - hrun
    exact absurd hrun (by simp)

theorem carries_plain : d.plain.bus.Carries stream ↔ d.bus.Carries stream := by
  refine ⟨fun h => ⟨h.sent, h.kept, fun {n rx} hrx => ?_⟩,
    fun h => ⟨h.sent, h.kept, fun {n rx} hrx => ?_⟩⟩
  · have hrx' : d.plain.bus.receivers[n]? = some rx.plain := by rw [getElem?_plain, hrx]; rfl
    have hle : rx.plain.position ≤ stream.length := h.position_le hrx'
    exact hle
  · rw [getElem?_plain] at hrx
    obtain ⟨rx', hrx', rfl⟩ := Option.map_eq_some_iff.mp hrx
    have hle : rx'.position ≤ stream.length := h.position_le hrx'
    exact hle

/-! ### One call after another -/

/-- The request is answered what the bus has at the position of receiver `n`. -/
def Reads (c : BusDesk) (n : Nat) (q : Request) (answerFor : Except BusError Event → Answer) :
    Prop :=
  ∀ p, (c.moved n p).answer q = (answerFor (c.bus.read p).1, c.moved n (c.bus.read p).2)

theorem reads_receive (h : c.receiver? n = some rx) (hrun : rx.run = none) :
    Reads c n (.receive n) answerOf := by
  intro p
  rw [answer_receive (receiver?_moved h p) rfl]
  show (answerOf ((c.moved n p).bus.readFor rx.run _ p).1,
    (c.moved n p).moved n ((c.moved n p).bus.readFor rx.run _ p).2) = _
  rw [hrun, readFor_none, moved_moved]
  rfl

theorem reads_tryReceive (h : c.receiver? n = some rx) (hrun : rx.run = none) :
    Reads c n (.tryReceive n) promptly := by
  intro p
  rw [answer_tryReceive (receiver?_moved h p) hrun rfl]
  show (promptly ((c.moved n p).bus.readFor none _ p).1,
    (c.moved n p).moved n ((c.moved n p).bus.readFor none _ p).2) = _
  rw [readFor_none, moved_moved]
  rfl

namespace Loop

variable {goOn : Answer → Bool} {answerFor : Except BusError Event → Answer}
  {x : Except BusError Event × Nat}

/-- The last call, by what is read. -/
theorem stop (hq : Reads c n q answerFor) (hx : c.bus.read p = x)
    (hgo : goOn (answerFor x.1) = false) :
    Loop goOn q (c.moved n p) [answerFor x.1] (c.moved n x.2) := by
  obtain rfl := hx
  have hlast : goOn ((c.moved n p).answer q).1 = false → _ := Loop.last
  rw [hq p] at hlast
  exact hlast hgo

/-- One more call, by what is read. -/
theorem step (hq : Reads c n q answerFor) (hx : c.bus.read p = x)
    (hgo : goOn (answerFor x.1) = true) (hrest : Loop goOn q (c.moved n x.2) as c') :
    Loop goOn q (c.moved n p) (answerFor x.1 :: as) c' := by
  obtain rfl := hx
  have hagain : goOn ((c.moved n p).answer q).1 = true →
      Loop goOn q ((c.moved n p).answer q).2 as c' → _ := Loop.again
  rw [hq p] at hagain
  exact hagain hgo hrest

/-- Events that tell to go on are answered one after another. -/
theorem pass (hq : Reads c n q answerFor) (hevent : ∀ e, answerFor (.ok e) = .event e)
    (h : c.bus.Carries stream) {passed rest : List Event} (hold : c.bus.oldest ≤ p)
    (hsplit : stream.drop p = passed ++ rest) (hgo : ∀ e ∈ passed, goOn (.event e) = true)
    (hrest : Loop goOn q (c.moved n (p + passed.length)) as c') :
    Loop goOn q (c.moved n p) (passed.map .event ++ as) c' := by
  induction passed generalizing p with
  | nil => exact hrest
  | cons e passed ih =>
    have he : stream[p]? = some e := by
      rw [← List.head?_drop, hsplit]
      rfl
    have htail : stream.drop (p + 1) = passed ++ rest := by
      rw [← List.tail_drop, hsplit]
      rfl
    rw [List.forall_mem_cons] at hgo
    rw [List.length_cons, Nat.add_comm passed.length, ← Nat.add_assoc] at hrest
    have hnext := ih (Nat.le_succ_of_le hold) htail hgo.2 hrest
    have hstep := step hq (h.read_next hold he) (by rw [hevent]; exact hgo.1) hnext
    rw [hevent] at hstep
    exact hstep

/-- **Who wants the events of a run throws away those of others** until there is one, or none
is left, or some were lost. -/
theorem receive (hq : Reads c n q answerOf) (h : c.bus.Carries stream) {run : Option RunId}
    (hx : Finds c.bus run p (stream.drop p) x) :
    ∃ passed : List Event, (∀ e ∈ passed, e.wantedBy run = false) ∧
      (answerOf x.1).isForeign run = false ∧
      Loop (·.isForeign run) q (c.moved n p) (passed.map .event ++ [answerOf x.1])
        (c.moved n x.2) := by
  cases hx with
  | lagged hlt => exact ⟨[], by simp, rfl, stop hq (h.read_lost hlt) rfl⟩
  | @event passed rest e hold hsplit hpassed he =>
    have hforeign : (Answer.event e).isForeign run = false := by simp [Answer.isForeign, he]
    have hnext : stream[p + passed.length]? = some e := by
      rw [← List.getElem?_drop, hsplit]
      simp
    refine ⟨passed, hpassed, hforeign, pass hq (fun _ => rfl) h hold hsplit ?_ ?_⟩
    · intro x hx
      simp [Answer.isForeign, hpassed x hx]
    · exact stop hq (h.read_next (Nat.le_trans hold (Nat.le_add_right _ _)) hnext) hforeign
  | dry hold hnone =>
    have hend : stream.length ≤ p + (stream.drop p).length := by
      rw [List.length_drop]
      omega
    refine ⟨stream.drop p, hnone, by split <;> rfl,
      pass hq (fun _ => rfl) h hold (List.append_nil _).symm ?_ ?_⟩
    · intro x hx
      simp [Answer.isForeign, hnone x hx]
    · exact stop hq (h.read_end hend) (by split <;> rfl)

/-- **Who takes all events at once** gets those that are kept, behind a loss or not. -/
theorem drain (hq : Reads c n q promptly) (h : c.bus.Carries stream) (hp : p ≤ stream.length) :
    ∃ as, as.flatMap Answer.told = stream.drop (max p c.bus.oldest) ∧
      Loop (·.isMore) q (c.moved n p) as (c.moved n stream.length) := by
  have hkept : ∀ {p}, c.bus.oldest ≤ p → p ≤ stream.length → ∃ as : List Answer,
      as.flatMap Answer.told = stream.drop p ∧
      Loop (·.isMore) q (c.moved n p) as (c.moved n stream.length) := by
    intro p hold hp
    have hend : p + (stream.drop p).length = stream.length := by
      rw [List.length_drop]
      omega
    refine ⟨(stream.drop p).map .event ++
      [promptly (.error (if c.bus.handles = 0 then .closed else .empty))], ?_,
      pass hq (fun _ => rfl) h hold (List.append_nil _).symm (by simp [Answer.isMore]) ?_⟩
    · rw [List.flatMap_append, told_events]
      simp [promptly, Answer.told]
    · rw [hend]
      exact stop hq (h.read_end (Nat.le_refl _)) (by split <;> rfl)
  rcases Nat.lt_or_ge p c.bus.oldest with hlt | hge
  · obtain ⟨as, htold, hloop⟩ := hkept (Nat.le_refl _) (h.oldest_eq ▸ Nat.sub_le _ _)
    rw [Nat.max_eq_right (Nat.le_of_lt hlt)]
    exact ⟨promptly _ :: as, by rw [List.flatMap_cons, htold]; rfl,
      step hq (h.read_lost hlt) rfl hloop⟩
  · rw [Nat.max_eq_left hge]
    exact hkept hge hp

/-- The answers tell when it ends. -/
theorem unique {as' : List Answer} {d'' : BusDesk} (h : Loop goOn q d as d')
    (h' : Loop goOn q d as' d'') : as' = as ∧ d'' = d' := by
  induction h generalizing as' d'' with
  | last hstop =>
    cases h' with
    | last _ => exact ⟨rfl, rfl⟩
    | again hgo _ => exact absurd (hstop.symm.trans hgo) Bool.false_ne_true
  | again hgo _ ih =>
    cases h' with
    | last hstop => exact absurd (hstop.symm.trans hgo) Bool.false_ne_true
    | again _ hrest =>
      obtain ⟨rfl, rfl⟩ := ih hrest
      exact ⟨rfl, rfl⟩

/-- The minutes of calls made one after another. -/
theorem foldl_serve (h : Loop goOn q d as d') (m : Minutes) :
    (List.replicate as.length q).foldl serve (d, m) = (d', (as.map (q, ·)).reverse ++ m) := by
  induction h generalizing m with
  | last _ => rfl
  | again _ _ ih =>
    rw [List.length_cons, List.replicate_succ, List.foldl_cons, serve, ih, List.map_cons,
      List.reverse_cons, List.append_assoc]
    rfl

end Loop

/-! ### What a request leaves -/

/-- Which runs the receivers of a bus want. -/
def runs (d : BusDesk) : List (Option RunId) := d.bus.receivers.map (·.run)

/-- A request that reads moves its receiver, if anything. -/
theorem answer_reader (d : BusDesk) (hq : q.reader? = some n) :
    (d.answer q).2 = d ∨ ∃ p, (d.answer q).2 = d.moved n p := by
  cases hrx : d.receiver? n with
  | none => exact .inl (by rw [answer_of_gone hrx hq])
  | some rx =>
    cases q with
    | receive k =>
      obtain rfl := Option.some.inj hq
      exact .inr ⟨_, by rw [answer_receive hrx rfl]; rfl⟩
    | tryReceive k | drain k =>
      obtain rfl := Option.some.inj hq
      cases hrun : rx.run with
      | none =>
        first
        | exact .inr ⟨_, by rw [answer_tryReceive hrx hrun rfl]; rfl⟩
        | exact .inr ⟨_, by rw [answer_drain hrx hrun rfl]; rfl⟩
      | some r =>
        have hnot := answer_of_run hrx hrun
        exact .inl (by simp only [hnot])
    | _ => simp [Request.reader?] at hq

/-- What a request leaves of a bus: its size, and what its receivers want. -/
theorem answer_keeps (d : BusDesk) (q : Request) :
    (d.answer q).2.bus.size = d.bus.size ∧ d.runs <+: (d.answer q).2.runs := by
  have hself : d.bus.size = d.bus.size ∧ d.runs <+: d.runs := ⟨rfl, List.prefix_refl _⟩
  have hmodify : ∀ n (f : Receiver → Receiver), (∀ rx, (f rx).run = rx.run) →
      d.runs <+: (d.bus.receivers.modify n f).map (·.run) := fun n f hf => by
    rw [map_modify (k := id) hf, List.modify_id]
    exact hself.2
  cases hq : q.reader? with
  | some n =>
    rcases d.answer_reader hq with hsame | ⟨p, hp⟩
    · rw [hsame]
      exact hself
    · rw [hp]
      exact ⟨rfl, hmodify n _ fun _ => rfl⟩
  | none =>
    cases q with
    | receive _ | tryReceive _ | drain _ => simp [Request.reader?] at hq
    | publish e =>
      rw [answer]
      split
      · rw [EventBus.publish]
        split <;> exact hself
      · exact hself
    | subscribe run =>
      rw [answer]
      split
      · exact ⟨rfl, by simp [runs, EventBus.subscribe]⟩
      · exact hself
    | clone | close | dropClone =>
      rw [answer]
      split <;> exact hself
    | unsubscribe k => exact ⟨rfl, hmodify k _ fun _ => rfl⟩

/-- What reads nothing is answered the same whatever the receivers want. -/
theorem answer_plain (d : BusDesk) (hq : q.reader? = none) :
    d.plain.answer q.plain = ((d.answer q).1, (d.answer q).2.plain) := by
  have hcount : d.plain.bus.subscriberCount = d.bus.subscriberCount := by
    show ((d.bus.receivers.map Receiver.plain).filter (·.open_)).length = _
    rw [List.filter_map, List.length_map]
    rfl
  cases q with
  | receive _ | tryReceive _ | drain _ => simp [Request.reader?] at hq
  | publish e =>
    show d.plain.answer (.publish e) = _
    rw [answer, answer]
    show (if d.hasHandle then _ else _) = _
    split
    · rw [EventBus.publish, EventBus.publish, hcount]
      split <;> rfl
    · rfl
  | subscribe run =>
    show d.plain.answer (.subscribe none) = _
    rw [answer, answer]
    show (if d.hasHandle then _ else _) = _
    split
    · simp [EventBus.subscribe, plain, EventBus.plain, Receiver.plain]
    · rfl
  | clone =>
    show d.plain.answer .clone = _
    rw [answer, answer]
    show (if d.hasHandle then _ else _) = _
    split <;> rfl
  | close =>
    show d.plain.answer .close = _
    rw [answer, answer]
    show (if d.first then _ else _) = _
    split <;> rfl
  | dropClone =>
    show d.plain.answer .dropClone = _
    rw [answer, answer]
    show (if d.clones = 0 then _ else _) = _
    split <;> rfl
  | unsubscribe k =>
    have hmap : (d.bus.receivers.modify k fun r => { r with open_ := false }).map Receiver.plain =
        (d.bus.receivers.map Receiver.plain).modify k fun r => { r with open_ := false } :=
      map_modify (fun rx => by rfl) d.bus.receivers k
    show d.plain.answer (.unsubscribe k) = _
    simp only [answer, EventBus.unsubscribe, plain, EventBus.plain, hmap]

/-! ### The calls of one request -/

theorem readFor_plain (d : BusDesk) (run : Option RunId) (steps p : Nat) :
    d.plain.bus.readFor run steps p = d.bus.readFor run steps p := by
  induction steps generalizing p with
  | zero => rfl
  | succ s ih =>
    simp only [readFor, ih]
    rfl

/-- A receiver of all events is where it was on the bus itself. -/
theorem plain_moved_self (h : d.receiver? n = some rx) :
    d.plain.moved n rx.position = d.plain := by
  have hat : d.plain.bus.receivers[n]? = some rx.plain := by
    rw [getElem?_plain, (receiver?_eq_some_iff.mp h).1]
    rfl
  have hsame : d.plain.moved n rx.plain.position = d.plain := moved_self hat
  exact hsame

/-- The calls behind taking the next event. -/
theorem loop_receive (hk : Keeps d m stream) (h : d.receiver? n = some rx) :
    ∃ (passed : List Event) (x : Except BusError Event),
      (d.answer (.receive n)).1 = answerOf x ∧ (∀ e ∈ passed, e.wantedBy rx.run = false) ∧
      (answerOf x).isForeign rx.run = false ∧
      Loop (·.isForeign rx.run) (.receive n) d.plain (passed.map .event ++ [answerOf x])
        (d.answer (.receive n)).2.plain := by
  obtain ⟨hat, -⟩ := receiver?_eq_some_iff.mp h
  have hplain := carries_plain.mpr hk.carries
  have hfinds : Finds d.plain.bus rx.run rx.position (stream.drop rx.position)
      (d.plain.bus.readFor rx.run d.bus.kept.length rx.position) := by
    refine hplain.finds rx.run (hk.carries.position_le hat) fun hold => ?_
    have hsize := hk.carries.oldest_eq
    rw [hk.carries.kept, List.length_drop]
    change d.bus.oldest ≤ _ at hold
    omega
  rw [readFor_plain] at hfinds
  obtain ⟨passed, hpassed, hown, hloop⟩ :=
    Loop.receive (reads_receive (receiver?_plain h) rfl) hplain hfinds
  rw [plain_moved_self h, ← plain_moved] at hloop
  rw [answer_receive h rfl]
  exact ⟨passed, _, rfl, hpassed, hown, hloop⟩

/-- Taking the next event of a receiver of all events without waiting is one call. -/
theorem answer_tryReceive_plain (h : d.receiver? n = some rx) (hrun : rx.run = none) :
    d.plain.answer (.tryReceive n) =
      ((d.answer (.tryReceive n)).1, (d.answer (.tryReceive n)).2.plain) := by
  have hreads := reads_tryReceive (receiver?_plain h) rfl rx.position
  rw [plain_moved_self h, ← plain_moved] at hreads
  rw [hreads, answer_tryReceive h hrun rfl, readFor_none]
  rfl

/-- **Taking all events of a receiver**, and the calls behind it. -/
theorem loop_drain (hk : Keeps d m stream) (h : d.receiver? n = some rx) (hrun : rx.run = none) :
    ∃ as, (d.answer (.drain n)).1 = .events (as.flatMap Answer.told) ∧
      Loop (·.isMore) (.tryReceive n) d.plain as (d.answer (.drain n)).2.plain := by
  obtain ⟨hat, -⟩ := receiver?_eq_some_iff.mp h
  have hle := hk.carries.position_le hat
  obtain ⟨as, htold, hloop⟩ := Loop.drain (reads_tryReceive (receiver?_plain h) rfl)
    (carries_plain.mpr hk.carries) hle
  rw [plain_moved_self h, ← plain_moved] at hloop
  rw [answer_drain h hrun (hk.carries.readAll_eq hle)]
  exact ⟨as, congrArg Answer.events htold.symm, hloop⟩

/-- Every request can be written out. -/
theorem exists_spells (hk : Keeps d m stream) (q : Request) : ∃ calls, Spells d q calls := by
  cases hq : q.reader? with
  | none => exact ⟨_, .once hq⟩
  | some n =>
    cases hrx : d.receiver? n with
    | none => exact ⟨[], .unavailable hq (answer_of_gone hrx hq)⟩
    | some rx =>
      cases q with
      | receive k =>
        obtain rfl := Option.some.inj hq
        obtain ⟨_, _, -, -, -, hloop⟩ := loop_receive hk hrx
        exact ⟨_, .receive hrx hloop⟩
      | tryReceive k =>
        obtain rfl := Option.some.inj hq
        cases hrun : rx.run with
        | none => exact ⟨_, .tryReceive hrx hrun⟩
        | some r => exact ⟨[], .unavailable hq (answer_of_run hrx hrun).1⟩
      | drain k =>
        obtain rfl := Option.some.inj hq
        cases hrun : rx.run with
        | none =>
          obtain ⟨_, -, hloop⟩ := loop_drain hk hrx hrun
          exact ⟨_, .drain hrx hrun hloop⟩
        | some r => exact ⟨[], .unavailable hq (answer_of_run hrx hrun).2⟩
      | _ => simp [Request.reader?] at hq

theorem Spells.isCall {calls : List Request} (h : Spells d q calls) :
    ∀ c ∈ calls, c.isCall = true := by
  intro c hc
  cases h with
  | once hq =>
    obtain rfl := List.mem_singleton.mp hc
    cases q <;> first | rfl | simp [Request.reader?] at hq
  | unavailable _ _ => simp at hc
  | receive _ _ =>
    obtain rfl := List.eq_of_mem_replicate hc
    rfl
  | tryReceive _ _ =>
    obtain rfl := List.mem_singleton.mp hc
    rfl
  | drain _ _ _ =>
    obtain rfl := List.eq_of_mem_replicate hc
    rfl

/-! ### Requests written out -/

/-- All requests can be written out. -/
theorem exists_spellsOut (capacity : Nat) (qs : List Request) :
    ∃ calls, SpellsOut capacity qs calls := by
  induction qs using List.reverseRecOn with
  | nil => exact ⟨[], .nil⟩
  | append_singleton qs q ih =>
    obtain ⟨calls, hcalls⟩ := ih
    obtain ⟨stream, hkeeps⟩ := keeps_run capacity qs
    obtain ⟨calls', hcalls'⟩ := exists_spells hkeeps q
    exact ⟨calls ++ calls', .concat hcalls hcalls'⟩

namespace SpellsOut

variable {capacity : Nat} {qs calls : List Request}

theorem isCall (h : SpellsOut capacity qs calls) : ∀ c ∈ calls, c.isCall = true := by
  induction h with
  | nil => simp
  | concat _ hs ih => exact List.forall_mem_append.mpr ⟨ih, hs.isCall⟩

end SpellsOut

end BusDesk

end Roundtable

import Mathlib.Data.List.DropRight
import Roundtable.Proofs.EventBus.Calls

/-!
# Every event is accounted for

What a receiver is answered and what the calls behind its requests are answered differ in
the events it does not want and in nothing else, unless it takes all events at once
(`BusDesk.Condenses`). The minutes of a bus mirror those of the bus that is asked the calls
(`BusDesk.Mirrors.spells`), and there the books are a tally.

**Every event is accounted for** (`BusDesk.accounts_for_all`): the events a receiver called
for, those it was told it missed and those it has not read yet are all that were published
since it subscribed; it was given what it called for, less the events of other runs; and
taking all at once gives the last of the unread events, as many as the bus keeps.
-/

namespace Roundtable

namespace EventBus

/-- What a call that could be made was answered. -/
def Answer.called : Answer → List Answer
  | .unavailable => []
  | a => [a]

theorem called_events (es : List Event) :
    (es.map Answer.event).flatMap Answer.called = es.map .event := by
  induction es with
  | nil => rfl
  | cons e es ih => rw [List.map_cons, List.flatMap_cons, ih]; rfl

end EventBus

namespace BusDesk

open EventBus

variable {d d' : BusDesk} {m m' : Minutes} {stream : List Event} {q : Request} {a : Answer}
  {n : Nat} {rx : Receiver} {as : List Answer}

/-! ### What a receiver was answered -/

/-- What receiver `n` was answered, where it was there and could do what it was asked. -/
def answers (n : Nat) : Minutes → List Answer
  | [] => []
  | (q, a) :: m => if q.reader? = some n then answers n m ++ a.called else answers n m

theorem answers_of_eq (h : q.reader? = some n) :
    answers n ((q, a) :: m) = answers n m ++ a.called := if_pos h

theorem answers_of_ne (h : q.reader? ≠ some n) : answers n ((q, a) :: m) = answers n m :=
  if_neg h

theorem called_answerOf (x : Except BusError Event) : (answerOf x).called = [answerOf x] := by
  rcases x with (_ | _ | _) | _ <;> rfl

theorem told_called (a : Answer) : a.called.flatMap Answer.told = a.told := by
  cases a <;> simp [Answer.called, Answer.told]

theorem told_calls (as : List Answer) :
    (as.flatMap Answer.called).flatMap Answer.told = as.flatMap Answer.told := by
  simp only [List.flatMap_assoc, told_called]

/-- It was given the events it was told. -/
theorem given_eq_told (n : Nat) (m : Minutes) : given n m = (answers n m).flatMap Answer.told := by
  induction m with
  | nil => rfl
  | cons x m ih =>
    obtain ⟨q, a⟩ := x
    by_cases hq : q.reader? = some n
    · rw [given_of_eq hq, answers_of_eq hq, List.flatMap_append, told_called, ih]
    · rw [given_of_ne hq, answers_of_ne hq, ih]

theorem lost_called (a : Answer) : (a.called.map Answer.lost).sum = a.lost := by
  cases a <;> simp [Answer.called, Answer.lost]

/-- It missed the events it was told it lost. -/
theorem missed_eq_lost (n : Nat) (m : Minutes) :
    missed n m = ((answers n m).map Answer.lost).sum := by
  induction m with
  | nil => rfl
  | cons x m ih =>
    obtain ⟨q, a⟩ := x
    by_cases hq : q.reader? = some n
    · rw [missed_of_eq hq, answers_of_eq hq, List.map_append, List.sum_append, lost_called, ih]
    · rw [missed_of_ne hq, answers_of_ne hq, ih]

section Calls

variable (as) (m)

theorem listens_calls (hq : q.reader? = some k) (n : Nat) :
    listens n ((as.map (q, ·)).reverse ++ m) = listens n m := by
  induction as generalizing m with
  | nil => rfl
  | cons a as ih =>
    rw [List.map_cons, List.reverse_cons, List.append_assoc, ih]
    exact listens_of_reader? hq n a

theorem heard_calls (hq : q.reader? = some k) (n : Nat) :
    heard n ((as.map (q, ·)).reverse ++ m) = heard n m := by
  induction as generalizing m with
  | nil => rfl
  | cons a as ih =>
    rw [List.map_cons, List.reverse_cons, List.append_assoc, ih]
    exact heard_of_reader? hq n a

theorem answers_calls (hq : q.reader? = some n) :
    answers n ((as.map (q, ·)).reverse ++ m) = answers n m ++ as.flatMap Answer.called := by
  induction as generalizing m with
  | nil => rw [List.map_nil, List.reverse_nil, List.flatMap_nil, List.append_nil]; rfl
  | cons a as ih =>
    rw [List.map_cons, List.reverse_cons, List.append_assoc, ih, List.flatMap_cons,
      ← List.append_assoc]
    exact congrArg (· ++ _) (answers_of_eq hq)

theorem answers_calls_ne (hq : q.reader? ≠ some n) :
    answers n ((as.map (q, ·)).reverse ++ m) = answers n m := by
  induction as generalizing m with
  | nil => rfl
  | cons a as ih =>
    rw [List.map_cons, List.reverse_cons, List.append_assoc, ih]
    exact answers_of_ne hq

end Calls

/-- What a receiver for `run` was answered, and what the calls it made were: the same but for
the events it does not want, where it took its events one at a time. -/
structure Condenses (run : Option RunId) (as calls : List Answer) : Prop where
  told_eq : as.flatMap Answer.told = (calls.flatMap Answer.told).filter (·.wantedBy run)
  answers_eq : (run = none → ∀ es, .events es ∉ as) → as = calls.filter fun a => !a.isForeign run

theorem lost_own (run : Option RunId) (as : List Answer) :
    ((as.filter fun a => !a.isForeign run).map Answer.lost).sum = (as.map Answer.lost).sum := by
  induction as with
  | nil => rfl
  | cons a as ih =>
    rw [List.filter_cons, List.map_cons, List.sum_cons, ← ih]
    split
    · rw [List.map_cons, List.sum_cons]
    · next hforeign =>
      -- What is thrown away is an event, and no loss.
      cases a with
      | event e => exact (Nat.zero_add _).symm
      | _ => exact absurd rfl hforeign

namespace Condenses

variable {run : Option RunId} {as' calls calls' : List Answer}

theorem nil (run : Option RunId) : Condenses run [] [] := ⟨rfl, fun _ => rfl⟩

theorem append (h : Condenses run as calls) (h' : Condenses run as' calls') :
    Condenses run (as ++ as') (calls ++ calls') := by
  constructor
  · rw [List.flatMap_append, List.flatMap_append, List.filter_append, h.told_eq, h'.told_eq]
  · intro hes
    have has := h.answers_eq fun hrun es he => hes hrun es (List.mem_append_left _ he)
    have has' := h'.answers_eq fun hrun es he => hes hrun es (List.mem_append_right _ he)
    rw [List.filter_append, ← has, ← has']

/-- Events that are thrown away, and what is found behind them. -/
theorem receive {passed : List Event} {x : Except BusError Event}
    (hpassed : ∀ e ∈ passed, e.wantedBy run = false)
    (hx : (answerOf x).isForeign run = false) :
    Condenses run [answerOf x] (passed.map .event ++ [answerOf x]) := by
  constructor
  · have hnone : passed.filter (·.wantedBy run) = [] := by simpa using hpassed
    have hown : (answerOf x).told.filter (·.wantedBy run) = (answerOf x).told := by
      rcases x with (_ | _ | _) | e
      · rfl
      · rfl
      · rfl
      · simpa [answerOf, Answer.isForeign, Answer.told] using hx
    rw [List.flatMap_append, told_events, List.filter_append, hnone, List.nil_append,
      List.flatMap_singleton, hown]
  · intro _
    have hnone : (passed.map Answer.event).filter (fun a => !a.isForeign run) = [] := by
      simpa [Answer.isForeign] using hpassed
    rw [List.filter_append, hnone, List.nil_append, List.filter_singleton, hx]
    rfl

/-- What a receiver of all events is answered is not condensed. -/
theorem refl (as : List Answer) : Condenses none as as := by
  refine ⟨(List.filter_eq_self.mpr fun e _ => rfl).symm, fun _ => ?_⟩
  refine (List.filter_eq_self.mpr fun a _ => ?_).symm
  cases a <;> rfl

/-- All events at once. -/
theorem drain : Condenses none [.events (calls.flatMap Answer.told)] calls := by
  constructor
  · rw [List.flatMap_singleton]
    exact (List.filter_eq_self.mpr fun e _ => rfl).symm
  · exact fun hes => absurd List.mem_cons_self (hes rfl _)

end Condenses

/-! ### Minutes that mirror each other -/

/-- The answers a receiver had, and those of the calls behind them; a receiver that is still
to come had none. -/
structure Condensed (d : BusDesk) (n : Nat) (as calls : List Answer) : Prop where
  of_some : ∀ rx, d.bus.receivers[n]? = some rx → Condenses rx.run as calls
  of_none : d.bus.receivers[n]? = none → as = [] ∧ calls = []

theorem Condensed.append {calls as' calls' : List Answer} (h : Condensed d n as calls)
    (h' : Condensed d n as' calls') : Condensed d n (as ++ as') (calls ++ calls') := by
  refine ⟨fun rx hrx => (h.of_some rx hrx).append (h'.of_some rx hrx), fun hnone => ?_⟩
  obtain ⟨rfl, rfl⟩ := h.of_none hnone
  exact h'.of_none hnone

theorem condensed_of_receiver? {calls : List Answer} (h : d.receiver? n = some rx)
    (hcalls : Condenses rx.run as calls) : Condensed d n as calls := by
  obtain ⟨hat, -⟩ := receiver?_eq_some_iff.mp h
  refine ⟨fun rx' hrx' => ?_, fun hnone => absurd (hat.symm.trans hnone) (by simp)⟩
  obtain rfl := Option.some.inj (hat.symm.trans hrx')
  exact hcalls

/-- A request changes nothing in the answers there were before it. -/
theorem Condensed.answer {calls : List Answer} (h : Condensed d n as calls) (q : Request) :
    Condensed (d.answer q).2 n as calls := by
  have hruns := (d.answer_keeps q).2
  constructor
  · intro rx' hrx'
    cases hrx : d.bus.receivers[n]? with
    | some rx =>
      have hold : d.runs[n]? = some rx.run := by rw [runs, List.getElem?_map, hrx]; rfl
      have hnew := getElem?_of_isPrefix hruns hold
      rw [runs, List.getElem?_map, hrx'] at hnew
      have hrun : rx'.run = rx.run := Option.some.inj hnew
      rw [hrun]
      exact h.of_some rx hrx
    | none =>
      obtain ⟨rfl, rfl⟩ := h.of_none hrx
      exact .nil _
  · intro hnone
    have hlength := hruns.length_le
    rw [runs, runs, List.length_map, List.length_map] at hlength
    exact h.of_none
      (List.getElem?_eq_none (Nat.le_trans hlength (List.getElem?_eq_none_iff.mp hnone)))

/-- Two minutes, of which the second are those of the calls behind the first. -/
structure Mirrors (d : BusDesk) (m m' : Minutes) : Prop where
  listens_eq : ∀ n, listens n m' = listens n m
  heard_eq : ∀ n, heard n m' = heard n m
  condensed : ∀ n, Condensed d n (answers n m) (answers n m')

namespace Mirrors

/-- What reads nothing. -/
theorem once (h : Mirrors d m m') (hq : q.reader? = none) :
    Mirrors (d.answer q).2 ((q, (d.answer q).1) :: m) ((q.plain, (d.answer q).1) :: m') := by
  have hq' : q.plain.reader? = none := by cases q <;> first | rfl | simp [Request.reader?] at hq
  constructor
  case listens_eq =>
    intro n
    have hn := h.listens_eq n
    cases q with
    | subscribe run => cases (d.answer (.subscribe run)).1 <;> simp [Request.plain, listens, hn]
    | _ => simp [Request.plain, listens, hn]
  case heard_eq =>
    intro n
    have hn := h.heard_eq n
    have hl := h.listens_eq n
    cases q with
    | publish e => cases (d.answer (.publish e)).1 <;> simp [Request.plain, heard, hn, hl]
    | _ => simp [Request.plain, heard, hn]
  case condensed =>
    intro n
    rw [answers_of_ne (by simp [hq]), answers_of_ne (by simp [hq'])]
    exact (h.condensed n).answer q

/-- What reads for a receiver, and the calls behind it. -/
theorem calls (h : Mirrors d m m') (as : List Answer) {q' : Request} (hq : q.reader? = some n)
    (hq' : q'.reader? = some n)
    (has : Condensed d n (d.answer q).1.called (as.flatMap Answer.called)) :
    Mirrors (d.answer q).2 ((q, (d.answer q).1) :: m) ((as.map (q', ·)).reverse ++ m') := by
  constructor
  case listens_eq =>
    intro k
    rw [listens_calls m' as hq', listens_of_reader? hq, h.listens_eq]
  case heard_eq =>
    intro k
    rw [heard_calls m' as hq', heard_of_reader? hq, h.heard_eq]
  case condensed =>
    intro k
    by_cases hk : n = k
    · subst hk
      rw [answers_of_eq hq, answers_calls m' as hq']
      exact ((h.condensed n).append has).answer q
    · rw [answers_of_ne (by simpa [hq] using hk), answers_calls_ne m' as (by simpa [hq'] using hk)]
      exact (h.condensed k).answer q

end Mirrors

/-- **The calls behind a request** leave the same bus, and minutes that mirror it. -/
theorem Mirrors.spells {calls : List Request} (h : Mirrors d m m') (hk : Keeps d m stream)
    (hs : Spells d q calls) :
    ∃ m'', calls.foldl serve (d.plain, m') = ((d.answer q).2.plain, m'') ∧
      Mirrors (d.answer q).2 ((q, (d.answer q).1) :: m) m'' := by
  cases hs with
  | once hq =>
    refine ⟨_, ?_, h.once hq⟩
    rw [List.foldl_cons, List.foldl_nil, serve, answer_plain d hq]
  | @unavailable _ n hq ha =>
    have hnothing : Condensed d n (d.answer q).1.called [] := by
      rw [ha]
      exact ⟨fun _ _ => .nil _, fun _ => ⟨rfl, rfl⟩⟩
    exact ⟨m', by rw [ha]; rfl, h.calls [] hq hq hnothing⟩
  | receive hrx hloop =>
    obtain ⟨passed, x, hx, hpassed, hown, hloop'⟩ := loop_receive hk hrx
    obtain ⟨rfl, rfl⟩ := hloop'.unique hloop
    refine ⟨_, hloop.foldl_serve m', h.calls _ rfl rfl (condensed_of_receiver? hrx ?_)⟩
    rw [hx, List.flatMap_append, called_events, List.flatMap_singleton, called_answerOf]
    exact .receive hpassed hown
  | @tryReceive n rx hrx hrun =>
    have hcall := answer_tryReceive_plain hrx hrun
    have hserve : [Request.tryReceive n].foldl serve (d.plain, m') =
        ((d.answer (.tryReceive n)).2.plain,
          (.tryReceive n, (d.answer (.tryReceive n)).1) :: m') := by
      rw [List.foldl_cons, List.foldl_nil, serve, hcall]
    refine ⟨_, hserve, h.calls [(d.answer (.tryReceive n)).1] rfl rfl
      (condensed_of_receiver? hrx ?_)⟩
    rw [hrun, List.flatMap_singleton]
    exact .refl _
  | drain hrx hrun hloop =>
    obtain ⟨as, has, hloop'⟩ := loop_drain hk hrx hrun
    obtain ⟨rfl, rfl⟩ := hloop'.unique hloop
    refine ⟨_, hloop.foldl_serve m', h.calls _ rfl rfl (condensed_of_receiver? hrx ?_)⟩
    rw [hrun, has, ← told_calls]
    exact .drain

namespace SpellsOut

variable {capacity : Nat} {qs calls : List Request}

/-- **The calls lead where the requests lead**, and their minutes mirror those of the
requests. -/
theorem mirrors (h : SpellsOut capacity qs calls) :
    (run capacity calls).1 = (run capacity qs).1.plain ∧
      Mirrors (run capacity qs).1 (run capacity qs).2 (run capacity calls).2 := by
  induction h with
  | nil =>
    exact ⟨rfl, fun _ => rfl, fun _ => rfl, fun _ => ⟨fun _ _ => .nil _, fun _ => ⟨rfl, rfl⟩⟩⟩
  | @concat qs calls calls' q _ hs ih =>
    obtain ⟨stream, hkeeps⟩ := keeps_run capacity qs
    obtain ⟨m'', hserve, hmirrors⟩ := ih.2.spells hkeeps hs
    have hrun : run capacity (calls ++ calls') = ((run capacity (qs ++ [q])).1.plain, m'') := by
      rw [run_concat, run, List.foldl_append]
      show calls'.foldl serve (run capacity calls) = _
      rw [← Prod.eta (run capacity calls), ih.1, hserve]
      rfl
    rw [hrun, run_concat]
    exact ⟨rfl, hmirrors⟩

end SpellsOut

theorem mem_of_mem_run {capacity : Nat} {qs : List Request}
    (h : (q, a) ∈ (run capacity qs).2) : q ∈ qs := by
  induction qs using List.reverseRecOn with
  | nil => simp [run] at h
  | append_singleton qs q' ih =>
    rw [run_concat, serve] at h
    rcases List.mem_cons.mp h with heq | h
    · obtain ⟨rfl, -⟩ := Prod.mk.inj heq
      simp
    · exact List.mem_append_left _ (ih h)

/-! ### How much a bus keeps -/

/-- The least power of two that is not below `n`. -/
def IsLeastPower (size n : Nat) : Prop :=
  ∃ k, size = 2 ^ k ∧ n ≤ 2 ^ k ∧ ∀ j, n ≤ 2 ^ j → k ≤ j

theorem isLeastPower_powerFrom {steps i k : Nat} (hlt : ∀ j < i, 2 ^ j < k)
    (hle : k ≤ 2 ^ (i + steps)) : IsLeastPower (powerFrom steps (2 ^ i) k) k := by
  induction steps generalizing i with
  | zero => exact ⟨i, rfl, hle, fun j hj => Nat.le_of_not_lt fun h => absurd (hlt j h) (by omega)⟩
  | succ s ih =>
    rw [powerFrom]
    split
    · next h => exact ⟨i, rfl, h, fun j hj => Nat.le_of_not_lt fun h => absurd (hlt j h) (by omega)⟩
    · next h =>
      rw [← Nat.pow_succ']
      refine ih (fun j hj => ?_) (by rwa [Nat.succ_add])
      rcases Nat.lt_succ_iff_lt_or_eq.mp hj with hj | rfl
      · exact hlt j hj
      · exact Nat.lt_of_not_le h

theorem size_run (capacity : Nat) (qs : List Request) :
    (run capacity qs).1.bus.size = sizeFor capacity := by
  induction qs using List.reverseRecOn with
  | nil => rfl
  | append_singleton qs q ih =>
    rw [run_concat]
    exact ((run capacity qs).1.answer_keeps q).1.trans ih

/-! ### The accounts -/

/-- **The accounts of a receiver**, by the minutes of a bus and those of the calls behind
them. -/
structure Accounted (d : BusDesk) (m calls : Minutes) (n : Nat) (rx : Receiver) : Prop where
  /-- The calls change nothing in what is published, and when. -/
  heard_eq : heard n calls = heard n m
  /-- What it was given was published since it subscribed, in this order, each event once. -/
  given_sublist : (given n m).Sublist (heard n m)
  /-- So was what it called for. -/
  called_sublist : (given n calls).Sublist (heard n m)
  /-- What it called for, what it missed and what it has not read are all there was. -/
  balance : rx.open_ = true →
    (given n calls).length + missed n calls + d.bus.unread rx = (heard n m).length
  /-- Once it has left, they are no more than that. -/
  balance_le : (given n calls).length + missed n calls ≤ (heard n m).length
  /-- It was given what it called for, less the events it does not want. -/
  given_eq : given n m = (given n calls).filter (·.wantedBy rx.run)
  /-- Unless it took all at once, so it is with all its answers, the losses and the end among
  them. -/
  answers_eq : (rx.run = none → ∀ es, .events es ∉ answers n m) →
    answers n m = (answers n calls).filter fun a => !a.isForeign rx.run
  /-- Unless it took all at once, it was told of every loss. -/
  missed_eq : (rx.run = none → ∀ es, .events es ∉ answers n m) → missed n m = missed n calls
  /-- Taking all at once gives the last of the events that are unread, as many as are kept,
  and leaves none. -/
  drain_eq : rx.run = none → rx.open_ = true → d.answer (.drain n) =
    (.events ((heard n m).rtake (min (d.bus.unread rx) d.bus.size)), d.moved n d.bus.sent)

/-- Taking all at once, by what a receiver has in front of it. -/
theorem answer_drain_eq (h : d.bus.Carries stream) {read : List Event}
    (hrx : d.receiver? n = some rx) (hrun : rx.run = none)
    (hheard : heard n m = read ++ stream.drop rx.position) : d.answer (.drain n) =
      (.events ((heard n m).rtake (min (d.bus.unread rx) d.bus.size)), d.moved n d.bus.sent) := by
  have hle : rx.position ≤ stream.length := h.position_le (receiver?_eq_some_iff.mp hrx).1
  have hlast : (heard n m).rtake (min (d.bus.unread rx) d.bus.size) =
      stream.drop (max rx.position d.bus.oldest) := by
    have hlength : (stream.drop rx.position).length = stream.length - rx.position :=
      List.length_drop
    have hkeep : (read ++ stream.drop rx.position).length -
          min (stream.length - rx.position) d.bus.size =
        read.length + (stream.length - rx.position - d.bus.size) := by
      rw [List.length_append, hlength]
      omega
    have hfrom : rx.position + (stream.length - rx.position - d.bus.size) =
        max rx.position d.bus.oldest := by
      rw [h.oldest_eq]
      omega
    rw [List.rtake, hheard, EventBus.unread, h.sent, hkeep, List.drop_length_add_append,
      List.drop_drop, hfrom]
  rw [answer_drain hrx hrun (h.readAll_eq hle), hlast, h.sent]
  rfl

/-- The accounts of a receiver, once its calls are written out. -/
theorem SpellsOut.accounted {capacity : Nat} {qs calls : List Request}
    (h : SpellsOut capacity qs calls) (hrx : (run capacity qs).1.bus.receivers[n]? = some rx) :
    Accounted (run capacity qs).1 (run capacity qs).2 (run capacity calls).2 n rx := by
  obtain ⟨hplain, hmirrors⟩ := h.mirrors
  obtain ⟨stream, hkeeps⟩ := keeps_run capacity calls
  rw [hplain] at hkeeps
  have hcarries := carries_plain.mp hkeeps.carries
  -- The calls take one event at a time, so that their books are a tally.
  have hundrained : Undrained (run capacity calls).2 n := fun a ha =>
    absurd (h.isCall _ (mem_of_mem_run ha)) Bool.false_ne_true
  have hrx' : (run capacity qs).1.plain.bus.receivers[n]? = some rx.plain := by
    rw [getElem?_plain, hrx]
    rfl
  obtain ⟨read, ahead, hheard, htally, hahead⟩ :=
    (hkeeps.attends n rx.plain hrx').tally rfl hundrained
  have hcondenses := (hmirrors.condensed n).of_some rx hrx
  have hgiven : given n (run capacity qs).2 =
      (given n (run capacity calls).2).filter (·.wantedBy rx.run) := by
    rw [given_eq_told, given_eq_told, hcondenses.told_eq]
  have hread : read.Sublist (heard n (run capacity qs).2) := by
    rw [← hmirrors.heard_eq, hheard]
    exact List.sublist_append_left _ _
  have hcalled := htally.sublist.trans hread
  refine ⟨hmirrors.heard_eq n, ?_, hcalled, fun hopen => ?_, ?_, hgiven, hcondenses.answers_eq,
    fun hes => ?_, fun hrun hopen => ?_⟩
  · rw [hgiven]
    exact List.filter_sublist.trans hcalled
  · have hunread : (run capacity qs).1.bus.unread rx = ahead.length := by
      rw [hahead hopen, List.length_drop, EventBus.unread, hcarries.sent]
      rfl
    rw [hunread, htally.length_eq, ← hmirrors.heard_eq, hheard, List.length_append]
  · rw [htally.length_eq]
    exact hread.length_le
  · rw [missed_eq_lost, missed_eq_lost, hcondenses.answers_eq hes, lost_own]
  · have hheard' : heard n (run capacity qs).2 = read ++ stream.drop rx.position := by
      rw [← hmirrors.heard_eq, hheard, hahead hopen]
      rfl
    exact answer_drain_eq hcarries (receiver?_eq_some_iff.mpr ⟨hrx, hopen⟩) hrun hheard'

/-- **Every event is accounted for.** Whatever is asked of a bus, of any capacity a channel
takes, it keeps the least power of two that is not below its capacity, its requests can be
written out as calls that leave it the same, and by these every receiver's accounts are
right. -/
theorem accounts_for_all (capacity : Nat) (qs : List Request) (hcapacity : capacity < 2 ^ 63) :
    IsLeastPower (run capacity qs).1.bus.size (max capacity 1) ∧
    ∃ calls, SpellsOut capacity qs calls ∧ (∀ c ∈ calls, c.isCall = true) ∧
      (run capacity calls).1 = (run capacity qs).1.plain ∧
      ∀ n rx, (run capacity qs).1.bus.receivers[n]? = some rx →
        Accounted (run capacity qs).1 (run capacity qs).2 (run capacity calls).2 n rx := by
  constructor
  · rw [size_run, sizeFor, ← Nat.pow_zero 2]
    exact isLeastPower_powerFrom (by simp) (by omega)
  · obtain ⟨calls, hcalls⟩ := exists_spellsOut capacity qs
    exact ⟨calls, hcalls, hcalls.isCall, hcalls.mirrors.1, fun n rx hrx => hcalls.accounted hrx⟩

/-- A receiver of run `one` that fell behind by two events calls for the two that are left, of
which it is given its own, and one of all events takes these two at once. -/
theorem accounts_for_all_behind :
    let r₁ : RunId := ⟨"one", by decide +kernel⟩
    let r₂ : RunId := ⟨"two", by decide +kernel⟩
    let qs : List Request := [.subscribe none, .subscribe (some r₁),
      .publish (.roundStarted r₁ 1 default), .publish (.roundStarted r₂ 1 default),
      .publish (.roundStarted r₂ 2 default), .publish (.roundStarted r₁ 2 default),
      .receive 1, .receive 1]
    2 < 2 ^ 63 ∧ IsLeastPower (run 2 qs).1.bus.size (max 2 1) ∧
    given 1 (run 2 qs).2 = [.roundStarted r₁ 2 default] ∧
    ((run 2 qs).1.answer (.drain 0)).1 =
      .events [.roundStarted r₂ 2 default, .roundStarted r₁ 2 default] ∧
    ∃ calls, SpellsOut 2 qs calls ∧ (given 1 (run 2 calls).2).length = 2 ∧
      missed 1 (run 2 calls).2 = 2 := by
  intro r₁ r₂ qs
  obtain ⟨hsize, calls, hcalls, -, -, haccounted⟩ := accounts_for_all 2 qs (by decide)
  have hrun := haccounted 1 ⟨4, some r₁, true⟩ (by decide +kernel)
  have hall := haccounted 0 ⟨0, none, true⟩ (by decide +kernel)
  have hmissed : missed 1 (run 2 calls).2 = 2 := by
    rw [← hrun.missed_eq (fun hnone => absurd hnone (by simp))]
    decide +kernel
  refine ⟨by decide, hsize, by decide +kernel, ?_, calls, hcalls, ?_, hmissed⟩
  · rw [hall.drain_eq rfl rfl]
    exact congrArg Answer.events (by decide +kernel)
  · have hbalance := hrun.balance rfl
    have hheard : (heard 1 (run 2 qs).2).length = 4 := by decide +kernel
    have hunread : (run 2 qs).1.bus.unread ⟨4, some r₁, true⟩ = 0 := by decide +kernel
    omega

end BusDesk

end Roundtable

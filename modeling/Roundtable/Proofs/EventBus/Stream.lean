import Roundtable.EventBus

/-!
# What a receiver finds in the stream

A bus keeps the end of its stream (`EventBus.Carries`), and a receiver reads on from its
position. **A receiver that did not fall behind finds the next event it wants, passes over
the ones it does not, and finds nothing only when none is left** (`EventBus.Carries.finds`);
one that fell behind is told how much it lost before it reads anything. Receivers of all
events are those that want each one (`Event.wantedBy`).
-/

namespace Roundtable

/-- A receiver for `run` wants the event; without a run it wants all. -/
def Event.wantedBy (e : Event) (run : Option RunId) : Bool := run.all (e.belongsTo ·)

namespace EventBus

variable {b : EventBus} {stream : List Event} {p : Nat} {e : Event}

/-- The bus keeps the end of the stream, and no receiver is past it. -/
structure Carries (b : EventBus) (stream : List Event) : Prop where
  sent : b.sent = stream.length
  kept : b.kept = stream.drop (stream.length - b.size)
  position_le : ∀ {n : Nat} {rx : Receiver}, b.receivers[n]? = some rx →
    rx.position ≤ stream.length

namespace Carries

theorem oldest_eq (h : b.Carries stream) : b.oldest = stream.length - b.size := by
  rw [oldest, h.sent, h.kept, List.length_drop]
  omega

/-- What is published while somebody listens is the stream's next event. -/
theorem publish (h : b.Carries stream) (hsome : b.subscriberCount ≠ 0) (e : Event) :
    (b.publish e).Carries (stream ++ [e]) := by
  have hbus : b.publish e = { b with
      kept := (b.kept ++ [e]).drop ((b.kept ++ [e]).length - b.size), sent := b.sent + 1 } :=
    if_neg hsome
  rw [hbus]
  refine ⟨by simp [h.sent], ?_, fun hrx => ?_⟩
  · show (b.kept ++ [e]).drop ((b.kept ++ [e]).length - b.size) =
      (stream ++ [e]).drop ((stream ++ [e]).length - b.size)
    rw [h.kept, ← List.drop_append_of_le_length (Nat.sub_le _ _), List.drop_drop]
    congr 1
    simp only [List.length_drop, List.length_append, List.length_singleton]
    omega
  · have := h.position_le hrx
    simp only [List.length_append]
    omega

/-! ### One event -/

/-- At the end there is nothing to read. -/
theorem read_end (h : b.Carries stream) (hp : stream.length ≤ p) :
    b.read p = (.error (if b.handles = 0 then .closed else .empty), p) := by
  rw [read, if_pos (h.sent ▸ hp)]

/-- Who fell behind is told so and goes on at the oldest event. -/
theorem read_lost (h : b.Carries stream) (hp : p < b.oldest) :
    b.read p = (.error (.lagged (b.oldest - p)), b.oldest) := by
  have hlt : p < stream.length := by
    have := h.oldest_eq
    omega
  rw [read, if_neg (by have := h.sent; omega), if_pos hp]

/-- Everybody else reads the event of the stream. -/
theorem read_next (h : b.Carries stream) (hp : b.oldest ≤ p) (he : stream[p]? = some e) :
    b.read p = (.ok e, p + 1) := by
  have hlt : p < stream.length := (List.getElem?_eq_some_iff.mp he).1
  have hkept : b.kept[p - b.oldest]? = some e := by
    rw [h.kept, List.getElem?_drop, ← h.oldest_eq, Nat.add_sub_cancel' hp, he]
  rw [read, if_neg (by have := h.sent; omega), if_neg (Nat.not_lt.mpr hp), hkept]

theorem read_le (h : b.Carries stream) (hp : p ≤ stream.length) :
    (b.read p).2 ≤ stream.length := by
  rcases Nat.lt_or_ge p stream.length with hlt | hge
  · rcases Nat.lt_or_ge p b.oldest with hold | hold
    · rw [h.read_lost hold]
      have := h.oldest_eq
      omega
    · rw [h.read_next hold (List.getElem?_eq_getElem hlt)]
      exact hlt
  · rw [h.read_end hge]
    exact hp

theorem readAll_le (h : b.Carries stream) (steps : Nat) (hp : p ≤ stream.length) :
    (b.readAll steps p).2 ≤ stream.length := by
  induction steps generalizing p with
  | zero => exact hp
  | succ n ih =>
    have hread := h.read_le hp
    rw [readAll]
    split
    · next e next heq => exact ih (by simpa [heq] using hread)
    · next k next heq => exact ih (by simpa [heq] using hread)
    · exact hp

/-- Reading on from an event that is kept gives all that are left. -/
theorem readAll_of_kept (h : b.Carries stream) {steps : Nat} (hold : b.oldest ≤ p)
    (hp : p ≤ stream.length) (hsteps : stream.length - p < steps) :
    b.readAll steps p = (stream.drop p, stream.length) := by
  induction steps generalizing p with
  | zero => exact absurd hsteps (Nat.not_lt_zero _)
  | succ n ih =>
    rcases Nat.lt_or_ge p stream.length with hlt | hge
    · have hrest := ih (p := p + 1) (Nat.le_succ_of_le hold) hlt (by omega)
      simp only [readAll, h.read_next hold (List.getElem?_eq_getElem hlt), hrest,
        List.drop_eq_getElem_cons hlt]
    · obtain rfl : p = stream.length := Nat.le_antisymm hp hge
      by_cases hgone : b.handles = 0 <;> simp [readAll, h.read_end hge, hgone]

/-- **Everything a receiver can get**: the events in front of it that are kept. -/
theorem readAll_eq (h : b.Carries stream) (hp : p ≤ stream.length) :
    b.readAll (b.kept.length + 2) p = (stream.drop (max p b.oldest), stream.length) := by
  have hold := h.oldest_eq
  have hkept : b.kept.length = stream.length - b.oldest := by
    rw [h.kept, List.length_drop, hold]
  rcases Nat.lt_or_ge p b.oldest with hlt | hge
  · rw [readAll, h.read_lost hlt, Nat.max_eq_right (Nat.le_of_lt hlt)]
    exact h.readAll_of_kept (Nat.le_refl _) (by omega) (by omega)
  · rw [Nat.max_eq_left hge]
    exact h.readAll_of_kept hge hp (by omega)

end Carries

/-! ### The next event that is wanted -/

/-- What a receiver for `run` at position `p` can get, with `ahead` in front of it, and
where it is then. -/
inductive Finds (b : EventBus) (run : Option RunId) (p : Nat) (ahead : List Event) :
    Except BusError Event × Nat → Prop
  | lagged : p < b.oldest → Finds b run p ahead (.error (.lagged (b.oldest - p)), b.oldest)
  | event (passed : List Event) {rest : List Event} {e : Event} : b.oldest ≤ p →
      ahead = passed ++ e :: rest → (∀ x ∈ passed, x.wantedBy run = false) → e.wantedBy run = true →
      Finds b run p ahead (.ok e, p + passed.length + 1)
  | dry : b.oldest ≤ p → (∀ x ∈ ahead, x.wantedBy run = false) →
      Finds b run p ahead
        (.error (if b.handles = 0 then .closed else .empty), p + ahead.length)

/-- An event that is not wanted changes nothing in what is found behind it. -/
theorem Finds.cons {run : Option RunId} {ahead : List Event} {x : Except BusError Event × Nat}
    (h : Finds b run (p + 1) ahead x) (hp : b.oldest ≤ p) (he : e.wantedBy run = false) :
    Finds b run p (e :: ahead) x := by
  cases h with
  | lagged hlost => omega
  | @event passed rest e' _ hahead hpassed he' =>
    have : p + 1 + passed.length + 1 = p + (e :: passed).length + 1 := by
      simp only [List.length_cons]
      omega
    rw [this]
    exact .event (e :: passed) hp (by rw [hahead, List.cons_append]) (by simpa [he] using hpassed)
      he'
  | dry _ hnone =>
    have : p + 1 + ahead.length = p + (e :: ahead).length := by
      simp only [List.length_cons]
      omega
    rw [this]
    exact .dry hp (by simpa [he] using hnone)

/-- No receiver gets past the end of the stream. -/
theorem Finds.le {run : Option RunId} {x : Except BusError Event × Nat}
    (hx : Finds b run p (stream.drop p) x) (h : b.Carries stream) (hp : p ≤ stream.length) :
    x.2 ≤ stream.length := by
  have hlength : (stream.drop p).length = stream.length - p := List.length_drop
  cases hx with
  | lagged _ =>
    have := h.oldest_eq
    show b.oldest ≤ stream.length
    omega
  | @event passed rest e _ hsplit _ _ =>
    show p + passed.length + 1 ≤ stream.length
    rw [hsplit, List.length_append, List.length_cons] at hlength
    omega
  | dry _ _ =>
    show p + (stream.drop p).length ≤ stream.length
    omega

section ReadFor

variable {run : Option RunId} {steps next : Nat}

theorem readFor_of_error {x : BusError} (h : b.read p = (.error x, next)) :
    b.readFor run steps p = (.error x, next) := by
  cases steps <;> simp [readFor, h]

theorem readFor_of_wanted (h : b.read p = (.ok e, next)) (he : e.wantedBy run = true) :
    b.readFor run (steps + 1) p = (.ok e, next) := by
  cases run with
  | none => simp [readFor, h]
  | some r =>
    have her : e.belongsTo r = true := he
    simp [readFor, h, her]

theorem readFor_of_not_wanted (h : b.read p = (.ok e, next)) (he : e.wantedBy run = false) :
    b.readFor run (steps + 1) p = b.readFor run steps next := by
  cases run with
  | none => exact absurd he (by simp [Event.wantedBy])
  | some r =>
    have her : e.belongsTo r = false := he
    simp [readFor, h, her]

end ReadFor

/-- **What a receiver finds** that reads as many events as are left or more. -/
theorem Carries.finds (h : b.Carries stream) (run : Option RunId) {steps : Nat}
    (hp : p ≤ stream.length) (hsteps : b.oldest ≤ p → stream.length - p ≤ steps) :
    Finds b run p (stream.drop p) (b.readFor run steps p) := by
  have hend : ∀ n, b.oldest ≤ stream.length →
      Finds b run stream.length (stream.drop stream.length) (b.readFor run n stream.length) := by
    intro n hold
    rw [readFor_of_error (h.read_end (Nat.le_refl _)), List.drop_length]
    exact .dry hold (by simp)
  rcases Nat.lt_or_ge p b.oldest with hold | hold
  · rw [readFor_of_error (h.read_lost hold)]
    exact .lagged hold
  · induction steps generalizing p with
    | zero =>
      obtain rfl : p = stream.length := by have := hsteps hold; omega
      exact hend 0 hold
    | succ n ih =>
      rcases Nat.lt_or_ge p stream.length with hlt | hge
      · have hread := h.read_next hold (List.getElem?_eq_getElem hlt)
        rw [List.drop_eq_getElem_cons hlt]
        cases hwanted : (stream[p]).wantedBy run with
        | true =>
          rw [readFor_of_wanted hread hwanted]
          exact Finds.event [] hold rfl (by simp) hwanted
        | false =>
          rw [readFor_of_not_wanted hread hwanted]
          refine Finds.cons (ih hlt (fun _ => ?_) (Nat.le_succ_of_le hold)) hold hwanted
          have := hsteps hold
          omega
      · obtain rfl : p = stream.length := Nat.le_antisymm hp hge
        exact hend (n + 1) hold

end EventBus

end Roundtable

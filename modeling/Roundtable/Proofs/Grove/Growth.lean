import Mathlib.Data.List.Count
import Roundtable.Proofs.Grove.Felling

/-!
# Every worker is closed once

Spawns begin, on their own or asked for by a worker that executes, they take the answers
they wait for, are dropped at any moment, and what was handed over to be closed aside is
closed at some later time: a `Roundtable.Growth` is a grove with all that has happened in
it, and it grows step by step in any order.

**The point is one equation for each spawn** (`Roundtable.Growth.Owed`): the calls of
close, the closes handed over and the execution that still goes on make up the workers the
factory returned. Every step moves a worker from one of these places to another, so at
rest, where nothing executes and nothing is handed over, each worker has been closed
once. That all spawns come to rest with the ones nobody asked for is seen in
`Roundtable.Grove.Rooted`: whatever is not over was asked for by a worker that still
executes.
-/

namespace Roundtable

namespace Grove

/-- The worker of a spawn executes. -/
def Executes (g : Grove) (p : Nat) : Prop := ∃ s, g.spawn? p = some s ∧ s.stage = .executing

/-- The executions of a spawn: one, or none. -/
def executions : Option Spawn → Nat
  | none => 0
  | some s => s.stage.isExecuting.toNat

/-- The workers that are handed over to be closed aside. -/
def handedOver (acts : Acts) : List Nat :=
  acts.filterMap fun a => if a.2 = .closeAside then some a.1 else none

end Grove

/-- A grove and what has happened in it. -/
structure Growth where
  grove : Grove
  /-- What the spawns did, and which of them; a close that was handed over is done by the
  spawn it was handed over from. -/
  acts : Grove.Acts
  /-- The answers that were given from outside. -/
  answers : List (Nat × SpawnInput)
  /-- The closes that are handed over and not begun. -/
  waiting : List Nat

namespace Growth

/-- Nothing has happened. -/
def bare : Growth := ⟨.empty, [], [], []⟩

/-- A spawn begins. -/
def begin (g : Growth) (parent : Option Nat) (spec : SubAgentSpec) (standard : Span)
    (fresh : String) (now : Instant) : Growth :=
  let (grove, acts) := g.grove.begin parent spec standard fresh now
  { g with grove, acts := g.acts ++ acts }

/-- A spawn takes an answer, or is dropped. -/
def answer (g : Growth) (i : Nat) (x : SpawnInput) (now : Instant) : Growth :=
  let (grove, acts) := g.grove.receive i x now
  { grove, acts := g.acts ++ acts, answers := g.answers ++ [(i, x)]
    waiting := g.waiting ++ Grove.handedOver acts }

/-- A worker is closed that was handed over. -/
def closeAside (g : Growth) (i : Nat) : Growth :=
  { g with acts := g.acts ++ [(i, .close)], waiting := g.waiting.erase i }

/-- **What may happen next.** -/
inductive Step (g : Growth) : Growth → Prop
  | begin (parent : Option Nat) (spec : SubAgentSpec) (standard : Span) (fresh : String)
      (now : Instant) (hp : ∀ p, parent = some p → g.grove.Executes p) :
      Step g (g.begin parent spec standard fresh now)
  | answer {i : Nat} {s : Spawn} {x : SpawnInput} (now : Instant)
      (hs : g.grove.spawn? i = some s) (hx : s.stage.Awaits x) : Step g (g.answer i x now)
  | closeAside {i : Nat} (hi : i ∈ g.waiting) : Step g (g.closeAside i)

/-- Grown from nothing, step by step. -/
inductive Grown : Growth → Prop
  | bare : Grown bare
  | step {g g' : Growth} (hg : Grown g) (h : g.Step g') : Grown g'

/-- The workers the factory returned to a spawn. -/
def hired (g : Growth) (i : Nat) : Nat :=
  g.answers.countP fun a => a.1 == i && a.2.isWorker

/-- Nothing is left to run: the spawns nobody asked for are over, and no close is handed
over. -/
def AtRest (g : Growth) : Prop :=
  (∀ i s, g.grove.spawn? i = some s → g.grove.parent? i = none → s.stage.isOver = true) ∧
    g.waiting = []

/-- The worker of a spawn was told that its time is up before its execution was left, and
its execution was left before it was closed. -/
def CancelledFirst (g : Growth) (i : Nat) : Prop :=
  ∃ pre inner post, g.acts = pre ++ (i, .cancel) ::
      (inner ++ (i, .leaveExecution) :: (i, .close) :: post) ∧
    (i, .leaveExecution) ∉ pre ++ inner ∧ (i, .close) ∉ pre ++ inner

end Growth

/-! ### What grows from where -/

namespace Grove

variable {g : Grove} {i k : Nat} {s : Spawn} {x : SpawnInput} {now : Instant}

/-- Whatever was asked for comes after the one that asked, and is not over only as long as
that one executes. -/
structure Rooted (g : Grove) : Prop where
  parent_lt : ∀ {k p}, g.parent? k = some p → p < k
  parent_executes : ∀ {k p s}, g.spawn? k = some s → g.parent? k = some p →
    s.stage.isOver = false → g.Executes p

/-- A spawn that is over stays over. -/
theorem Fares.isOver {t : Spawn} {o : Option Spawn} {l : List SpawnAct}
    (h : Fares g i s x now k o l) (hs : g.spawn? i = some s) (ht : g.spawn? k = some t)
    (hover : t.stage.isOver = true) : o = some t := by
  cases h with
  | self hk =>
    subst hk
    obtain rfl : s = t := Option.some.inj (hs.symm.trans ht)
    rw [Spawn.receive_of_isOver _ _ hover]
  | dropped ht' =>
    obtain rfl := Option.some.inj (ht'.symm.trans ht)
    rw [Spawn.receive_of_isOver _ _ hover]
  | spared => exact ht

/-- What is not over was not over before, and was not dropped. -/
theorem Fares.of_alive {t : Spawn} {o : Option Spawn} {l : List SpawnAct}
    (h : Fares g i s x now k o l) (hs : g.spawn? i = some s) (ho : o = some t)
    (ht : t.stage.isOver = false) :
    (∃ t', g.spawn? k = some t' ∧ t'.stage.isOver = false) ∧
      (.leaveExecution ∈ (s.receive x now).2 → g.isBelow i k = false) := by
  cases h with
  | self hk =>
    subst hk
    obtain rfl := Option.some.inj ho
    refine ⟨⟨s, hs, Bool.eq_false_iff.mpr fun hover => ?_⟩,
      fun _ => Bool.eq_false_iff.mpr fun hb => absurd (lt_of_isBelow hb) (lt_irrefl k)⟩
    rw [Spawn.receive_of_isOver _ _ hover, hover] at ht
    exact absurd ht (by decide)
  | @dropped t' =>
    obtain rfl := Option.some.inj ho
    rw [Spawn.isOver_receive_dropped] at ht
    exact absurd ht (by decide)
  | spared hk hx => exact ⟨⟨t, ho, ht⟩, hx⟩

/-- A spawn that executes goes on executing, unless it takes the answer or is dropped. -/
theorem Fares.of_executing {t : Spawn} {o : Option Spawn} {l : List SpawnAct}
    (h : Fares g i s x now k o l) (hs : g.spawn? i = some s) (ha : s.stage.Awaits x)
    (ht : g.spawn? k = some t) (he : t.stage = .executing) :
    o = some t ∨ .leaveExecution ∈ (s.receive x now).2 ∧ (k = i ∨ g.isBelow i k = true) := by
  cases h with
  | self hk =>
    subst hk
    obtain rfl : s = t := Option.some.inj (hs.symm.trans ht)
    exact .inr ⟨(s.receive_of_executing now he ha).1, .inl rfl⟩
  | dropped _ hk hx => exact .inr ⟨hx, .inr hk⟩
  | spared => exact .inl ht

/-- A spawn that still asks for a worker is one that was spared. -/
theorem Fares.of_creating {o : Option Spawn} {l : List SpawnAct}
    (h : Fares g i s x now k o l) (ha : s.stage.Awaits x)
    (ho : ∀ t, o = some t → t.stage = .creating) : k ≠ i ∧ o = g.spawn? k := by
  cases h with
  | self => exact absurd (ho _ rfl) (s.receive_ne_creating now ha)
  | @dropped t =>
    have := t.isOver_receive_dropped now
    simp [ho _ rfl, SpawnStage.isOver] at this
  | spared hk => exact ⟨hk, rfl⟩

/-- The spawn that takes the answer is where the answer leads. -/
theorem spawn?_receive_self (hs : g.spawn? i = some s) (x : SpawnInput) (now : Instant) :
    (g.receive i x now).1.spawn? i = some (s.receive x now).1 := by
  generalize (g.receive i x now).1.spawn? i = o, hl : actsOf i (g.receive i x now).2 = l,
    fares hs x now i = h
  cases h with
  | self => rfl
  | dropped _ hk => exact absurd (lt_of_isBelow hk) (lt_irrefl i)
  | spared hk => exact absurd rfl hk

theorem spawn?_begin (g : Grove) (parent : Option Nat) (spec : SubAgentSpec)
    (standard : Span) (fresh : String) (now : Instant) (k : Nat) :
    (g.begin parent spec standard fresh now).1.spawn? k =
      if k = g.size then some (Spawn.begin spec standard fresh now).1 else g.spawn? k := by
  simp only [begin, spawn?, size, List.getElem?_append]
  rcases lt_trichotomy k g.sprouts.length with hk | rfl | hk
  · simp [hk, hk.ne]
  · simp
  · have : k - g.sprouts.length ≠ 0 := by omega
    simp [hk.not_gt, hk.ne', List.getElem?_eq_none, show 1 ≤ k - g.sprouts.length by omega]

theorem parent?_begin (g : Grove) (parent : Option Nat) (spec : SubAgentSpec)
    (standard : Span) (fresh : String) (now : Instant) (k : Nat) :
    (g.begin parent spec standard fresh now).1.parent? k =
      if k = g.size then parent else g.parent? k := by
  simp only [begin, parent?, size, List.getElem?_append]
  rcases lt_trichotomy k g.sprouts.length with hk | rfl | hk
  · simp [hk, hk.ne]
  · simp
  · simp [hk.not_gt, hk.ne', List.getElem?_eq_none, show 1 ≤ k - g.sprouts.length by omega]

namespace Rooted

theorem empty : Rooted .empty where
  parent_lt h := by simp [parent?, Grove.empty] at h
  parent_executes h := by simp [spawn?, Grove.empty] at h

theorem begin (h : g.Rooted) {parent : Option Nat} (spec : SubAgentSpec) (standard : Span)
    (fresh : String) (now : Instant) (hp : ∀ p, parent = some p → g.Executes p) :
    (g.begin parent spec standard fresh now).1.Rooted := by
  have hkeep {p : Nat} (he : g.Executes p) :
      (g.begin parent spec standard fresh now).1.Executes p := by
    obtain ⟨s, hs, he⟩ := he
    exact ⟨s, by rw [spawn?_begin, if_neg (lt_size_of_spawn? hs).ne, hs], he⟩
  constructor
  · intro k p hk
    rw [parent?_begin] at hk
    split at hk
    · next hk' =>
      obtain ⟨s, hs, -⟩ := hp p hk
      exact hk' ▸ lt_size_of_spawn? hs
    · exact h.parent_lt hk
  · intro k p s hs hk ht
    rw [parent?_begin] at hk
    rw [spawn?_begin] at hs
    split at hk
    · exact hkeep (hp p hk)
    · next hne =>
      rw [if_neg hne] at hs
      exact hkeep (h.parent_executes hs hk ht)

theorem receive (h : g.Rooted) (hs : g.spawn? i = some s) (ha : s.stage.Awaits x)
    (now : Instant) : (g.receive i x now).1.Rooted := by
  refine ⟨fun hk => h.parent_lt (by simpa using hk), ?_⟩
  intro k p t ht hk halive
  rw [parent?_receive] at hk
  obtain ⟨⟨t', ht', halive'⟩, hspared⟩ := (fares hs x now k).of_alive hs ht halive
  obtain ⟨u, hu, he⟩ := h.parent_executes ht' hk halive'
  rcases (fares hs x now p).of_executing hs ha hu he with hu' | ⟨hleave, hp⟩
  · exact ⟨u, hu', he⟩
  · -- what the parent asked for is dropped with it
    have hbelow := isBelow_of_parent? hk (h.parent_lt hk) hp
    rw [hspared hleave] at hbelow
    exact absurd hbelow (by decide)

/-- **Where the spawns nobody asked for are over, all are.** -/
theorem isOver (h : g.Rooted)
    (hroots : ∀ i s, g.spawn? i = some s → g.parent? i = none → s.stage.isOver = true)
    (hs : g.spawn? k = some s) : s.stage.isOver = true := by
  induction k using Nat.strong_induction_on generalizing s with
  | _ k ih =>
    by_contra halive
    rw [Bool.not_eq_true] at halive
    cases hk : g.parent? k with
    | none => simp [hroots k s hs hk] at halive
    | some p =>
      obtain ⟨t, ht, he⟩ := h.parent_executes hs hk halive
      have := ih p (h.parent_lt hk) ht
      simp [he, SpawnStage.isOver] at this

end Rooted

/-! ### One equation for each spawn -/

theorem count_handedOver (acts : Acts) (k : Nat) :
    (handedOver acts).count k = (actsOf k acts).count .closeAside := by
  rw [← count_eq_actsOf, handedOver]
  induction acts with
  | nil => rfl
  | cons a acts ih =>
    obtain ⟨i, a⟩ := a
    by_cases ha : a = .closeAside
    · simp [ha, List.count_cons, ih]
    · simp [ha, ih]

theorem countP_isClosing (l : List SpawnAct) :
    l.countP SpawnAct.isClosing = l.count .close + l.count .closeAside := by
  induction l with
  | nil => rfl
  | cons a l ih => cases a <;> simp [List.countP_cons, SpawnAct.isClosing, ih] <;> omega

/-- **What an answer does to the marks of the ways out**, spawn by spawn. -/
theorem Fares.balance {P : SpawnAct → Bool} {o : Option Spawn} {l : List SpawnAct}
    (h : Fares g i s x now k o l) (hP : SpawnAct.OnceOut P) (hs : g.spawn? i = some s)
    (ha : s.stage.Awaits x) :
    l.countP P + executions o =
      executions (g.spawn? k) + if i = k ∧ x.isWorker = true then 1 else 0 := by
  cases h with
  | self hk =>
    subst hk
    have := s.receive_balance now hP (SpawnInput.creating_of_isWorker ha)
    cases hx : x.isWorker <;> simpa [executions, hs, hx] using this
  | @dropped t ht hk _ =>
    have hne : i ≠ k := (lt_of_isBelow hk).ne
    have := t.receive_balance (x := .dropped) now hP (by simp [SpawnInput.isWorker])
    simpa [executions, ht, hne, SpawnInput.isWorker] using this
  | spared hk => simp [Ne.symm hk]

end Grove

namespace Growth

variable {g g' : Growth} {i k : Nat}

/-- **Every worker of a spawn is in one of three places**: it executes, its close is handed
over, or it was closed; and the worker that executes is the one whose execution was not
left. A spawn has one worker, and none where the factory failed. -/
structure Owed (g : Growth) (i : Nat) : Prop where
  closed : g.acts.count (i, .close) + g.waiting.count i + Grove.executions (g.grove.spawn? i) =
    g.hired i
  left : g.acts.count (i, .leaveExecution) + Grove.executions (g.grove.spawn? i) = g.hired i
  once : g.hired i ≤ 1
  fresh : (∀ s, g.grove.spawn? i = some s → s.stage = .creating) → g.hired i = 0
  failed : ∀ e, (i, .created (.error e)) ∈ g.answers →
    g.hired i = 0 ∧ ∃ s, g.grove.spawn? i = some s ∧ s.stage.isOver = true

theorem hired_answer (g : Growth) (k i : Nat) (x : SpawnInput) (now : Instant) :
    (g.answer k x now).hired i = g.hired i + if k = i ∧ x.isWorker = true then 1 else 0 := by
  simp [hired, Growth.answer, List.countP_cons]

namespace Owed

theorem bare (i : Nat) : Owed bare i where
  closed := rfl
  left := rfl
  once := Nat.zero_le 1
  fresh _ := rfl
  failed e h := by simp [Growth.bare] at h

theorem begin (h : g.Owed i) (parent : Option Nat) (spec : SubAgentSpec) (standard : Span)
    (fresh : String) (now : Instant) : (g.begin parent spec standard fresh now).Owed i := by
  have hcount (a : SpawnAct) (ha : a = .close ∨ a = .leaveExecution) :
      (g.begin parent spec standard fresh now).acts.count (i, a) = g.acts.count (i, a) := by
    have hno : (i, a) ∉ (g.grove.begin parent spec standard fresh now).2 := by
      rcases ha with rfl | rfl <;>
        simp [Grove.begin, Spawn.begin, Spawn.measure, Spawn.event]
    simp [Growth.begin, List.count_eq_zero_of_not_mem hno]
  have hexec : Grove.executions ((g.begin parent spec standard fresh now).grove.spawn? i) =
      Grove.executions (g.grove.spawn? i) := by
    simp only [Growth.begin, Grove.spawn?_begin]
    split
    · next hi =>
      have hnone : g.grove.spawn? i = none := by simp [Grove.spawn?, hi, Grove.size]
      rw [hnone]
      rfl
    · rfl
  constructor
  · rw [hcount _ (.inl rfl), hexec]
    exact h.closed
  · rw [hcount _ (.inr rfl), hexec]
    exact h.left
  · exact h.once
  · intro hc
    refine h.fresh fun s hs => hc s ?_
    simp only [Growth.begin, Grove.spawn?_begin]
    rw [if_neg (Grove.lt_size_of_spawn? hs).ne, hs]
  · intro e he
    obtain ⟨hz, s, hs, hover⟩ := h.failed e he
    refine ⟨hz, s, ?_, hover⟩
    simp only [Growth.begin, Grove.spawn?_begin]
    rw [if_neg (Grove.lt_size_of_spawn? hs).ne, hs]

theorem closeAside (h : g.Owed i) (hk : k ∈ g.waiting) : (g.closeAside k).Owed i := by
  refine ⟨?_, ?_, h.once, h.fresh, h.failed⟩
  · have hclosed := h.closed
    by_cases hi : k = i
    · subst hi
      have := List.count_pos_iff.mpr hk
      simp only [Growth.closeAside, List.count_append, List.count_singleton_self,
        List.count_erase_self]
      change _ = g.hired k
      omega
    · simpa [Growth.closeAside, hired, hi, List.count_erase_of_ne, Ne.symm hi] using hclosed
  · simpa [Growth.closeAside, hired] using h.left

/-- **An answer moves a worker from one place to another**, or brings one. -/
theorem answer {s : Spawn} {x : SpawnInput} (h : g.Owed i) (now : Instant)
    (hs : g.grove.spawn? k = some s) (ha : s.stage.Awaits x) : (g.answer k x now).Owed i := by
  have hf := Grove.fares hs x now i
  have hclosed := hf.balance SpawnAct.onceOut_isClosing hs ha
  have hleft := hf.balance SpawnAct.onceOut_leave hs ha
  have hcreating (hw : k = i ∧ x.isWorker = true) : s.stage = .creating :=
    SpawnInput.creating_of_isWorker ha hw.2
  have hfirst (hw : k = i ∧ x.isWorker = true) : g.hired i = 0 := by
    refine h.fresh fun t ht => ?_
    rw [← hw.1, hs, Option.some_inj] at ht
    exact ht ▸ hcreating hw
  constructor
  · rw [Grove.countP_isClosing] at hclosed
    rw [hired_answer, ← h.closed]
    simp only [Growth.answer, List.count_append, Grove.count_handedOver, Grove.count_eq_actsOf]
    omega
  · change List.count _ _ + _ = _ at hleft
    rw [hired_answer, ← h.left]
    simp only [Growth.answer, List.count_append, Grove.count_eq_actsOf]
    omega
  · have := h.once
    rw [hired_answer]
    split
    · next hw => simp [hfirst hw]
    · omega
  · intro hc
    obtain ⟨hne, ho⟩ := hf.of_creating ha hc
    rw [hired_answer, if_neg fun hw => hne hw.1.symm]
    exact h.fresh fun t ht => hc t (ho.trans ht)
  · intro e he
    rcases List.mem_append.mp he with he | he
    · obtain ⟨hz, t, ht, hover⟩ := h.failed e he
      refine ⟨?_, t, hf.isOver hs ht hover, hover⟩
      rw [hired_answer, hz, if_neg]
      rintro ⟨rfl, hw⟩
      obtain rfl : s = t := Option.some.inj (hs.symm.trans ht)
      simp [hcreating ⟨rfl, hw⟩, SpawnStage.isOver] at hover
    · obtain ⟨rfl, rfl⟩ := Prod.mk.inj (List.mem_singleton.mp he)
      have hz : g.hired i = 0 := by
        refine h.fresh fun t ht => ?_
        obtain rfl : s = t := Option.some.inj (hs.symm.trans ht)
        cases hs : s.stage <;> rw [hs] at ha <;> simp_all [SpawnStage.Awaits]
      refine ⟨?_, _, Grove.spawn?_receive_self hs _ now, s.isOver_receive_error now e ha⟩
      simp [hired_answer, hz, SpawnInput.isWorker]

end Owed

/-! ### Time that is up -/

theorem CancelledFirst.append (h : g.CancelledFirst i) {more : Grove.Acts}
    (hacts : g'.acts = g.acts ++ more) : g'.CancelledFirst i := by
  obtain ⟨pre, inner, post, heq, hleave, hclose⟩ := h
  exact ⟨pre, inner, post ++ more, by simp [hacts, heq], hleave, hclose⟩

/-- **A worker whose time is up hears of it first.** -/
theorem cancelledFirst_answer {s : Spawn} (h : g.Owed i) (hs : g.grove.spawn? i = some s)
    (he : s.stage = .executing) (now : Instant) :
    (g.answer i (.ended .outOfTime) now).CancelledFirst i := by
  have hacts : (s.receive (.ended .outOfTime) now).2 = [.cancel, .leaveExecution, .close] := by
    simp [Spawn.receive, he]
  obtain ⟨inner, hinner, hnone⟩ := Grove.acts_of_mem (x := .ended .outOfTime) now hs
    (by simp [hacts])
  have hno (a : SpawnAct) : (i, a) ∉ inner := by simp [Grove.mem_iff_actsOf, hnone]
  -- the worker executes, so it was neither left nor closed
  have hexec : Grove.executions (g.grove.spawn? i) = 1 := by
    simp [hs, Grove.executions, he, SpawnStage.isExecuting]
  have hclosed := h.closed
  have hleft := h.left
  have honce := h.once
  have hleave : (i, .leaveExecution) ∉ g.acts := List.count_eq_zero.mp (by omega)
  have hclose : (i, .close) ∉ g.acts := List.count_eq_zero.mp (by omega)
  refine ⟨g.acts, inner, [], ?_, by simp [hleave, hno], by simp [hclose, hno]⟩
  simp [Growth.answer, hinner, hacts, List.takeWhile, List.dropWhile]

/-! ### The whole growth -/

namespace Grown

theorem rooted (hg : g.Grown) : g.grove.Rooted := by
  induction hg with
  | bare => exact .empty
  | step _ h ih =>
    cases h with
    | begin parent spec standard fresh now hp => exact ih.begin spec standard fresh now hp
    | answer now hs hx => exact ih.receive hs hx now
    | closeAside => exact ih

theorem owed (hg : g.Grown) (i : Nat) : g.Owed i := by
  induction hg with
  | bare => exact .bare i
  | step _ h ih =>
    cases h with
    | begin parent spec standard fresh now => exact ih.begin parent spec standard fresh now
    | answer now hs hx => exact ih.answer now hs hx
    | closeAside hi => exact ih.closeAside hi

theorem cancelledFirst (hg : g.Grown) (hi : (i, .ended .outOfTime) ∈ g.answers) :
    g.CancelledFirst i := by
  induction hg with
  | bare => simp [Growth.bare] at hi
  | step hg h ih =>
    cases h with
    | begin => exact (ih hi).append rfl
    | answer now hs hx =>
      rcases List.mem_append.mp hi with hi | hi
      · exact (ih hi).append rfl
      · obtain ⟨rfl, rfl⟩ := Prod.mk.inj (List.mem_singleton.mp hi)
        refine cancelledFirst_answer (hg.owed i) hs ?_ now
        exact SpawnStage.eq_executing_of_ended hx
    | closeAside => exact (ih hi).append rfl

end Grown

/-- **Every worker is closed once.** However spawns begin, end, break off, run out of time
and are dropped, in trees of any shape: of the workers the factory returned to a spawn, and
that is at most one, none is closed twice; where the factory failed there is none and
nothing is closed; and once nothing is left to run, every spawn is over and every worker
has been closed. A worker whose time was up was told so before its execution was left, and
that before it was closed. -/
theorem closed_once (hg : g.Grown) (i : Nat) :
    (g.acts.count (i, .close) ≤ g.hired i ∧ g.hired i ≤ 1) ∧
      (∀ e, (i, .created (.error e)) ∈ g.answers →
        g.hired i = 0 ∧ g.acts.count (i, .close) = 0) ∧
      (g.AtRest → (∀ s, g.grove.spawn? i = some s → s.stage.isOver = true) ∧
        g.acts.count (i, .close) = g.hired i) ∧
      ((i, .ended .outOfTime) ∈ g.answers → g.CancelledFirst i) := by
  have howed := hg.owed i
  have hclosed := howed.closed
  refine ⟨⟨by omega, howed.once⟩, fun e he => ?_, fun hrest => ?_, hg.cancelledFirst⟩
  · have := (howed.failed e he).1
    exact ⟨this, by omega⟩
  · have hover (s : Spawn) (hs : g.grove.spawn? i = some s) : s.stage.isOver = true :=
      hg.rooted.isOver hrest.1 hs
    have hidle : Grove.executions (g.grove.spawn? i) = 0 := by
      cases hs : g.grove.spawn? i with
      | none => rfl
      | some s =>
        have := hover s hs
        cases ht : s.stage <;> simp_all [SpawnStage.isOver, Grove.executions,
          SpawnStage.isExecuting]
    rw [hrest.2, List.count_nil] at hclosed
    exact ⟨hover, by omega⟩

/-- The worker of a spawn executes, and so does one it asked for. -/
def nested : Growth :=
  (((bare.begin none default default "a" default).answer 0 (.created (.ok ())) default).begin
    (some 0) default default "b" default).answer 1 (.created (.ok ())) default

theorem grown_nested : nested.Grown := by
  have hbegun : Grown (bare.begin none default default "a" default) :=
    .step .bare (.begin _ _ _ _ _ (by simp))
  have hexecuting : Grown ((bare.begin none default default "a" default).answer 0
      (.created (.ok ())) default) := .step hbegun (.answer default rfl trivial)
  refine .step (.step hexecuting (.begin _ _ _ _ _ ?_)) (.answer default rfl trivial)
  rintro p ⟨rfl⟩
  exact ⟨_, rfl, rfl⟩

/-- The time of the outer worker is up: the inner one is closed aside, the outer one by its
spawn. -/
def overdue : Growth :=
  ((nested.answer 0 (.ended .outOfTime) default).closeAside 1).answer 0 (.closed (.ok ())) default

theorem grown_overdue : overdue.Grown := by
  obtain ⟨s, hs, he⟩ : ∃ s, nested.grove.spawn? 0 = some s ∧ s.stage = .executing :=
    ⟨_, rfl, rfl⟩
  have hended : Grown (nested.answer 0 (.ended .outOfTime) default) :=
    .step grown_nested (.answer default hs (by simp [he, SpawnStage.Awaits]))
  have hclosing := Grove.spawn?_receive_self hs (.ended .outOfTime) default
  refine .step (.step hended (.closeAside (i := 1) (by decide +kernel)))
    (.answer default hclosing ?_)
  simp [Spawn.receive, he, SpawnStage.Awaits]

theorem atRest_overdue : overdue.AtRest := by
  refine ⟨fun i s hs hi => ?_, by decide +kernel⟩
  have hsize : overdue.grove.size = 2 := by decide +kernel
  have hlt := Grove.lt_size_of_spawn? hs
  have hroot : (overdue.grove.spawn? 0).all (·.stage.isOver) = true := by decide +kernel
  have hchild : overdue.grove.parent? 1 = some 0 := by decide +kernel
  rcases (by omega : i = 0 ∨ i = 1) with rfl | rfl
  · rw [hs] at hroot
    exact hroot
  · rw [hchild] at hi
    exact absurd hi (by simp)

/-- Both workers are closed once, and the outer one heard that its time was up. -/
theorem closed_once_overdue :
    overdue.Grown ∧ overdue.AtRest ∧ overdue.acts.count (0, .close) = 1 ∧
      overdue.acts.count (1, .close) = 1 ∧ overdue.CancelledFirst 0 := by
  obtain ⟨-, -, hrest₀, htime⟩ := closed_once grown_overdue 0
  obtain ⟨-, -, hrest₁, -⟩ := closed_once grown_overdue 1
  have hin : (0, .ended .outOfTime) ∈ overdue.answers := by
    simp [overdue, nested, answer, closeAside, begin]
  exact ⟨grown_overdue, atRest_overdue, (hrest₀ atRest_overdue).2, (hrest₁ atRest_overdue).2,
    htime hin⟩

end Growth
end Roundtable

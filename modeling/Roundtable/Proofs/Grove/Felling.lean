import Mathlib.Data.List.Nodup
import Mathlib.Data.List.TakeDrop
import Mathlib.Data.List.TakeWhile
import Roundtable.Grove

/-!
# How far an answer reaches in a grove

An answer is for one spawn, and it reaches the spawns below it only where that spawn
leaves its execution. `Roundtable.Grove.Fares` lists what may happen to a spawn when some
spawn takes an answer – it is the one that takes it, it is dropped with the execution it
lives in, or nothing happens to it – and `Roundtable.Grove.fares` says that every spawn
fares in one of these ways. What holds of all spawns is then seen one spawn at a time.

Of a single spawn, **every way out of an execution carries each of its marks once**: the
execution is left once, and the worker is handed over to one close
(`Roundtable.Spawn.receive_balance`).
-/

namespace Roundtable

/-! ### One spawn -/

namespace SpawnStage

/-- The worker executes. -/
def isExecuting : SpawnStage → Bool
  | executing => true
  | _ => false

/-- The answer is one the stage waits for. -/
def Awaits : SpawnStage → SpawnInput → Prop
  | creating, .created _ | creating, .brokeOff _ | creating, .dropped => True
  | executing, .ended _ | executing, .dropped => True
  | closing _, .closed _ | closing _, .brokeOff _ | closing _, .dropped => True
  | _, _ => False

theorem eq_executing_of_ended {t : SpawnStage} {e : ExecutionEnd} (h : t.Awaits (.ended e)) :
    t = executing := by
  cases t <;> simp_all [Awaits]

end SpawnStage

namespace SpawnInput

/-- The factory returned a worker. -/
def isWorker : SpawnInput → Bool
  | created (.ok ()) => true
  | _ => false

theorem isWorker_iff {x : SpawnInput} : x.isWorker = true ↔ x = created (.ok ()) := by
  rcases x with (_ | ⟨⟨⟩⟩) | _ | _ | _ | _ <;> simp [isWorker]

/-- Only a spawn that has asked for a worker takes one. -/
theorem creating_of_isWorker {t : SpawnStage} {x : SpawnInput} (ha : t.Awaits x)
    (hx : x.isWorker = true) : t = .creating := by
  obtain rfl := isWorker_iff.mp hx
  cases t <;> simp_all [SpawnStage.Awaits]

end SpawnInput

/-- A mark of the acts of a spawn that stands once on every way out of an execution, and
nowhere else. -/
structure SpawnAct.OnceOut (P : SpawnAct → Bool) : Prop where
  before : ∀ a, a = .create ∨ a = .execute ∨ a = .cancel ∨ (∃ n, a = .notify n) → P a = false
  closed : [leaveExecution, close].countP P = 1
  aside : [leaveExecution, closeAside].countP P = 1

namespace SpawnAct

/-- The worker is closed or handed over to be closed. -/
def isClosing : SpawnAct → Bool
  | close | closeAside => true
  | _ => false

theorem onceOut_leave : OnceOut (· == leaveExecution) where
  before := by rintro a (rfl | rfl | rfl | ⟨n, rfl⟩) <;> rfl
  closed := rfl
  aside := rfl

theorem onceOut_isClosing : OnceOut isClosing where
  before := by rintro a (rfl | rfl | rfl | ⟨n, rfl⟩) <;> rfl
  closed := rfl
  aside := rfl

end SpawnAct

namespace Spawn

variable {P : SpawnAct → Bool} (s : Spawn) (c : Conclusion) {x : SpawnInput} (now : Instant)

theorem countP_finish (hP : SpawnAct.OnceOut P) : (s.finish c now).2.countP P = 0 := by
  refine List.countP_eq_zero.mpr fun a ha => ?_
  have hn : ∃ n, a = .notify n := by
    simp only [finish, measure, event, List.mem_cons, List.not_mem_nil, or_false] at ha
    rcases ha with rfl | rfl | rfl <;> exact ⟨_, rfl⟩
  simp [hP.before a (.inr (.inr (.inr hn)))]

theorem countP_closeNotices (hP : SpawnAct.OnceOut P) (r : Except TeardownError Unit) :
    (closeNotices r).countP P = 0 := by
  cases r with
  | ok _ => rfl
  | error e =>
    simp [closeNotices, hP.before (measure .teardownFailed) (.inr (.inr (.inr ⟨_, rfl⟩)))]

/-- **A mark of the ways out stands in the acts exactly when an execution is left**: with
what executes afterwards, it makes up what executed before and the worker that came. -/
theorem receive_balance (hP : SpawnAct.OnceOut P)
    (hx : x.isWorker = true → s.stage = .creating) :
    (s.receive x now).2.countP P + (s.receive x now).1.stage.isExecuting.toNat =
      s.stage.isExecuting.toNat + x.isWorker.toNat := by
  have hcancel : P .cancel = false := hP.before _ (.inr (.inr (.inl rfl)))
  have hexecute : P .execute = false := hP.before _ (.inr (.inl rfl))
  unfold receive
  split
  · next hs => simp [hs, SpawnInput.isWorker, SpawnStage.isExecuting, hexecute]
  · next hs =>
    simp only [hs, countP_finish _ _ _ hP]
    rfl
  · next e hs =>
    have hout : ((if e = ExecutionEnd.outOfTime then [SpawnAct.cancel] else []) ++
        [SpawnAct.leaveExecution, SpawnAct.close]).countP P = 1 := by
      rw [List.countP_append, hP.closed]
      split <;> simp [hcancel]
    simp only [hs, SpawnInput.isWorker, SpawnStage.isExecuting, hout]
    rfl
  · next hs =>
    simp only [List.countP_append, countP_closeNotices hP, countP_finish _ _ _ hP, hs]
    rfl
  · next hs => simp [hs, SpawnInput.isWorker, SpawnStage.isExecuting]
  · next hs => simp [hs, SpawnInput.isWorker, SpawnStage.isExecuting]
  · next hs =>
    simp only [hs, SpawnInput.isWorker, SpawnStage.isExecuting, hP.aside]
    rfl
  · next hs => simp [hs, SpawnInput.isWorker, SpawnStage.isExecuting]
  · next hs => simp [hs, SpawnInput.isWorker, SpawnStage.isExecuting]
  · next y _ _ hno _ _ _ _ _ _ _ _ =>
    have hw : y.isWorker = false :=
      Bool.eq_false_iff.mpr fun hw => hno (hx hw) (SpawnInput.isWorker_iff.mp hw)
    simp [hw]

/-- A spawn that is over stays as it is. -/
theorem receive_of_isOver (h : s.stage.isOver = true) : s.receive x now = (s, []) := by
  unfold receive
  split <;> simp_all [SpawnStage.isOver]

/-- A spawn that is dropped is over. -/
theorem isOver_receive_dropped : (s.receive .dropped now).1.stage.isOver = true := by
  unfold receive
  split <;> simp_all [SpawnStage.isOver]
  cases hs : s.stage <;> simp_all

/-- An execution that ends, or is dropped, is left. -/
theorem receive_of_executing (hs : s.stage = .executing) (ha : s.stage.Awaits x) :
    .leaveExecution ∈ (s.receive x now).2 ∧
      (s.receive x now).1.stage.isExecuting = false := by
  rw [hs] at ha
  cases x <;> simp_all [SpawnStage.Awaits, receive, SpawnStage.isExecuting]

/-- A spawn that took an answer it waited for does not ask for a worker any more. -/
theorem receive_ne_creating (ha : s.stage.Awaits x) :
    (s.receive x now).1.stage ≠ .creating := by
  cases hs : s.stage <;> rw [hs] at ha <;>
    rcases x with (_ | ⟨⟨⟩⟩) | _ | _ | _ | _ <;>
    simp_all [SpawnStage.Awaits, receive, finish]

/-- Without a worker a spawn is over. -/
theorem isOver_receive_error (e : FactoryError)
    (ha : s.stage.Awaits (.created (.error e))) :
    (s.receive (.created (.error e)) now).1.stage.isOver = true := by
  cases hs : s.stage <;> rw [hs] at ha <;>
    simp_all [SpawnStage.Awaits, receive, finish, SpawnStage.isOver]

end Spawn

/-! ### A grove -/

namespace Grove

variable {g g' : Grove} {i k : Nat} {s : Spawn} {x : SpawnInput} {now : Instant}

/-- What one spawn does, among all that is done. -/
def actsOf (k : Nat) (acts : Acts) : List SpawnAct :=
  (acts.filter (·.1 == k)).map (·.2)

@[simp] theorem actsOf_nil : actsOf k [] = [] := rfl

@[simp] theorem actsOf_append (acts more : Acts) :
    actsOf k (acts ++ more) = actsOf k acts ++ actsOf k more := by
  simp [actsOf]

@[simp] theorem actsOf_map_self (l : List SpawnAct) :
    actsOf k (l.map fun a => (k, a)) = l := by
  simp [actsOf, List.filter_map, Function.comp_def]

theorem actsOf_map_of_ne (h : k ≠ i) (l : List SpawnAct) :
    actsOf k (l.map fun a => (i, a)) = [] := by
  simp [actsOf, Ne.symm h]

theorem mem_iff_actsOf {acts : Acts} {a : SpawnAct} : (k, a) ∈ acts ↔ a ∈ actsOf k acts := by
  simp [actsOf]

theorem count_eq_actsOf (acts : Acts) (a : SpawnAct) :
    acts.count (k, a) = (actsOf k acts).count a := by
  rw [actsOf, List.count, List.count, List.countP_map, List.countP_filter]
  refine List.countP_congr fun y _ => ?_
  simp [Prod.ext_iff, and_comm]

theorem spawn?_set (g : Grove) (i k : Nat) (s : Spawn) :
    (g.set i s).spawn? k = if k = i then (g.spawn? i).map fun _ => s else g.spawn? k := by
  simp only [spawn?, set, List.getElem?_modify]
  by_cases h : k = i
  · subst h
    simp [Function.comp_def]
  · simp [h, Ne.symm h]

@[simp] theorem parent?_set (g : Grove) (i k : Nat) (s : Spawn) :
    (g.set i s).parent? k = g.parent? k := by
  simp only [parent?, set, List.getElem?_modify]
  cases g.sprouts[k]? with
  | none => rfl
  | some y => by_cases h : i = k <;> simp [h]

theorem receiveAt_of_spawn? (hs : g.spawn? i = some s) :
    g.receiveAt i x now = (g.set i (s.receive x now).1, (s.receive x now).2) := by
  simp only [receiveAt, hs]

@[simp] theorem parent?_receiveAt (g : Grove) (i k : Nat) (x : SpawnInput) (now : Instant) :
    (g.receiveAt i x now).1.parent? k = g.parent? k := by
  unfold receiveAt
  split
  · rfl
  · simp

/-! ### What is below a spawn -/

/-- What is below a spawn depends on who asked for whom. -/
theorem isBelow_congr (h : ∀ k, g'.parent? k = g.parent? k) (top k : Nat) :
    g'.isBelow top k = g.isBelow top k := by
  induction k using Nat.strong_induction_on with
  | _ k ih =>
    rw [isBelow, isBelow, h k]
    cases g.parent? k with
    | none => rfl
    | some p =>
      by_cases hp : p < k
      · simp [hp, ih p hp]
      · simp [hp]

theorem lt_of_isBelow {top : Nat} (h : g.isBelow top k = true) : top < k := by
  induction k using Nat.strong_induction_on with
  | _ k ih =>
    rw [isBelow] at h
    split at h
    · exact absurd h (by decide)
    · next p _ =>
      split at h
      · next hp =>
        rcases Bool.or_eq_true_iff.mp h with htop | hbelow
        · exact beq_iff_eq.mp htop ▸ hp
        · exact (ih p hp hbelow).trans hp
      · exact absurd h (by decide)

/-- What was asked for by a spawn, or by one below it, is below it. -/
theorem isBelow_of_parent? {top p : Nat} (hk : g.parent? k = some p) (hp : p < k)
    (h : p = top ∨ g.isBelow top p = true) : g.isBelow top k = true := by
  rw [isBelow, hk]
  simpa [hp] using h

theorem nodup_below (g : Grove) (top : Nat) : (g.below top).Nodup :=
  (List.nodup_reverse.mpr List.nodup_range).filter _

theorem not_mem_below (g : Grove) (top : Nat) : top ∉ g.below top := fun h =>
  absurd (lt_of_isBelow (List.mem_filter.mp h).2) (lt_irrefl top)

theorem lt_size_of_spawn? (hs : g.spawn? k = some s) : k < g.size := by
  obtain ⟨y, hy, -⟩ := Option.map_eq_some_iff.mp hs
  exact (List.getElem?_eq_some_iff.mp hy).1

theorem mem_below (hs : g.spawn? k = some s) (top : Nat) :
    k ∈ g.below top ↔ g.isBelow top k = true := by
  simp [below, lt_size_of_spawn? hs]

/-! ### Spawns that are dropped -/

@[simp] theorem parent?_dropEach (l : List Nat) (g : Grove) (k : Nat) :
    (dropEach now l g).1.parent? k = g.parent? k := by
  induction l generalizing g with
  | nil => rfl
  | cons i l ih => simp [dropEach, ih]

/-- **Dropping spawns drops each of them**, and no other. -/
theorem dropEach_at (now : Instant) {l : List Nat} (hl : l.Nodup) (g : Grove) (k : Nat) :
    (dropEach now l g).1.spawn? k =
        (if k ∈ l then (g.spawn? k).map fun s => (s.receive .dropped now).1 else g.spawn? k) ∧
      actsOf k (dropEach now l g).2 =
        (if k ∈ l then ((g.spawn? k).map fun s => (s.receive .dropped now).2).getD [] else []) := by
  induction l generalizing g with
  | nil => simp [dropEach]
  | cons i l ih =>
    obtain ⟨hi, hl⟩ := List.nodup_cons.mp hl
    obtain ⟨hspawn, hacts⟩ := ih hl (g.receiveAt i .dropped now).1
    simp only [dropEach, actsOf_append, hspawn, hacts]
    by_cases hk : k = i
    · subst hk
      cases hs : g.spawn? k with
      | none => simp [hi, receiveAt, hs]
      | some s => simp [hi, receiveAt_of_spawn? hs, spawn?_set, hs]
    · have hkeep : (g.receiveAt i .dropped now).1.spawn? k = g.spawn? k := by
        cases hs : g.spawn? i with
        | none => simp [receiveAt, hs]
        | some s => simp [receiveAt_of_spawn? hs, spawn?_set, hk]
      simp [hkeep, hk, actsOf_map_of_ne hk]

/-! ### An answer -/

theorem receive_of_not_mem (hs : g.spawn? i = some s)
    (h : .leaveExecution ∉ (s.receive x now).2) :
    g.receive i x now =
      (g.set i (s.receive x now).1, (s.receive x now).2.map fun a => (i, a)) := by
  have hd : (s.receive x now).2.dropWhile (· != .leaveExecution) = [] := by
    refine List.dropWhile_eq_nil_iff.mpr fun a ha => bne_iff_ne.mpr ?_
    rintro rfl
    exact h ha
  simp [receive, receiveAt_of_spawn? hs, List.span_eq_takeWhile_dropWhile, hd]

theorem receive_of_mem (hs : g.spawn? i = some s)
    (h : .leaveExecution ∈ (s.receive x now).2) :
    g.receive i x now =
      ((dropEach now ((g.set i (s.receive x now).1).below i) (g.set i (s.receive x now).1)).1,
        (((s.receive x now).2.takeWhile (· != .leaveExecution)).map fun a => (i, a)) ++
          (dropEach now ((g.set i (s.receive x now).1).below i) (g.set i (s.receive x now).1)).2 ++
          ((s.receive x now).2.dropWhile (· != .leaveExecution)).map fun a => (i, a)) := by
  -- there is something to leave, so the second branch is taken
  have hd : (s.receive x now).2.dropWhile (· != .leaveExecution) ≠ [] := by
    refine fun hd => ?_
    simpa using List.dropWhile_eq_nil_iff.mp hd _ h
  simp only [receive, receiveAt_of_spawn? hs, List.span_eq_takeWhile_dropWhile]

/-- What the others do when a spawn leaves its execution stands right before it is left. -/
theorem acts_of_mem (now : Instant) (hs : g.spawn? i = some s)
    (h : .leaveExecution ∈ (s.receive x now).2) :
    ∃ inner, (g.receive i x now).2 =
        (((s.receive x now).2.takeWhile (· != .leaveExecution)).map fun a => (i, a)) ++ inner ++
          (((s.receive x now).2.dropWhile (· != .leaveExecution)).map fun a => (i, a)) ∧
      actsOf i inner = [] := by
  refine ⟨_, congrArg Prod.snd (receive_of_mem hs h), ?_⟩
  rw [(dropEach_at now (nodup_below _ i) _ i).2, if_neg (not_mem_below _ i)]

@[simp] theorem parent?_receive (g : Grove) (i k : Nat) (x : SpawnInput) (now : Instant) :
    (g.receive i x now).1.parent? k = g.parent? k := by
  unfold receive
  dsimp only
  split <;> simp

/-- What may happen to a spawn when spawn `i` takes an answer: where it is afterwards and
what it does. -/
inductive Fares (g : Grove) (i : Nat) (s : Spawn) (x : SpawnInput) (now : Instant) (k : Nat) :
    Option Spawn → List SpawnAct → Prop
  /-- It takes the answer. -/
  | self (hk : k = i) : Fares g i s x now k (some (s.receive x now).1) (s.receive x now).2
  /-- It is dropped with the execution it lives in. -/
  | dropped {t : Spawn} (ht : g.spawn? k = some t) (hk : g.isBelow i k = true)
      (hx : .leaveExecution ∈ (s.receive x now).2) :
      Fares g i s x now k (some (t.receive .dropped now).1) (t.receive .dropped now).2
  /-- Nothing happens to it. -/
  | spared (hk : k ≠ i)
      (hx : .leaveExecution ∈ (s.receive x now).2 → g.isBelow i k = false) :
      Fares g i s x now k (g.spawn? k) []

/-- **Every spawn fares in one of these ways.** -/
theorem fares (hs : g.spawn? i = some s) (x : SpawnInput) (now : Instant) (k : Nat) :
    Fares g i s x now k ((g.receive i x now).1.spawn? k) (actsOf k (g.receive i x now).2) := by
  by_cases hx : .leaveExecution ∈ (s.receive x now).2
  · obtain ⟨hspawn, hacts⟩ := dropEach_at now
      (nodup_below (g.set i (s.receive x now).1) i) (g.set i (s.receive x now).1) k
    have hbelow (t : Spawn) (ht : (g.set i (s.receive x now).1).spawn? k = some t) :
        k ∈ (g.set i (s.receive x now).1).below i ↔ g.isBelow i k = true := by
      rw [mem_below ht, isBelow_congr fun k => parent?_set g i k _]
    rw [receive_of_mem hs hx]
    simp only [actsOf_append, hspawn, hacts]
    by_cases hk : k = i
    · subst hk
      have hself : (g.set k (s.receive x now).1).spawn? k = some (s.receive x now).1 := by
        simp [spawn?_set, hs]
      simpa [not_mem_below, hself] using Fares.self rfl
    · rw [actsOf_map_of_ne hk, actsOf_map_of_ne hk]
      simp only [spawn?_set, if_neg hk, List.nil_append, List.append_nil] at hbelow ⊢
      cases ht : g.spawn? k with
      | none =>
        have hno : g.isBelow i k = false := by
          have hp : g.parent? k = none := by
            simp only [parent?, Option.map_eq_none_iff.mp ht, Option.bind_none]
          rw [isBelow, hp]
        have hspared : Fares g i s x now k (g.spawn? k) [] := .spared hk fun _ => hno
        simpa [ht] using hspared
      | some t =>
        by_cases hb : g.isBelow i k = true
        · simpa [(hbelow t ht).mpr hb] using Fares.dropped ht hb hx
        · rw [if_neg (mt (hbelow t ht).mp hb), if_neg (mt (hbelow t ht).mp hb), ← ht]
          exact .spared hk fun _ => Bool.eq_false_iff.mpr hb
  · rw [receive_of_not_mem hs hx]
    by_cases hk : k = i
    · subst hk
      simpa [spawn?_set, hs] using Fares.self rfl
    · simpa [spawn?_set, hk, actsOf_map_of_ne hk] using Fares.spared hk fun h => absurd h hx

end Grove

end Roundtable
